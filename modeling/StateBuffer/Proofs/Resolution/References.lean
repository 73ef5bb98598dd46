import StateBuffer.Proofs.Cycles
import StateBuffer.Proofs.Resolution.Usage

/-!
The records of references. References are bound in the order of their places, so the first use that
is recorded of a definition is the first one in the text; an import is used by references of its own
file only; and where a reference is bound to nothing, a search without the demand that definitions
be public finds the ones that are not.
-/

namespace StateBuffer

/-! ### First matches -/

lemma find?_eq_some_iff_least {α : Type} {R : α → α → Prop} {l : List α} {p : α → Bool}
    (h : l.Pairwise R) (hasymm : ∀ a b, R a b → ¬ R b a) {a : α} :
    l.find? p = some a ↔ a ∈ l ∧ p a = true ∧ ∀ b ∈ l, p b = true → b = a ∨ R a b := by
  rw [List.find?_eq_some_iff_append]
  constructor
  · rintro ⟨hp, before, after, rfl, hbefore⟩
    refine ⟨by simp, hp, fun b hb hpb => ?_⟩
    rcases List.mem_append.1 hb with hb | hb
    · exact absurd hpb (by simpa using hbefore b hb)
    · rcases List.mem_cons.1 hb with rfl | hb
      · exact .inl rfl
      · exact .inr ((List.pairwise_cons.1 (List.pairwise_append.1 h).2.1).1 b hb)
  · rintro ⟨ha, hp, hleast⟩
    obtain ⟨before, after, rfl⟩ := List.append_of_mem ha
    refine ⟨hp, before, after, rfl, fun b hb => ?_⟩
    have hlt : R b a := (List.pairwise_append.1 h).2.2 b hb a List.mem_cons_self
    by_contra hpb
    rcases hleast b (List.mem_append_left _ hb) (by simpa using hpb) with rfl | hgt
    · exact hasymm b b hlt hlt
    · exact hasymm a b hgt hlt

lemma ImportPath.first_leads {leads : FileId → ItemId → Bool → FileId → Prop}
    {start file : FileId} {path : List ItemId} (hp : ImportPath leads start path file) :
    ∃ id rest isPublic target, path = id :: rest ∧ leads start id isPublic target := by
  induction hp with
  | first hl => exact ⟨_, [], _, _, rfl, hl⟩
  | next hp _ ih =>
    obtain ⟨id, rest, isPublic, target, rfl, hl⟩ := ih
    exact ⟨id, _, isPublic, target, rfl, hl⟩

namespace Resolution

open StateBuffer.Tree

/-! ### The record of first uses -/

/-- The definition that the reference of an item is bound to, and the place of the reference. -/
def useOf (r : Resolution) (file : FileId) (item : ItemId) : Option (ItemId × Span) :=
  match r.tree.definition? item with
  | none => none
  | some d => match r.tree.reference? d.definition with
    | none => none
    | some (e, name) =>
      (r.definitions.search (r.imports.visible file) (queryOf file e name) .publicOnly).map
        fun b => (b.target.item, e.span)

lemma useOf_eq_some {r : Resolution} {file : FileId} {item : ItemId} {u : ItemId × Span} :
    r.useOf file item = some u ↔ ∃ d e name b, r.tree.definition? item = some d ∧
      r.tree.reference? d.definition = some (e, name) ∧
      r.definitions.search (r.imports.visible file) (queryOf file e name) .publicOnly = some b ∧
      u = (b.target.item, e.span) := by
  unfold useOf
  cases hd : r.tree.definition? item with
  | none => simp
  | some d =>
    cases he : r.tree.reference? d.definition with
    | none => simp [he]
    | some x =>
      obtain ⟨e, name⟩ := x
      simp [he, eq_comm]

lemma Agrees.useOf {r r' : Resolution} (h : Agrees r r') (file : FileId) (item : ItemId) :
    r'.useOf file item = r.useOf file item := by
  simp only [Resolution.useOf, h.tree, h.definitions, h.visible]

/-- **One item**: the use that it makes is recorded if there is none of that definition yet. -/
lemma firstUse?_bindItem (file : FileId) (r : Resolution) (item target : ItemId) :
    (bindItem file r item).firstUse? target =
      (r.firstUse? target).or
        (((r.useOf file item).toList.find? fun u => u.1 = target).map Prod.snd) := by
  unfold bindItem useOf
  cases r.tree.definition? item with
  | none => simp
  | some d =>
    cases he : r.tree.reference? d.definition with
    | none => simp [he]
    | some x =>
      obtain ⟨e, name⟩ := x
      simp only [he, Resolution.bind]
      cases r.definitions.search (r.imports.visible file) (queryOf file e name) .publicOnly with
      | none => simp
      | some b =>
        simp only [Option.map_some, Option.toList_some, firstUse?]
        by_cases hseen : (r.firstUses.any fun u => u.1 = b.target.item) = true
        · -- the definition was used before, so a second use of it is not recorded
          rw [if_pos hseen]
          by_cases htarget : b.target.item = target
          · subst htarget
            obtain ⟨u, hu⟩ := Option.isSome_iff_exists.1
              (List.find?_isSome.2 (List.any_eq_true.1 hseen))
            rw [hu]
            rfl
          · rw [List.find?_singleton, decide_eq_false htarget]
            simp
        · rw [if_neg hseen, List.find?_append, Option.map_or]

lemma firstUse?_foldl (places : List (FileId × ItemId)) (r : Resolution) (target : ItemId) :
    (places.foldl (fun r x => bindItem x.1 r x.2) r).firstUse? target =
      (r.firstUse? target).or
        (((places.filterMap fun x => r.useOf x.1 x.2).find? fun u => u.1 = target).map
          Prod.snd) := by
  induction places generalizing r with
  | nil => simp
  | cons x places ih =>
    have hagree := (bindItem_spec x.1 r x.2).1
    have hrest : (places.filterMap fun y => (bindItem x.1 r x.2).useOf y.1 y.2) =
        places.filterMap fun y => r.useOf y.1 y.2 :=
      List.filterMap_congr fun y _ => hagree.useOf y.1 y.2
    rw [List.foldl_cons, ih, firstUse?_bindItem, hrest, Option.or_assoc, List.filterMap_cons]
    cases r.useOf x.1 x.2 with
    | none => simp
    | some u =>
      rw [Option.toList_some, List.find?_singleton, List.find?_cons]
      cases decide (u.1 = target) with
      | false => simp
      | true => simp

/-- A reference in the file `file` at the place `span` is bound to `b`. -/
def Bound (r : Resolution) (file : FileId) (span : Span) (b : Binding) : Prop :=
  ∃ d e name, r.tree.definition? d.item = some d ∧
    r.tree.reference? d.definition = some (e, name) ∧ d.file = file ∧ e.span = span ∧
    r.binding? e.node = some b

section Resolved

variable {s : SourceSet} {t : Tree} {next : NodeId} {root : Bytes} {r : Resolution}
  (h : t.Numbered s.size next)

include h

lemma firstUse?_eq (hr : Resolution.ofTree s t root = .ok r) (target : ItemId) :
    r.firstUse? target = ((t.places.filterMap fun x => r.useOf x.1 x.2).find? fun u =>
      u.1 = target).map Prod.snd := by
  rw [Resolution.ofTree, index_eq h root] at hr
  obtain rfl := Except.ok.inj hr
  set r0 : Resolution := ⟨t, (ImportIndex.ofTree s t root).consolidate s, ⟨t.declared⟩, [], []⟩
  rw [show r0.bindAll = t.places.foldl (fun r x => bindItem x.1 r x.2) r0 from bindAll_eq r0,
    firstUse?_foldl]
  have hagree := (foldl_bindItem t.places r0).1
  rw [show r0.firstUse? target = none from rfl, Option.none_or]
  congr 2
  exact List.filterMap_congr fun x _ => (hagree.useOf x.1 x.2).symm

lemma mem_uses_iff (hres : Resolved s t root r) {u : ItemId × Span} :
    u ∈ t.places.filterMap (fun x => r.useOf x.1 x.2) ↔
      ∃ file b, Bound r file u.2 b ∧ b.target.item = u.1 := by
  rw [List.mem_filterMap]
  constructor
  · rintro ⟨x, hx, hu⟩
    obtain ⟨d, e, name, b, hd, he, hs, rfl⟩ := useOf_eq_some.1 hu
    obtain ⟨hid, hd'⟩ := definition?_item hd
    obtain ⟨span, hi, -⟩ := Tree.definition?_eq_some.1 hd
    obtain ⟨-, it, hit, hfile⟩ := h.place_file hx
    rw [hres.tree] at hi
    obtain rfl := Option.some.inj (hi.symm.trans hit)
    refine ⟨d.file, b, ⟨d, e, name, hd', he, rfl, rfl, ?_⟩, rfl⟩
    rw [hres.tree] at hd' he
    rw [hres.binding hd' he, show d.file = x.1 from hfile]
    exact hs
  · rintro ⟨file, b, ⟨d, e, name, hd, he, -, hspan, hb⟩, htarget⟩
    obtain ⟨span, hi, -⟩ := Tree.definition?_eq_some.1 hd
    rw [hres.tree] at hi
    refine ⟨(d.file, d.item), h.mem_places_iff.2 ⟨_, hi, rfl⟩, ?_⟩
    rw [hres.binding (hres.tree ▸ hd) (hres.tree ▸ he)] at hb
    exact useOf_eq_some.2 ⟨d, e, name, b, hd, he, hb, by rw [htarget, hspan]⟩

lemma firstUse?_isSome_iff_bound (hr : Resolution.ofTree s t root = .ok r)
    (hres : Resolved s t root r) {item : ItemId} :
    (r.firstUse? item).isSome ↔ ∃ file span b, Bound r file span b ∧ b.target.item = item := by
  rw [firstUse?_eq h hr, Option.isSome_map, List.find?_isSome]
  simp only [mem_uses_iff h hres, decide_eq_true_iff]
  constructor
  · rintro ⟨u, ⟨file, b, hb, htarget⟩, rfl⟩
    exact ⟨file, u.2, b, hb, htarget⟩
  · rintro ⟨file, span, b, hb, htarget⟩
    exact ⟨(item, span), ⟨file, b, hb, htarget⟩, rfl⟩

lemma pairwise_uses (hres : Resolved s t root r) (hcheck : t.Checked) :
    (t.places.filterMap fun x => r.useOf x.1 x.2).Pairwise
      fun u v => u.2.before v.2 = true := by
  refine h.pairwise_places.filterMap _ fun x y hxy u hu v hv => ?_
  obtain ⟨d, e, name, b, hd, he, -, rfl⟩ := useOf_eq_some.1 hu
  obtain ⟨d', e', name', b', hd', he', -, rfl⟩ := useOf_eq_some.1 hv
  rw [hres.tree] at hd he hd' he'
  obtain ⟨hid, hd⟩ := definition?_item hd
  obtain ⟨hid', hd'⟩ := definition?_item hd'
  exact h.value_before hcheck hd hd' (reference?_eq_some.1 he).1 (reference?_eq_some.1 he').1
    (by rw [hid, hid']; exact hxy)

/-- **The first use** of a definition is the first of the references bound to it. -/
lemma firstUse?_eq_some_iff (hr : Resolution.ofTree s t root = .ok r)
    (hres : Resolved s t root r) (hcheck : t.Checked) {item : ItemId} {span : Span} :
    r.firstUse? item = some span ↔ (∃ file b, Bound r file span b ∧ b.target.item = item) ∧
      ∀ file span' b, Bound r file span' b → b.target.item = item →
        span' = span ∨ span.before span' = true := by
  have hleast := fun u => find?_eq_some_iff_least (pairwise_uses h hres hcheck)
    (fun u v => Span.before_asymm) (p := fun u => u.1 = item) (a := u)
  simp only [mem_uses_iff h hres, decide_eq_true_iff] at hleast
  rw [firstUse?_eq h hr, Option.map_eq_some_iff]
  constructor
  · rintro ⟨u, hu, rfl⟩
    obtain ⟨hbound, rfl, hfirst⟩ := (hleast u).1 hu
    refine ⟨hbound, fun file span' b hb htarget => ?_⟩
    rcases hfirst (u.1, span') ⟨file, b, hb, htarget⟩ rfl with heq | hlt
    · exact .inl (congrArg Prod.snd heq)
    · exact .inr hlt
  · rintro ⟨hbound, hfirst⟩
    refine ⟨(item, span), (hleast _).2 ⟨hbound, rfl, ?_⟩, rfl⟩
    rintro ⟨item', span'⟩ ⟨file, b, hb, htarget⟩ rfl
    exact (hfirst file span' b hb htarget).imp_left fun heq => by rw [heq]

/-! ### Used imports -/

lemma Resolved.edge_file (hres : Resolved s t root r) {edge : ImportEdge}
    (hedge : edge ∈ r.imports.edges) :
    ∃ it, t.item? edge.item = some it ∧ it.file = edge.file := by
  have hmem : edge.unmarked ∈ (ImportIndex.ofTree s t root).edges := by
    rw [← hres.edges]
    exact List.mem_map_of_mem hedge
  obtain ⟨x, hx, he⟩ := List.mem_filterMap.1 hmem
  obtain ⟨hitem, hfile⟩ := ImportIndex.edgeOf?_item he
  obtain ⟨-, it, hit, hf⟩ := h.place_file hx
  rw [← hitem] at hit
  exact ⟨it, hit, hf.trans hfile.symm⟩

lemma Resolved.via_file (hres : Resolved s t root r) {d : Declared} {e : Expr} {name : Bytes}
    (hd : t.definition? d.item = some d) (he : t.reference? d.definition = some (e, name))
    {b : Binding} (hb : r.binding? e.node = some b) {edge : ImportEdge}
    (hedge : edge ∈ r.imports.edges) (hvia : b.via = some edge.item) : d.file = edge.file := by
  have hmeans := hres.means h hd he
  rw [hb] at hmeans
  cases hmeans with
  | own => cases hvia
  | @imported d' id path _ hoffers =>
    obtain ⟨first, rest, isPublic, target, hpath, hl⟩ := hoffers.1.first_leads
    obtain ⟨rfl, rfl⟩ := List.cons.inj hpath
    obtain ⟨it, i, tried, hit, hfile, -⟩ := hl
    obtain ⟨it', hit', hfile'⟩ := hres.edge_file h hedge
    rw [← Option.some.inj hvia, hit] at hit'
    obtain rfl := Option.some.inj hit'
    exact hfile.symm.trans hfile'

/-! ### Names without a binding -/

lemma search_eq_none_iff {q : Query} {v : Visibility} {reached : List Reach} :
    (⟨t.declared⟩ : DefinitionIndex).search reached q v = none ↔
      ∀ reach ∈ reached, ∀ d, t.Defines reach.file q.name d → q.sees v d = false := by
  simp only [DefinitionIndex.search, List.findSome?_eq_none_iff, Option.map_eq_none_iff,
    h.lookup_find_none]

lemma sees_any {owner d : Declared} (ho : t.definition? owner.item = some owner) {q : Query}
    (hfile : q.file = owner.file) (hscope : q.scope = [owner.definition.node])
    (hd : t.definition? d.item = some d) (hf : d.file ≠ owner.file) : q.sees .any d = true := by
  have hne : d.definition.node ≠ owner.definition.node :=
    fun he => hf (by rw [h.node_inj hd ho he])
  rw [Query.sees, h.scope_eq hd, hscope, if_neg (by simpa using hne),
    if_neg (fun he => hf (he.trans hfile))]
  simp

/-- **A search for private definitions** finds those of other files that are seen, and they are not
public. -/
lemma Resolved.searchPrivate_iff (hres : Resolved s t root r) {d : Declared} {e : Expr}
    {name : Bytes} (hd : t.definition? d.item = some d)
    (he : t.reference? d.definition = some (e, name)) (hb : r.binding? e.node = none) :
    ((r.searchPrivate d.file e name).isSome ↔ ∃ reach ∈ r.imports.visible d.file,
        reach.file ≠ d.file ∧ ∃ d', t.Defines reach.file name d') ∧
      ∀ reach ∈ r.imports.visible d.file, reach.file ≠ d.file →
        ∀ d', t.Defines reach.file name d' → d'.definition.isPublic = false := by
  obtain ⟨e', he', hinit⟩ := h.value hd
  obtain rfl : e = e' := Option.some.inj ((reference?_eq_some.1 he).1.symm.trans he')
  rw [hres.binding hd he, hres.definitions, search_eq_none_iff h] at hb
  have hpublic : ∀ reach ∈ r.imports.visible d.file, reach.file ≠ d.file →
      ∀ d', t.Defines reach.file name d' → d'.definition.isPublic = false := by
    intro reach hreach hf d' hd'
    have hsees := sees_other h hd (q := queryOf d.file e name) rfl hinit.scope hd'.1
      (by rwa [hd'.2.1])
    rw [← Bool.not_eq_true, ← hsees, hb reach hreach d' hd']
    simp
  refine ⟨?_, hpublic⟩
  rw [← Option.ne_none_iff_isSome, searchPrivate, hres.definitions, ne_eq, search_eq_none_iff h]
  push Not
  constructor
  · rintro ⟨reach, hreach, d', hd', hany⟩
    refine ⟨reach, hreach, fun hf => ?_, d', hd'⟩
    -- in the file itself both searches see the same
    have hsees := sees_own h hd (q := queryOf d.file e name) rfl hinit.scope hd'.1
      (.inr hinit.node) (hd'.2.1.trans hf)
    rw [ne_eq, Bool.not_eq_false, hsees, ← hsees .publicOnly, hb reach hreach d' hd'] at hany
    cases hany
  · rintro ⟨reach, hreach, hf, d', hd'⟩
    refine ⟨reach, hreach, d', hd', ?_⟩
    rw [ne_eq, Bool.not_eq_false]
    exact sees_any h hd rfl hinit.scope hd'.1 (by rwa [hd'.2.1])

end Resolved

/-- **The records of references are exact**, in all files of a set, each shorter than `2 ^ 32`
bytes. A definition has a first use exactly if a reference is bound to it, and the first use is the
least place of such a reference, by file, then start, then end. An import is used exactly if a
reference of its own file is bound through it. For a reference that is bound to nothing, the search
for private definitions finds one exactly if another file that is seen defines the name, and none of
those definitions is public. -/
theorem records_exact (texts : List SourceText) (root : Bytes)
    (hsize : ∀ f ∈ (Project.sourcesOf texts).files.toList, f.content.length < 2 ^ 32) :
    ∃ r, Resolution.ofTree (Project.sourcesOf texts) (Project.treeOf texts) root = .ok r ∧
      (∀ item, (r.firstUse? item).isSome ↔
        ∃ file span b, Bound r file span b ∧ b.target.item = item) ∧
      (∀ item span, r.firstUse? item = some span ↔
        (∃ file b, Bound r file span b ∧ b.target.item = item) ∧
          ∀ file span' b, Bound r file span' b → b.target.item = item →
            span' = span ∨ span.before span' = true) ∧
      (∀ edge ∈ r.imports.edges, edge.used = true ↔
        ∃ span b, Bound r edge.file span b ∧ b.via = some edge.item) ∧
      ∀ d e name, r.tree.definition? d.item = some d →
        r.tree.reference? d.definition = some (e, name) → r.binding? e.node = none →
        ((r.searchPrivate d.file e name).isSome ↔ ∃ reach ∈ r.imports.visible d.file,
          reach.file ≠ d.file ∧ ∃ d', r.tree.Defines reach.file name d') ∧
        ∀ reach ∈ r.imports.visible d.file, reach.file ≠ d.file →
          ∀ d', r.tree.Defines reach.file name d' → d'.definition.isPublic = false := by
  obtain ⟨next, h⟩ := Project.numbered_treeOf texts
  obtain ⟨r, hr, hres⟩ := ofTree_resolved h root
  have hcheck := SourceSet.checked_parse (Project.ordered_sourcesOf texts) hsize
  refine ⟨r, hr, fun item => firstUse?_isSome_iff_bound h hr hres,
    fun item span => firstUse?_eq_some_iff h hr hres hcheck, fun edge hedge => ?_,
    fun d e name hd he hb => ?_⟩
  · rw [used_iff h hr hres hedge]
    constructor
    · rintro ⟨d, e, name, b, hd, he, hb, hvia⟩
      exact ⟨e.span, b, ⟨d, e, name, hres.tree ▸ hd, hres.tree ▸ he,
        hres.via_file h hd he hb hedge hvia, rfl, hb⟩, hvia⟩
    · rintro ⟨span, b, ⟨d, e, name, hd, he, -, -, hb⟩, hvia⟩
      exact ⟨d, e, name, b, hres.tree ▸ hd, hres.tree ▸ he, hb, hvia⟩
  · rw [hres.tree] at hd he ⊢
    exact hres.searchPrivate_iff h hd he hb

/-- Two files that import the same one, which uses its own definition after they are stored. -/
def sharedUses : List SourceText :=
  [⟨"a.gpex", "a", "import c;var p=x;var q=y;", false⟩,
    ⟨"b.gpex", "b", "import c;var p=x;var q=p;", false⟩,
    ⟨"c.gpex", "c", "pub var x=1;var y=x;", false⟩]

/-- The first use of `x` is the reference in the first file, and the import of the second file is
used by a reference of that file. -/
theorem records_exact_sharedUses :
    (∀ f ∈ (Project.sourcesOf sharedUses).files.toList, f.content.length < 2 ^ 32) ∧
      ∃ r, Resolution.ofTree (Project.sourcesOf sharedUses) (Project.treeOf sharedUses) "" = .ok r ∧
        (∃ file b, Bound r file ⟨1, 15, 16⟩ b ∧ b.target.item = 7) ∧
        (∀ file span b, Bound r file span b → b.target.item = 7 →
          span = ⟨1, 15, 16⟩ ∨ (⟨1, 15, 16⟩ : Span).before span = true) ∧
        ∃ edge ∈ r.imports.edges, edge.file = 2 ∧
          ∃ span b, Bound r edge.file span b ∧ b.via = some edge.item := by
  have hsize : ∀ f ∈ (Project.sourcesOf sharedUses).files.toList,
      f.content.length < 2 ^ 32 := by decide +kernel
  obtain ⟨r, hr, -, hfirst, hused, -⟩ := records_exact sharedUses "" hsize
  have hrecord : (Resolution.ofTree (Project.sourcesOf sharedUses) (Project.treeOf sharedUses)
      "").toOption.map (fun r => (r.firstUse? 7,
        r.imports.edges.find? fun edge => edge.file = 2 ∧ edge.used = true)) =
          some (some ⟨1, 15, 16⟩, some ⟨4, 2, false, some 3, "c", "c.gpex", true⟩) := by
    decide +kernel
  rw [hr] at hrecord
  obtain ⟨hitem, hedge⟩ := Prod.mk.inj (Option.some.inj hrecord)
  obtain ⟨hbound, hleast⟩ := (hfirst 7 ⟨1, 15, 16⟩).1 hitem
  have hmem := List.mem_of_find?_eq_some hedge
  exact ⟨hsize, r, hr, hbound, hleast, _, hmem, rfl, (hused _ hmem).1 rfl⟩

end Resolution

end StateBuffer
