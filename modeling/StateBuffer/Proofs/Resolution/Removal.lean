import StateBuffer.Proofs.Resolution.Usage

/-!
Deleting imports. A search gives the match at the end of the least way from its file on which there
is one. Deleting a private import takes away exactly the ways that begin with it, so no other way
gets ahead of the least one unless that one is taken away; and the import it begins with is used.
-/

namespace StateBuffer

lemma Before.ne {p q : List ItemId} (h : Before p q) : p ≠ q := by
  rintro rfl
  have : Std.Asymm fun a b : ItemId => b < a := ⟨fun _ _ h h' => Nat.lt_asymm h h'⟩
  exact List.Shortlex.asymm.asymm p p h h

namespace ImportIndex

/-- A way from a file: no step at all, which ends where it starts, or a path of imports. -/
def Way (x : ImportIndex) (start : FileId) (path : List ItemId) (file : FileId) : Prop :=
  path = [] ∧ file = start ∨ ImportPath x.Leads start path file

/-! ### The first match in a queue -/

section First

variable {x : ImportIndex} {start : FileId} {all : List Entry} {f : FileId → Option Declared}

/-- Every way ends in a file that is there, at a path no later than it. -/
lemma Queue.least_way (h : Queue x start all []) (hstart : ((⟨start, none⟩ : Reach), []) ∈ all)
    {path : List ItemId} {file : FileId} (hp : x.Way start path file) :
    ∃ a ∈ all, a.1.file = file ∧ AtMost a.2 path := by
  rcases hp with ⟨rfl, rfl⟩ | hp
  · exact ⟨_, hstart, rfl, .inl rfl⟩
  · exact h.least hstart hp

/-- **The first match** in a queue is the one at the end of the least way to a match. -/
lemma Queue.first_match (h : Queue x start all []) (hstart : ((⟨start, none⟩ : Reach), []) ∈ all)
    {b : Binding}
    (hb : all.findSome? (fun a => (f a.1.file).map fun d => (⟨d, a.1.via⟩ : Binding)) = some b) :
    ∃ path file, x.Way start path file ∧ f file = some b.target ∧ b.via = path.head? ∧
      ∀ path' file', x.Way start path' file' → (f file').isSome → AtMost path path' := by
  obtain ⟨l, a, l', rfl, hfa, hbefore⟩ := List.findSome?_eq_some_iff.1 hb
  obtain ⟨d, hd, rfl⟩ := Option.map_eq_some_iff.1 hfa
  obtain ⟨hvia, hway⟩ := h.sound a (by simp)
  refine ⟨a.2, a.1.file, hway, hd, hvia, fun path' file' hway' hmatch => ?_⟩
  obtain ⟨a', ha', rfl, hle⟩ := h.least_way hstart hway'
  refine AtMost.trans ?_ hle
  rcases List.mem_append.1 ha' with ha' | ha'
  · have hnone : f a'.1.file = none := by simpa using hbefore a' ha'
    simp [hnone] at hmatch
  · rcases List.mem_cons.1 ha' with rfl | ha'
    · exact .inl rfl
    · have hsorted := h.sorted
      rw [List.append_nil] at hsorted
      exact .inr ((List.pairwise_cons.1 (List.pairwise_append.1 hsorted).2.1).1 a' ha')

lemma Queue.findSome?_of_least (h : Queue x start all [])
    (hstart : ((⟨start, none⟩ : Reach), []) ∈ all) {path : List ItemId} {file : FileId}
    {d : Declared} (hway : x.Way start path file) (hd : f file = some d)
    (hleast : ∀ path' file', x.Way start path' file' → (f file').isSome → AtMost path path') :
    all.findSome? (fun a => (f a.1.file).map fun d => (⟨d, a.1.via⟩ : Binding)) =
      some ⟨d, path.head?⟩ := by
  -- the entry of the file has this path, for its own is a way to a match as well
  obtain ⟨a, ha, rfl, hle⟩ := h.least_way hstart hway
  obtain ⟨hvia, hwaya⟩ := h.sound a (by simpa using ha)
  obtain rfl : a.2 = path := hle.antisymm (hleast _ _ hwaya (by simp [hd]))
  obtain ⟨l, l', rfl⟩ := List.append_of_mem ha
  have hsorted := h.sorted
  rw [List.append_nil] at hsorted
  refine List.findSome?_eq_some_iff.2 ⟨l, a, l', rfl, by rw [hd, Option.map_some, hvia], ?_⟩
  intro a' ha'
  have hbefore := (List.pairwise_append.1 hsorted).2.2 a' ha' a List.mem_cons_self
  obtain ⟨-, hway'⟩ := h.sound a' (by simp [ha'])
  rw [Option.map_eq_none_iff, ← Option.not_isSome_iff_eq_none]
  intro hmatch
  have hsame := (hleast _ _ hway' hmatch).antisymm (.inr hbefore)
  exact hbefore.ne hsame.symm

end First

/-! ### Taking an import away -/

/-- The index without one import, before it is known what files can see. -/
def without (x : ImportIndex) (item : ItemId) : ImportIndex :=
  { x with direct := x.direct.filter fun d => d.2 ≠ item, reach := none }

lemma edgesOf_without (x : ImportIndex) (item : ItemId) (file : FileId) :
    (x.without item).edgesOf file = (x.edgesOf file).filter fun e => e.item ≠ item := by
  have hitem : ∀ d : FileId × ItemId, ((x.edge? d.2).filter fun e => e.item ≠ item) =
      if d.2 ≠ item then x.edge? d.2 else none := by
    intro d
    cases he : x.edge? d.2 with
    | none => simp
    | some e =>
      have hid : e.item = d.2 := by simpa using List.find?_some he
      rw [Option.filter_some, hid]
      simp
  rw [edgesOf, edgesOf, List.filter_filterMap]
  simp only [hitem]
  rw [show (x.without item).direct = x.direct.filter fun d => d.2 ≠ item from rfl,
    show (x.without item).edge? = x.edge? from rfl, List.filter_comm, List.filterMap_filter]
  simp

lemma leads_without (x : ImportIndex) (item : ItemId) {file : FileId} {id : ItemId}
    {isPublic : Bool} {target : FileId} :
    (x.without item).Leads file id isPublic target ↔
      x.Leads file id isPublic target ∧ id ≠ item := by
  simp only [Leads, edgesOf_without, List.mem_filter, decide_eq_true_eq]
  constructor
  · rintro ⟨e, ⟨he, hne⟩, rfl, h⟩
    exact ⟨⟨e, he, rfl, h⟩, hne⟩
  · rintro ⟨⟨e, he, rfl, h⟩, hne⟩
    exact ⟨e, ⟨he, hne⟩, rfl, h⟩

section Without

variable {x x' : ImportIndex} {item : ItemId}
  (hleads : ∀ {file id isPublic target}, x'.Leads file id isPublic target ↔
    x.Leads file id isPublic target ∧ id ≠ item)
  (hprivate : ∀ {file isPublic target}, x.Leads file item isPublic target → isPublic = false)

include hleads hprivate

/-- Ways that begin with a private import are gone, and no others: later steps are public. -/
lemma way_without_iff {start : FileId} {path : List ItemId} {file : FileId} :
    x'.Way start path file ↔ x.Way start path file ∧ path.head? ≠ some item := by
  have hpath : ∀ {path file}, ImportPath x'.Leads start path file ↔
      ImportPath x.Leads start path file ∧ path.head? ≠ some item := by
    intro path file
    constructor
    · intro hp
      induction hp with
      | first hl =>
        obtain ⟨hl, hne⟩ := hleads.1 hl
        exact ⟨.first hl, by simpa using hne⟩
      | next hp hl ih =>
        refine ⟨.next ih.1 (hleads.1 hl).1, ?_⟩
        rw [List.head?_append_of_ne_nil _ hp.ne_nil]
        exact ih.2
    · rintro ⟨hp, hhead⟩
      induction hp with
      | first hl => exact .first (hleads.2 ⟨hl, by simpa using hhead⟩)
      | next hp hl ih =>
        rw [List.head?_append_of_ne_nil _ hp.ne_nil] at hhead
        refine .next (ih hhead) (hleads.2 ⟨hl, ?_⟩)
        rintro rfl
        exact Bool.noConfusion (hprivate hl)
  unfold Way
  rw [hpath, or_and_right]
  refine or_congr_left (iff_self_and.2 ?_)
  rintro ⟨rfl, -⟩
  simp

/-- **Searching without an import** that is private gives the same unless something comes through
it. -/
lemma search_without (hasc : ∀ file, (x.edgesOf file).Pairwise fun e e' => e.item < e'.item)
    (hasc' : ∀ file, (x'.edgesOf file).Pairwise fun e e' => e.item < e'.item)
    (defs : DefinitionIndex) (start : FileId) (q : Query) (v : Visibility)
    (hvia : ∀ b, defs.search (x.visibleFrom start) q v = some b → b.via ≠ some item) :
    defs.search (x'.visibleFrom start) q v = defs.search (x.visibleFrom start) q v := by
  obtain ⟨all, hall, hqueue, hpre⟩ := queue_visibleFrom hasc start
  obtain ⟨all', hall', hqueue', hpre'⟩ := queue_visibleFrom hasc' start
  have hstart : ((⟨start, none⟩ : Reach), []) ∈ all := hpre.subset List.mem_cons_self
  have hstart' : ((⟨start, none⟩ : Reach), []) ∈ all' := hpre'.subset List.mem_cons_self
  let f : FileId → Option Declared := fun file =>
    (defs.lookup file q.name).reverse.find? (q.sees v)
  have hsearch : ∀ all : List Entry, defs.search (all.map Prod.fst) q v =
      all.findSome? fun a => (f a.1.file).map fun d => (⟨d, a.1.via⟩ : Binding) :=
    fun all => by rw [DefinitionIndex.search, List.findSome?_map]; rfl
  rw [hall, hsearch] at hvia ⊢
  rw [hall', hsearch]
  cases hres : all.findSome? fun a => (f a.1.file).map fun d => (⟨d, a.1.via⟩ : Binding) with
  | some b =>
    obtain ⟨path, file, hway, hd, hhead, hleast⟩ := hqueue.first_match hstart hres
    have hway' : x'.Way start path file :=
      (way_without_iff hleads hprivate).2 ⟨hway, hhead ▸ hvia b hres⟩
    rw [hqueue'.findSome?_of_least hstart' hway' hd fun path' file' hp hm =>
      hleast path' file' ((way_without_iff hleads hprivate).1 hp).1 hm, ← hhead]
  | none =>
    cases hres' : all'.findSome? fun a => (f a.1.file).map fun d => (⟨d, a.1.via⟩ : Binding) with
    | none => rfl
    | some b =>
      obtain ⟨path, file, hway, hd, -⟩ := hqueue'.first_match hstart' hres'
      obtain ⟨a, ha, rfl, -⟩ :=
        hqueue.least_way hstart ((way_without_iff hleads hprivate).1 hway).1
      have hnone := List.findSome?_eq_none_iff.1 hres a ha
      simp [hd] at hnone

end Without

end ImportIndex

namespace Resolution

open ImportIndex

lemma isPublic_of_leads {s : SourceSet} {t : Tree} {next : NodeId} {root : Bytes} {r : Resolution}
    (h : t.Numbered s.size next) (hres : Resolved s t root r) {edge : ImportEdge}
    (he : edge ∈ r.imports.edges) {file target : FileId} {isPublic : Bool}
    (hl : (ImportIndex.ofTree s t root).Leads file edge.item isPublic target) :
    isPublic = edge.isPublic := by
  obtain ⟨e, hmem, hitem, rfl, -⟩ := hl
  rw [edgesOf_ofTree h] at hmem
  have hmem := List.mem_of_mem_filter hmem
  have hedge : edge.unmarked ∈ (ImportIndex.ofTree s t root).edges := by
    rw [← hres.edges]
    exact List.mem_map_of_mem he
  have hfind := find?_key (pairwise_edges h root) hmem
  rw [hitem] at hfind
  obtain rfl := Option.some.inj (hfind.symm.trans
    (find?_key (a := edge.unmarked) (pairwise_edges h root) hedge))
  rfl

/-- **Unused imports can be deleted.** The names of all files of a set, whatever their texts and dot
paths, can be resolved. Take any private import through which nothing came, and work out once more
what every file can see, with that import left out of the imports of its file: then every reference
of every file finds what it is bound to now, the same definition through the same import, or nothing
as before. -/
theorem search_without_unused (texts : List SourceText) (root : Bytes) :
    ∃ r, Resolution.ofTree (Project.sourcesOf texts) (Project.treeOf texts) root = .ok r ∧
      ∀ edge ∈ r.imports.edges, edge.isPublic = false → edge.used = false →
        ∀ d e name, (Project.treeOf texts).definition? d.item = some d →
          (Project.treeOf texts).reference? d.definition = some (e, name) →
          r.binding? e.node = r.definitions.search (r.imports.visible d.file)
              (queryOf d.file e name) .publicOnly ∧
            r.definitions.search
                (((r.imports.without edge.item).consolidate (Project.sourcesOf texts)).visible
                  d.file) (queryOf d.file e name) .publicOnly =
              r.definitions.search (r.imports.visible d.file) (queryOf d.file e name)
                .publicOnly := by
  obtain ⟨next, h⟩ := Project.numbered_treeOf texts
  obtain ⟨r, hr, hres⟩ := ofTree_resolved h root
  refine ⟨r, hr, fun edge hedge hpub hunused d e name hd he => ⟨hres.binding hd he, ?_⟩⟩
  obtain ⟨hnoted, -⟩ := ofTree_noted h hr
  have hfile := h.file_mem_ids hd
  have hasc : ∀ file, ((ImportIndex.ofTree (Project.sourcesOf texts) (Project.treeOf texts)
      root).edgesOf file).Pairwise fun e e' => e.item < e'.item := ascending_edgesOf h
  have hedges : ∀ file, r.imports.edgesOf file = _ :=
    fun file => hnoted.imports ▸ edgesOf_marked _ _ file
  rw [visible_consolidate (x := r.imports.without edge.item) rfl hfile, hres.visible _ hfile]
  have hleads : ∀ {file id isPublic target},
      (r.imports.without edge.item).Leads file id isPublic target ↔
        (ImportIndex.ofTree (Project.sourcesOf texts) (Project.treeOf texts) root).Leads
          file id isPublic target ∧ id ≠ edge.item := by
    intro file id isPublic target
    rw [leads_without, hnoted.imports, leads_marked]
    rfl
  refine search_without hleads ?_ hasc ?_ _ _ _ _ ?_
  · intro file isPublic target hl
    rw [isPublic_of_leads h hres hedge hl, hpub]
  · intro file
    rw [edgesOf_without, hedges]
    refine List.Pairwise.filter _ (List.pairwise_map.2 ?_)
    exact hasc file
  · intro b hb hvia
    have hused := (used_iff h hr hres hedge).2 ⟨d, e, name, b, hd, he, by
      rw [hres.binding hd he, hres.visible _ hfile]
      exact hb, hvia⟩
    simp [hunused] at hused

/-- A file that imports another one twice, the second time by way of a third. -/
def detour : List SourceText :=
  [⟨"m.gpex", "m", "import p;import q;var v=w;", false⟩, ⟨"p.gpex", "p", "pub var w=1;", false⟩,
    ⟨"q.gpex", "q", "pub import p;", false⟩]

/-- The detour is not used, and without it the name is found through the other import as before. -/
theorem search_without_unused_detour :
    ∃ (r : Resolution) (d : Declared) (e : Expr) (b : Binding),
      Resolution.ofTree (Project.sourcesOf detour) (Project.treeOf detour) "" = .ok r ∧
      (∃ edge ∈ r.imports.edges, edge.item = 2 ∧ edge.isPublic = false ∧ edge.used = false) ∧
      (Project.treeOf detour).definition? d.item = some d ∧
      (Project.treeOf detour).reference? d.definition = some (e, ("w" : Bytes)) ∧
      r.binding? e.node = some b ∧ b.via = some 1 ∧
      r.definitions.search
        (((r.imports.without 2).consolidate (Project.sourcesOf detour)).visible d.file)
        (queryOf d.file e "w") .publicOnly = some b := by
  obtain ⟨r, hr, h⟩ := search_without_unused detour ""
  have hedge : (Resolution.ofTree (Project.sourcesOf detour) (Project.treeOf detour)
      "").toOption.map (fun r => r.imports.edges.any fun edge =>
        edge.item = 2 ∧ edge.isPublic = false ∧ edge.used = false) = some true := by
    decide +kernel
  have hvia : (Resolution.ofTree (Project.sourcesOf detour) (Project.treeOf detour)
      "").toOption.map (fun r => (r.binding? 3).map Binding.via) = some (some (some 1)) := by
    decide +kernel
  have hd : (Project.treeOf detour).definition? 3 =
      some ⟨3, 1, ⟨.var, 2, [2], false, Span.none, ⟨1, 18, 21⟩, "v", ⟨1, 22, 23⟩, 1⟩⟩ := by
    decide +kernel
  have he : (Project.treeOf detour).reference?
      ⟨.var, 2, [2], false, Span.none, ⟨1, 18, 21⟩, "v", ⟨1, 22, 23⟩, 1⟩ =
        some ((⟨3, ⟨1, 24, 25⟩, [2], .name "w"⟩ : Expr), ("w" : Bytes)) := by
    decide +kernel
  simp only [hr, Except.toOption, Option.map_some, Option.some.injEq, List.any_eq_true,
    decide_eq_true_eq] at hedge hvia
  obtain ⟨edge, hmem, hitem, hpub, hunused⟩ := hedge
  obtain ⟨b, hb, hvia⟩ := Option.map_eq_some_iff.1 hvia
  obtain ⟨hnow, hsame⟩ := h edge hmem hpub hunused ⟨3, 1, _⟩ _ _ hd he
  refine ⟨r, ⟨3, 1, _⟩, _, b, hr, ⟨edge, hmem, hitem, hpub, hunused⟩, hd, he, hb, hvia, ?_⟩
  rw [hitem] at hsame
  rw [hsame, ← hnow]
  exact hb

end Resolution

end StateBuffer
