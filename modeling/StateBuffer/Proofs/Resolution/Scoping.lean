import StateBuffer.Proofs.Resolution.Binding

/-!
The rules of scope. A name means the last earlier definition of its own file; failing that, it means
the last public definition in the file at the end of the least import path that offers one. Every
reference of a program is bound by these rules.
-/

namespace StateBuffer

namespace Tree

/-- A path of imports from `file` ends in another file, which has a public definition of `name`. -/
def Offers (t : Tree) (s : SourceSet) (root : Bytes) (file : FileId) (name : Bytes)
    (path : List ItemId) (target : FileId) : Prop :=
  ImportPath (t.Imports s root) file path target ∧ target ≠ file ∧
    ∃ d, t.Defines target name d ∧ d.definition.isPublic = true

/-- What `name` means in the value of the item `owner` of `file`. -/
inductive Means (t : Tree) (s : SourceSet) (root : Bytes) (file : FileId) (owner : ItemId)
    (name : Bytes) : Option Binding → Prop where
  /-- The last definition of the file that comes before the item. -/
  | own {d : Declared} (hd : t.Defines file name d) (hbefore : d.item < owner)
      (hlast : ∀ d', t.Defines file name d' → d'.item < owner → d'.item ≤ d.item) :
      Means t s root file owner name (some ⟨d, none⟩)
  /-- Through the first import of the least path that offers the name. -/
  | imported {d : Declared} {id : ItemId} {path : List ItemId}
      (hown : ∀ d', t.Defines file name d' → ¬ d'.item < owner)
      (hoffers : t.Offers s root file name (id :: path) d.file)
      (hleast : ∀ path' target, t.Offers s root file name path' target → AtMost (id :: path) path')
      (hd : t.Defines d.file name d) (hpublic : d.definition.isPublic = true)
      (hlast : ∀ d', t.Defines d.file name d' → d'.definition.isPublic = true →
        d'.item ≤ d.item) :
      Means t s root file owner name (some ⟨d, some id⟩)
  /-- Nothing. -/
  | unbound (hown : ∀ d', t.Defines file name d' → ¬ d'.item < owner)
      (hnone : ∀ path target, ¬ t.Offers s root file name path target) :
      Means t s root file owner name none

/-! ### A name means one thing -/

section Unique

variable {t : Tree} {s : SourceSet} {root : Bytes}

lemma Imports.unique {file : FileId} {id : ItemId} {b b' : Bool} {target target' : FileId}
    (h : t.Imports s root file id b target) (h' : t.Imports s root file id b' target') :
    target = target' := by
  obtain ⟨it, i, tried, hit, -, hbody, -, hres⟩ := h
  obtain ⟨it', i', tried', hit', -, hbody', -, hres'⟩ := h'
  obtain rfl := Option.some.inj (hit.symm.trans hit')
  obtain rfl := ItemBody.imports.inj (hbody.symm.trans hbody')
  exact Option.some.inj (Prod.mk.inj (Except.ok.inj (hres.symm.trans hres'))).1

lemma target_unique {file target : FileId} {path : List ItemId}
    (h : ImportPath (t.Imports s root) file path target) {target' : FileId}
    (h' : ImportPath (t.Imports s root) file path target') : target = target' := by
  induction h generalizing target' with
  | @first id b target hl =>
    generalize hp : [id] = path at h'
    cases h' with
    | first hl' =>
      obtain rfl := List.singleton_inj.1 hp
      exact hl.unique hl'
    | next hq _ => exact absurd (List.append_eq_singleton_iff.1 hp.symm) (by simp [hq.ne_nil])
  | @next path id middle target hq hl ih =>
    generalize hp : path ++ [id] = path' at h'
    cases h' with
    | first => exact absurd (List.append_eq_singleton_iff.1 hp) (by simp [hq.ne_nil])
    | next hq' hl' =>
      obtain ⟨rfl, he⟩ := List.append_inj' hp rfl
      obtain rfl := List.singleton_inj.1 he
      obtain rfl := ih hq'
      exact hl.unique hl'

lemma Defines.eq_of_item {file file' : FileId} {name : Bytes} {d d' : Declared}
    (h : t.Defines file name d) (h' : t.Defines file' name d') (he : d.item = d'.item) :
    d = d' :=
  Option.some.inj (h.1.symm.trans ((congrArg t.definition? he).trans h'.1))

lemma Means.unique {file : FileId} {owner : ItemId} {name : Bytes} {b b' : Option Binding}
    (h : t.Means s root file owner name b) (h' : t.Means s root file owner name b') : b = b' := by
  cases h with
  | own hd hlt hlast =>
    cases h' with
    | own hd' hlt' hlast' =>
      rw [hd.eq_of_item hd' (Nat.le_antisymm (hlast' _ hd hlt) (hlast _ hd' hlt'))]
    | imported hown => exact absurd hlt (hown _ hd)
    | unbound hown => exact absurd hlt (hown _ hd)
  | imported hown hoffers hleast hd hpub hlast =>
    cases h' with
    | own hd' hlt' => exact absurd hlt' (hown _ hd')
    | imported _ hoffers' hleast' hd' hpub' hlast' =>
      have hpath := (hleast _ _ hoffers').antisymm (hleast' _ _ hoffers)
      obtain ⟨rfl, rfl⟩ := List.cons.inj hpath
      have hfile := target_unique hoffers.1 hoffers'.1
      rw [hfile] at hd hlast
      rw [hd.eq_of_item hd' (Nat.le_antisymm (hlast' _ hd hpub) (hlast _ hd' hpub'))]
    | unbound _ hnone => exact absurd hoffers (hnone _ _)
  | unbound hown hnone =>
    cases h' with
    | own hd' hlt' => exact absurd hlt' (hown _ hd')
    | imported _ hoffers' => exact absurd hoffers' (hnone _ _)
    | unbound => rfl

end Unique

/-! ### What a query sees -/

section Sees

variable {t : Tree} {files : Nat} {next : NodeId} (h : t.Numbered files next) {owner : Declared}
  (ho : t.definition? owner.item = some owner) {q : Query} (hfile : q.file = owner.file)
  (hscope : q.scope = [owner.definition.node]) {d : Declared}
  (hd : t.definition? d.item = some d)

include h ho hd hfile hscope

lemma sees_own (hnode : q.node = owner.definition.node ∨ q.node = owner.definition.node + 1)
    (hf : d.file = owner.file) (v : Visibility) : q.sees v d = true ↔ d.item < owner.item := by
  rw [h.lt_iff_node_lt hd ho, Query.sees, h.scope_eq hd, hscope]
  by_cases he : d.definition.node = owner.definition.node
  · simp [he]
  · rw [if_neg (by simpa using he), if_pos (hf.trans hfile.symm), decide_eq_true_iff]
    rcases hnode with hn | hn
    · rw [hn]
    · rw [hn, Nat.lt_succ_iff, Nat.le_iff_lt_or_eq]
      exact or_iff_left he

lemma sees_other (hf : d.file ≠ owner.file) :
    q.sees .publicOnly d = true ↔ d.definition.isPublic = true := by
  have hne : d.definition.node ≠ owner.definition.node :=
    fun he => hf (by rw [h.node_inj hd ho he])
  rw [Query.sees, h.scope_eq hd, hscope, if_neg (by simpa using hne),
    if_neg (fun he => hf (he.trans hfile))]
  simp

end Sees

end Tree

/-! ### What a search finds -/

namespace Resolution

open ImportIndex StateBuffer.Tree

variable {s : SourceSet} {t : Tree} {next : NodeId} {root : Bytes}

lemma importPath_leads_iff (h : t.Numbered s.size next) {start file : FileId}
    {path : List ItemId} :
    ImportPath (ImportIndex.ofTree s t root).Leads start path file ↔
      ImportPath (t.Imports s root) start path file := by
  constructor
  · intro hp
    induction hp with
    | first hl => exact .first ((leads_iff h).1 hl)
    | next _ hl ih => exact .next ih ((leads_iff h).1 hl)
  · intro hp
    induction hp with
    | first hl => exact .first ((leads_iff h).2 hl)
    | next _ hl ih => exact .next ih ((leads_iff h).2 hl)

/-- The best match of a query among the definitions of a file. -/
def matchIn (t : Tree) (q : Query) (file : FileId) : Option Declared :=
  ((⟨t.declared⟩ : DefinitionIndex).lookup file q.name).reverse.find? (q.sees .publicOnly)

lemma search_eq (t : Tree) (q : Query) (all : List Entry) :
    (⟨t.declared⟩ : DefinitionIndex).search (all.map Prod.fst) q .publicOnly =
      all.findSome? fun a => (matchIn t q a.1.file).map fun d => ⟨d, a.1.via⟩ := by
  rw [DefinitionIndex.search, List.findSome?_map]
  rfl

section Search

variable (h : t.Numbered s.size next) {owner : Declared}
  (ho : t.definition? owner.item = some owner) {q : Query} (hfile : q.file = owner.file)
  (hscope : q.scope = [owner.definition.node])

include h ho hfile hscope

lemma matchIn_ne_none {file : FileId} (hne : file ≠ owner.file) {d : Declared}
    (hd : t.Defines file q.name d) (hpublic : d.definition.isPublic = true) :
    matchIn t q file ≠ none := by
  intro hnone
  have hsees := (sees_other h ho hfile hscope hd.1 (hd.2.1 ▸ hne)).2 hpublic
  rw [h.lookup_find_none.1 hnone d hd] at hsees
  simp at hsees

/-- Without a match in its own file no definition comes before the one of the query. -/
lemma not_before_of_matchIn (hnode : q.node = owner.definition.node ∨
    q.node = owner.definition.node + 1) (hnone : matchIn t q owner.file = none) {d : Declared}
    (hd : t.Defines owner.file q.name d) : ¬ d.item < owner.item := by
  intro hlt
  have hsees := (sees_own h ho hfile hscope hd.1 hnode hd.2.1 .publicOnly).2 hlt
  rw [h.lookup_find_none.1 hnone d hd] at hsees
  simp at hsees

/-- **Search**: what a query from inside a definition finds is what its name means there. -/
theorem search_means (root : Bytes)
    (hnode : q.node = owner.definition.node ∨ q.node = owner.definition.node + 1) :
    t.Means s root owner.file owner.item q.name
      ((⟨t.declared⟩ : DefinitionIndex).search
        ((ImportIndex.ofTree s t root).visibleFrom owner.file) q .publicOnly) := by
  obtain ⟨all, hall, hqueue, hpre⟩ := queue_visibleFrom (fun file => ascending_edgesOf h file)
    (x := ImportIndex.ofTree s t root) owner.file
  have hstart : ((⟨owner.file, none⟩ : Reach), []) ∈ all := hpre.subset List.mem_cons_self
  have hsees : ∀ d, t.Defines owner.file q.name d →
      (q.sees .publicOnly d = true ↔ d.item < owner.item) :=
    fun d hd => sees_own h ho hfile hscope hd.1 hnode hd.2.1 _
  have hother : ∀ {file} d, file ≠ owner.file → t.Defines file q.name d →
      (q.sees .publicOnly d = true ↔ d.definition.isPublic = true) :=
    fun d hf hd => sees_other h ho hfile hscope hd.1 (hd.2.1 ▸ hf)
  have hown : matchIn t q owner.file = none →
      ∀ d, t.Defines owner.file q.name d → ¬ d.item < owner.item :=
    fun hnone d hd => not_before_of_matchIn h ho hfile hscope hnode hnone hd
  have hoffers : ∀ {path target}, t.Offers s root owner.file q.name path target →
      ∃ a ∈ all, AtMost a.2 path ∧ matchIn t q a.1.file ≠ none := by
    rintro path target ⟨hp, hne, d, hd, hpublic⟩
    obtain ⟨a, ha, rfl, hle⟩ := hqueue.least hstart ((importPath_leads_iff h).2 hp)
    exact ⟨a, ha, hle, matchIn_ne_none h ho hfile hscope hne hd hpublic⟩
  rw [hall, search_eq]
  cases hres : all.findSome? fun a =>
      (matchIn t q a.1.file).map fun d => (⟨d, a.1.via⟩ : Binding) with
  | none =>
    have hno : ∀ a ∈ all, matchIn t q a.1.file = none := by
      simpa using List.findSome?_eq_none_iff.1 hres
    refine .unbound (hown (hno _ hstart)) fun path target hoff => ?_
    obtain ⟨a, ha, -, hmatch⟩ := hoffers hoff
    exact hmatch (hno a ha)
  | some b =>
    obtain ⟨l, a, l', hsplit, hfa, hbefore⟩ := List.findSome?_eq_some_iff.1 hres
    obtain ⟨d, hmatch, rfl⟩ := Option.map_eq_some_iff.1 hfa
    have hno : ∀ a ∈ l, matchIn t q a.1.file = none := by simpa using hbefore
    have ha : a ∈ all := by rw [hsplit]; simp
    obtain ⟨hdef, hdsees, hlast⟩ := h.lookup_find_iff.1 hmatch
    obtain ⟨hvia, ⟨hnil, hf⟩ | hp⟩ := hqueue.sound a (by simpa using ha)
    · rw [hvia, hnil]
      rw [hf] at hdef hlast
      exact .own hdef ((hsees d hdef).1 hdsees)
        fun d' hd' hlt => hlast d' hd' ((hsees d' hd').2 hlt)
    · have hne := hqueue.file_ne hstart ha hp.ne_nil
      obtain ⟨id, path, hpath⟩ := List.exists_cons_of_ne_nil hp.ne_nil
      rw [hpath] at hp
      have hfd := hdef.2.1
      rw [← hfd] at hp hne hdef hlast
      have hpublic := (hother d hne hdef).1 hdsees
      rw [hvia, hpath]
      refine .imported (hown ?_) ⟨(importPath_leads_iff h).1 hp, hne, d, hdef, hpublic⟩
        (fun path' target hoff => ?_) hdef hpublic
        fun d' hd' hpub' => hlast d' hd' ((hother d' hne hd').2 hpub')
      · rw [hsplit] at hqueue hstart
        exact hno _ (hqueue.start_mem hstart (by rw [hpath]; simp))
      · obtain ⟨a', ha', hle, hmatch'⟩ := hoffers hoff
        refine AtMost.trans ?_ hle
        rw [← hpath]
        have hsorted := hqueue.sorted
        rw [List.append_nil, hsplit] at hsorted
        rw [hsplit] at ha'
        rcases List.mem_append.1 ha' with ha' | ha'
        · exact absurd (hno a' ha') hmatch'
        · rcases List.mem_cons.1 ha' with rfl | ha'
          · exact .inl rfl
          · exact .inr ((List.pairwise_cons.1 (List.pairwise_append.1 hsorted).2.1).1 a' ha')

end Search

lemma Resolved.means (h : t.Numbered s.size next) {r : Resolution} (hr : Resolved s t root r)
    {d : Declared} {e : Expr} {name : Bytes} (hd : t.definition? d.item = some d)
    (he : t.reference? d.definition = some (e, name)) :
    t.Means s root d.file d.item name (r.binding? e.node) := by
  obtain ⟨e', he', hinit⟩ := h.value hd
  obtain rfl : e = e' := Option.some.inj ((reference?_eq_some.1 he).1.symm.trans he')
  rw [hr.binding hd he, hr.definitions, hr.visible d.file (h.file_mem_ids hd)]
  exact search_means (q := queryOf d.file e name) h hd rfl hinit.scope root (.inr hinit.node)

/-- **Names are resolved by the rules of scope.** The names of all files of a set, whatever their
texts and dot paths, can be resolved, and every reference of every file is bound to the one thing
that its name means there: the last earlier definition of its own file, or else the last public
definition at the end of the least import path that offers one, through the first import of that
path. -/
theorem binding?_means (texts : List SourceText) (root : Bytes) :
    ∃ r, Resolution.ofTree (Project.sourcesOf texts) (Project.treeOf texts) root = .ok r ∧
      ∀ d e name, (Project.treeOf texts).definition? d.item = some d →
        (Project.treeOf texts).reference? d.definition = some (e, name) →
        ∀ b, (Project.treeOf texts).Means (Project.sourcesOf texts) root d.file d.item name b ↔
          b = r.binding? e.node := by
  obtain ⟨next, h⟩ := Project.numbered_treeOf texts
  obtain ⟨r, hr, hres⟩ := ofTree_resolved h root
  refine ⟨r, hr, fun d e name hd he b => ?_⟩
  have hmeans := hres.means h hd he
  constructor
  · exact fun hb => hb.unique hmeans
  · rintro rfl
    exact hmeans

/-- A file with two imports that offer the same name. -/
def twoOffers : List SourceText :=
  [⟨"m.gpex", "m", "import p;import q;var v=w;", false⟩, ⟨"p.gpex", "p", "pub var w=1;", false⟩,
    ⟨"q.gpex", "q", "pub var w=2;", false⟩]

/-- Of two imports that offer a name the later one is taken. -/
theorem binding?_means_twoOffers :
    ∃ (d : Declared) (e : Expr) (r : Resolution),
      (Project.treeOf twoOffers).definition? d.item = some d ∧
      (Project.treeOf twoOffers).reference? d.definition = some (e, ("w" : Bytes)) ∧
      Resolution.ofTree (Project.sourcesOf twoOffers) (Project.treeOf twoOffers) "" = .ok r ∧
      (Project.treeOf twoOffers).Means (Project.sourcesOf twoOffers) "" d.file d.item "w"
        (r.binding? e.node) := by
  obtain ⟨r, hr, h⟩ := binding?_means twoOffers ""
  have hd : (Project.treeOf twoOffers).definition? 3 =
      some ⟨3, 1, ⟨.var, 2, [2], false, Span.none, ⟨1, 18, 21⟩, "v", ⟨1, 22, 23⟩, 1⟩⟩ := by
    decide +kernel
  have he : (Project.treeOf twoOffers).reference?
      ⟨.var, 2, [2], false, Span.none, ⟨1, 18, 21⟩, "v", ⟨1, 22, 23⟩, 1⟩ =
        some ((⟨3, ⟨1, 24, 25⟩, [2], .name "w"⟩ : Expr), ("w" : Bytes)) := by
    decide +kernel
  exact ⟨⟨3, 1, _⟩, _, r, hd, he, hr, (h ⟨3, 1, _⟩ _ _ hd he _).2 rfl⟩

end Resolution

end StateBuffer
