import StateBuffer.Proofs.Resolution.Chains

/-!
What resolving names takes note of. An import is marked as used exactly when a reference is bound
through it, and a definition has a first use exactly when a reference is bound to it. Nothing else
of the imports changes.
-/

namespace StateBuffer

namespace ImportIndex

/-- The index with some more imports marked as used. -/
def marked (x : ImportIndex) (items : List ItemId) : ImportIndex :=
  { x with edges := x.edges.map fun e => { e with used := e.used || decide (e.item ∈ items) } }

section Marked

variable (x : ImportIndex) (items : List ItemId)

lemma marked_nil : x.marked [] = x := by
  simp [marked]

lemma markUsed_marked (item : ItemId) :
    (x.marked items).markUsed item = x.marked (items ++ [item]) := by
  simp only [marked, markUsed, List.map_map]
  congr 1
  refine List.map_congr_left fun e _ => ?_
  by_cases he : e.item = item
  · simp [he]
  · simp [he]

lemma edge?_marked (item : ItemId) : (x.marked items).edge? item =
    (x.edge? item).map fun e => { e with used := e.used || decide (e.item ∈ items) } := by
  rw [edge?, marked, List.find?_map]
  rfl

lemma edgesOf_marked (file : FileId) : (x.marked items).edgesOf file =
    (x.edgesOf file).map fun e => { e with used := e.used || decide (e.item ∈ items) } := by
  simp only [edgesOf, edge?_marked, List.map_filterMap]
  rfl

lemma leads_marked : (x.marked items).Leads = x.Leads := by
  funext file id isPublic target
  simp [Leads, edgesOf_marked]

end Marked

end ImportIndex

namespace Resolution

lemma firstUse?_isSome {r : Resolution} {item : ItemId} :
    (r.firstUse? item).isSome ↔ item ∈ r.firstUses.map Prod.fst := by
  simp [firstUse?, List.find?_isSome]

/-- The notes of `r` are those of its bindings, binding having begun with the imports `x`. -/
structure Noted (x : ImportIndex) (r : Resolution) : Prop where
  imports : r.imports = x.marked (r.bindings.filterMap fun b => b.2.via)
  firstUses : ∀ item, item ∈ r.firstUses.map Prod.fst ↔ ∃ b ∈ r.bindings, b.2.target.item = item

section Noted

variable {x : ImportIndex} {r : Resolution}

/-- **One reference** is noted when it is bound. -/
lemma Noted.bind (h : Noted x r) (file : FileId) (e : Expr) (name : Bytes) :
    Noted x (r.bind file e name) := by
  unfold Resolution.bind
  split
  · exact h
  · rename_i b _
    constructor
    case imports =>
      simp only [List.filterMap_append]
      cases hvia : b.via with
      | none => simpa [hvia] using h.imports
      | some via => simp [hvia, h.imports, ImportIndex.markUsed_marked]
    case firstUses =>
      intro item
      -- a second reference to the same definition changes nothing
      have hseen : (r.firstUses.any fun u => decide (u.1 = b.target.item)) =
          decide (b.target.item ∈ r.firstUses.map Prod.fst) := by
        rw [Bool.eq_iff_iff, List.any_eq_true, decide_eq_true_iff, List.mem_map]
        simp
      have hnew : (∃ c ∈ r.bindings ++ [(e.node, b)], c.2.target.item = item) ↔
          item ∈ r.firstUses.map Prod.fst ∨ b.target.item = item := by
        rw [h.firstUses]
        simp [or_and_right, exists_or]
      simp only [hseen, hnew]
      by_cases hmem : b.target.item ∈ r.firstUses.map Prod.fst
      · rw [if_pos (decide_eq_true hmem)]
        refine (or_iff_left_of_imp ?_).symm
        rintro rfl
        exact hmem
      · rw [if_neg (by simpa using hmem), List.map_append, List.mem_append]
        simp [eq_comm]

lemma Noted.bindItem (h : Noted x r) (file : FileId) (item : ItemId) :
    Noted x (Resolution.bindItem file r item) := by
  unfold Resolution.bindItem
  split
  · exact h
  · split
    · exact h
    · exact h.bind file _ _

lemma Noted.foldl (h : Noted x r) (places : List (FileId × ItemId)) :
    Noted x (places.foldl (fun r x => Resolution.bindItem x.1 r x.2) r) := by
  induction places generalizing r with
  | nil => exact h
  | cons y places ih => exact ih (h.bindItem y.1 y.2)

end Noted

section Resolved

variable {s : SourceSet} {t : Tree} {next : NodeId} {root : Bytes} {r : Resolution}
  (h : t.Numbered s.size next) (hr : Resolution.ofTree s t root = .ok r)

include h hr

lemma ofTree_noted : Noted ((ImportIndex.ofTree s t root).consolidate s) r ∧
    r.bindings = t.places.filterMap fun x => r.lookUp x.1 x.2 := by
  rw [Resolution.ofTree, index_eq h root] at hr
  obtain rfl := Except.ok.inj hr
  set r0 : Resolution := ⟨t, (ImportIndex.ofTree s t root).consolidate s, ⟨t.declared⟩, [], []⟩
  obtain ⟨hagree, hbindings⟩ := foldl_bindItem t.places r0
  rw [show r0.bindAll = t.places.foldl (fun r x => bindItem x.1 r x.2) r0 from bindAll_eq r0]
  have hstart : Noted r0.imports r0 := ⟨(ImportIndex.marked_nil _).symm, by simp [r0]⟩
  refine ⟨hstart.foldl t.places, ?_⟩
  rw [hbindings]
  exact List.filterMap_congr fun x _ => (hagree.lookUp x.1 x.2).symm

lemma mem_bindings_iff {b : Binding} (hres : Resolved s t root r) :
    (∃ n, (n, b) ∈ r.bindings) ↔ ∃ d e name, t.definition? d.item = some d ∧
      t.reference? d.definition = some (e, name) ∧ r.binding? e.node = some b := by
  rw [(ofTree_noted h hr).2]
  constructor
  · rintro ⟨n, hn⟩
    obtain ⟨x, -, hlook⟩ := List.mem_filterMap.1 hn
    obtain ⟨d, e, name, hd, he, rfl, -⟩ := lookUp_eq_some.1 hlook
    rw [hres.tree] at hd he
    obtain ⟨-, hd⟩ := definition?_item hd
    refine ⟨d, e, name, hd, he, ?_⟩
    rw [hres.binding hd he]
    exact (mem_lookUps_iff h hres.tree hd he).1 hn
  · rintro ⟨d, e, name, hd, he, hb⟩
    rw [hres.binding hd he] at hb
    exact ⟨e.node, (mem_lookUps_iff h hres.tree hd he).2 hb⟩

/-- **Used imports** are those through which a reference is bound. -/
theorem used_iff (hres : Resolved s t root r) {edge : ImportEdge} (he : edge ∈ r.imports.edges) :
    edge.used = true ↔ ∃ d e name b, t.definition? d.item = some d ∧
      t.reference? d.definition = some (e, name) ∧ r.binding? e.node = some b ∧
      b.via = some edge.item := by
  obtain ⟨hnoted, -⟩ := ofTree_noted h hr
  have hused : edge.used = true ↔ ∃ b, (∃ n, (n, b) ∈ r.bindings) ∧ b.via = some edge.item := by
    rw [hnoted.imports] at he
    obtain ⟨edge0, he0, rfl⟩ := List.mem_map.1 he
    have hfresh : edge0.used = false := by
      obtain ⟨y, -, hy⟩ := List.mem_filterMap.1 he0
      obtain ⟨i, -, target, tried, -, rfl⟩ := ImportIndex.edgeOf?_eq_some.1 hy
      rfl
    simp only [hfresh, Bool.false_or, decide_eq_true_eq, List.mem_filterMap, Prod.exists]
    exact exists_comm.trans (exists_congr fun b => exists_and_right)
  rw [hused]
  constructor
  · rintro ⟨b, hb, hvia⟩
    obtain ⟨d, e, name, hd, he, hb⟩ := (mem_bindings_iff h hr hres).1 hb
    exact ⟨d, e, name, b, hd, he, hb, hvia⟩
  · rintro ⟨d, e, name, b, hd, he, hb, hvia⟩
    exact ⟨b, (mem_bindings_iff h hr hres).2 ⟨d, e, name, hd, he, hb⟩, hvia⟩

/-- **Used definitions** are those that a reference is bound to. -/
theorem firstUse?_isSome_iff (hres : Resolved s t root r) {item : ItemId} :
    (r.firstUse? item).isSome ↔ ∃ a, Refers r a item := by
  obtain ⟨hnoted, -⟩ := ofTree_noted h hr
  have hbound : (r.firstUse? item).isSome ↔
      ∃ b, (∃ n, (n, b) ∈ r.bindings) ∧ b.target.item = item := by
    rw [firstUse?_isSome, hnoted.firstUses]
    simp only [Prod.exists]
    exact exists_comm.trans (exists_congr fun b => exists_and_right)
  rw [hbound]
  constructor
  · rintro ⟨b, hb, rfl⟩
    obtain ⟨d, e, name, hd, he, hb⟩ := (mem_bindings_iff h hr hres).1 hb
    exact ⟨d.item, e.span, b.target, follow?_eq_some.2
      ⟨d, e, name, b, hres.tree ▸ hd, hres.tree ▸ he, hb, rfl, rfl⟩, rfl⟩
  · rintro ⟨a, span, d', hf, rfl⟩
    obtain ⟨d, e, name, b, hd, he, hb, -, rfl⟩ := follow?_eq_some.1 hf
    rw [hres.tree] at hd he
    exact ⟨b, (mem_bindings_iff h hr hres).2 ⟨d, e, name, (definition?_item hd).2, he, hb⟩, rfl⟩

end Resolved

end Resolution

end StateBuffer
