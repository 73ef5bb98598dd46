import StateBuffer.Proofs.Resolution.Paths

/-!
The two indexes of a numbered tree. The edges of a file are its imports in source order, so paths
along edges are import paths of the tree, and the best match of a query in a file is the last
definition that it sees.
-/

namespace StateBuffer

/-! ### Lists in ascending order -/

section Ascending

variable {α : Type} {key : α → Nat} {l : List α} {p : α → Bool}

lemma find?_reverse_eq_some (h : l.Pairwise fun a b => key a < key b) {a : α} :
    l.reverse.find? p = some a ↔ a ∈ l ∧ p a = true ∧ ∀ b ∈ l, p b = true → key b ≤ key a := by
  rw [← List.pairwise_reverse] at h
  rw [List.find?_eq_some_iff_append]
  constructor
  · rintro ⟨hp, before, after, hl, hbefore⟩
    have hmem : ∀ b, b ∈ l ↔ b ∈ before ++ a :: after := fun b => by rw [← hl, List.mem_reverse]
    refine ⟨(hmem a).2 (by simp), hp, fun b hb hpb => ?_⟩
    rcases List.mem_append.1 ((hmem b).1 hb) with hb | hb
    · exact absurd hpb (by simpa using hbefore b hb)
    · rcases List.mem_cons.1 hb with rfl | hb
      · exact Nat.le_refl _
      · rw [hl, List.pairwise_append] at h
        exact Nat.le_of_lt ((List.pairwise_cons.1 h.2.1).1 b hb)
  · rintro ⟨ha, hp, hlast⟩
    obtain ⟨before, after, hl⟩ := List.append_of_mem (List.mem_reverse.2 ha)
    refine ⟨hp, before, after, hl, fun b hb => ?_⟩
    rw [hl, List.pairwise_append] at h
    have hlt : key a < key b := h.2.2 b hb a List.mem_cons_self
    by_contra hpb
    have hle := hlast b (List.mem_reverse.1 (hl ▸ List.mem_append_left _ hb)) (by simpa using hpb)
    exact absurd hlt (Nat.not_lt.2 hle)

lemma find?_key (h : l.Pairwise fun a b => key a < key b) {a : α} (ha : a ∈ l) :
    l.find? (fun b => key b = key a) = some a := by
  rw [List.find?_eq_some_iff_append]
  obtain ⟨before, after, rfl⟩ := List.append_of_mem ha
  refine ⟨by simp, before, after, rfl, fun b hb => ?_⟩
  have hlt := (List.pairwise_append.1 h).2.2 b hb a List.mem_cons_self
  simpa using Nat.ne_of_lt hlt

end Ascending

/-! ### The edges of a tree -/

namespace ImportIndex

variable {s : SourceSet} {t : Tree} {root : Bytes} {next : NodeId}

lemma pairwise_edges (h : t.Numbered s.size next) (root : Bytes) :
    (ofTree s t root).edges.Pairwise fun e e' => e.item < e'.item := by
  refine h.pairwise_places.filterMap _ fun x y hxy e he e' he' => ?_
  rw [(edgeOf?_item he).1, (edgeOf?_item he').1]
  exact hxy

lemma edgesOf_ofTree (h : t.Numbered s.size next) (file : FileId) :
    (ofTree s t root).edgesOf file = (ofTree s t root).edges.filter fun e => e.file = file := by
  have hedge : ∀ e ∈ (ofTree s t root).edges, (ofTree s t root).edge? e.item = some e :=
    fun e he => find?_key (pairwise_edges h root) he
  rw [edgesOf, show (ofTree s t root).direct =
    (ofTree s t root).edges.map fun e => (e.file, e.item) from rfl, List.filter_map,
    List.filterMap_map]
  calc _ = ((ofTree s t root).edges.filter fun e => e.file = file).filterMap some :=
        List.filterMap_congr fun e he => hedge e (List.mem_of_mem_filter he)
    _ = _ := List.filterMap_some

lemma ascending_edgesOf (h : t.Numbered s.size next) (file : FileId) :
    ((ofTree s t root).edgesOf file).Pairwise fun e e' => e.item < e'.item := by
  rw [edgesOf_ofTree h]
  exact (pairwise_edges h root).filter _

lemma edgeOf?_eq_some {file : FileId} {item : ItemId} {e : ImportEdge} :
    edgeOf? s t root file item = some e ↔ ∃ i, t.importOf? item = some i ∧
      ∃ target tried, resolve s root file i = .ok (target, tried) ∧
        e = ⟨item, file, i.isPublic, target, i.dotPath, tried, false⟩ := by
  unfold edgeOf?
  cases hi : t.importOf? item with
  | none => simp
  | some i =>
    rcases hr : resolve s root file i with e | ⟨target, tried⟩
    · simp [hr]
    · simp [hr, eq_comm]

/-- **Edges are imports**: the edges of a file lead where its found imports do. -/
lemma leads_iff (h : t.Numbered s.size next) {file : FileId} {id : ItemId} {isPublic : Bool}
    {target : FileId} :
    (ofTree s t root).Leads file id isPublic target ↔ t.Imports s root file id isPublic target := by
  simp only [Leads, edgesOf_ofTree h, List.mem_filter, decide_eq_true_eq]
  constructor
  · rintro ⟨e, ⟨he, rfl⟩, rfl, rfl, ht⟩
    obtain ⟨⟨file, item⟩, hplace, hedge⟩ := List.mem_filterMap.1 he
    obtain ⟨i, hi, target', tried, hres, rfl⟩ := edgeOf?_eq_some.1 hedge
    obtain ⟨file', span, hitem⟩ := Resolution.item?_of_importOf? hi
    obtain ⟨-, it, hit, hfile⟩ := h.place_file hplace
    rw [hitem] at hit
    obtain rfl := Option.some.inj hit
    rw [show target' = some target from ht] at hres
    exact ⟨_, i, tried, hitem, hfile, rfl, rfl, hres⟩
  · rintro ⟨⟨file', span, body⟩, i, tried, hitem, rfl, rfl, rfl, hres⟩
    have himp : t.importOf? id = some i := by simp [Tree.importOf?, hitem]
    have hplace := h.mem_places_iff.2 ⟨_, hitem, rfl⟩
    exact ⟨_, ⟨List.mem_filterMap.2 ⟨_, hplace,
      edgeOf?_eq_some.2 ⟨i, himp, some target, tried, hres, rfl⟩⟩, rfl⟩, rfl, rfl, rfl⟩

end ImportIndex

/-! ### The definitions of a tree -/

namespace Tree

variable {t : Tree}

lemma definition?_eq_some {id : ItemId} {d : Declared} :
    t.definition? id = some d ↔
      ∃ span, t.item? id = some ⟨d.file, span, .definition d.definition⟩ ∧ d.item = id := by
  unfold definition?
  constructor
  · intro h
    split at h
    · rename_i hid
      obtain rfl := Option.some.inj h
      exact ⟨_, hid, rfl⟩
    · simp at h
  · rintro ⟨span, hid, rfl⟩
    simp [hid]

/-- The definition `d` of `name` stands in `file`. -/
def Defines (t : Tree) (file : FileId) (name : Bytes) (d : Declared) : Prop :=
  t.definition? d.item = some d ∧ d.file = file ∧ d.definition.name = name

namespace Numbered

variable {files : Nat} {next : NodeId} (h : t.Numbered files next)

include h

lemma mem_declared_iff {d : Declared} : d ∈ t.declared ↔ t.definition? d.item = some d := by
  unfold declared
  rw [List.mem_filterMap]
  constructor
  · rintro ⟨x, -, hd⟩
    obtain ⟨-, -, hid⟩ := definition?_eq_some.1 hd
    rwa [hid]
  · intro hd
    obtain ⟨span, hid, -⟩ := definition?_eq_some.1 hd
    exact ⟨(d.file, d.item), h.mem_places_iff.2 ⟨_, hid, rfl⟩, hd⟩

lemma mem_definitions_iff {m : Module} (hm : m ∈ t.modules.toList) {d : Declared} :
    d ∈ m.items.filterMap t.definition? ↔ t.definition? d.item = some d ∧ d.file = m.file := by
  rw [List.mem_filterMap]
  constructor
  · rintro ⟨id, hid, hd⟩
    obtain ⟨span, hi, rfl⟩ := definition?_eq_some.1 hd
    obtain ⟨it, hi', hf⟩ := (h.mem_items_iff hm).1 hid
    obtain rfl := Option.some.inj (hi.symm.trans hi')
    exact ⟨hd, hf⟩
  · rintro ⟨hd, hf⟩
    obtain ⟨span, hi, -⟩ := definition?_eq_some.1 hd
    exact ⟨d.item, (h.mem_items_iff hm).2 ⟨_, hi, hf⟩, hd⟩

lemma pairwise_declared : t.declared.Pairwise fun d d' => d.item < d'.item := by
  refine h.pairwise_places.filterMap _ fun x y hxy d hd d' hd' => ?_
  obtain ⟨-, -, hid⟩ := definition?_eq_some.1 hd
  obtain ⟨-, -, hid'⟩ := definition?_eq_some.1 hd'
  rw [hid, hid']
  exact hxy

lemma node_lt {d d' : Declared} (hd : t.definition? d.item = some d)
    (hd' : t.definition? d'.item = some d') (hlt : d.item < d'.item) :
    d.definition.node + 2 ≤ d'.definition.node := by
  obtain ⟨span, hi, -⟩ := definition?_eq_some.1 hd
  obtain ⟨span', hi', -⟩ := definition?_eq_some.1 hd'
  exact h.ascending hi hi' hlt

lemma node_inj {d d' : Declared} (hd : t.definition? d.item = some d)
    (hd' : t.definition? d'.item = some d') (he : d.definition.node = d'.definition.node) :
    d = d' := by
  have hid : d.item = d'.item := by
    rcases Nat.lt_trichotomy d.item d'.item with hlt | heq | hlt
    · have hn := Nat.lt_of_succ_lt (h.node_lt hd hd' hlt)
      exact absurd he (Nat.ne_of_lt hn)
    · exact heq
    · have hn := Nat.lt_of_succ_lt (h.node_lt hd' hd hlt)
      exact absurd he.symm (Nat.ne_of_lt hn)
  rw [hid, hd'] at hd
  exact (Option.some.inj hd).symm

lemma lt_iff_node_lt {d d' : Declared} (hd : t.definition? d.item = some d)
    (hd' : t.definition? d'.item = some d') :
    d.item < d'.item ↔ d.definition.node < d'.definition.node := by
  constructor
  · intro hlt
    exact Nat.lt_of_succ_lt (h.node_lt hd hd' hlt)
  · intro hlt
    rcases Nat.lt_trichotomy d.item d'.item with h1 | heq | h1
    · exact h1
    · rw [heq, hd'] at hd
      exact absurd hlt (by rw [Option.some.inj hd]; exact Nat.lt_irrefl _)
    · have hn := Nat.lt_of_succ_lt (h.node_lt hd' hd h1)
      exact absurd hlt (Nat.lt_asymm hn)

lemma scope_eq {d : Declared} (hd : t.definition? d.item = some d) :
    d.definition.scope = [d.definition.node] := by
  obtain ⟨span, hi, -⟩ := definition?_eq_some.1 hd
  exact (h.valued hi rfl).1

lemma value {d : Declared} (hd : t.definition? d.item = some d) :
    ∃ e, t.expr? d.definition.value = some e ∧ e.Initializes d.definition.node := by
  obtain ⟨span, hi, -⟩ := definition?_eq_some.1 hd
  exact (h.valued hi rfl).2

/-- **The best match in a file** is the last definition that the query sees. -/
lemma lookup_find_iff {q : Query} {v : Visibility} {file : FileId} {d : Declared} :
    ((⟨t.declared⟩ : DefinitionIndex).lookup file q.name).reverse.find? (q.sees v) = some d ↔
      t.Defines file q.name d ∧ q.sees v d = true ∧
        ∀ d', t.Defines file q.name d' → q.sees v d' = true → d'.item ≤ d.item := by
  have hmem : ∀ d, d ∈ (⟨t.declared⟩ : DefinitionIndex).lookup file q.name ↔
      t.Defines file q.name d := by
    intro d
    rw [DefinitionIndex.lookup, List.mem_filter, h.mem_declared_iff, decide_eq_true_iff]
    exact Iff.rfl
  have hasc : ((⟨t.declared⟩ : DefinitionIndex).lookup file q.name).Pairwise
      fun d d' => d.item < d'.item := h.pairwise_declared.filter _
  rw [find?_reverse_eq_some hasc]
  simp only [hmem]

lemma lookup_find_none {q : Query} {v : Visibility} {file : FileId} :
    ((⟨t.declared⟩ : DefinitionIndex).lookup file q.name).reverse.find? (q.sees v) = none ↔
      ∀ d, t.Defines file q.name d → q.sees v d = false := by
  rw [List.find?_eq_none]
  simp only [DefinitionIndex.lookup, List.mem_reverse, List.mem_filter, h.mem_declared_iff,
    decide_eq_true_iff, Bool.not_eq_true]
  exact Iff.rfl

end Numbered

lemma Numbered.file_mem_ids {s : SourceSet} {next : NodeId} (h : t.Numbered s.size next)
    {d : Declared} (hd : t.definition? d.item = some d) : d.file ∈ s.ids := by
  obtain ⟨span, hid, -⟩ := definition?_eq_some.1 hd
  obtain ⟨⟨i, hi, hf⟩, -⟩ := h.place_file (h.mem_places_iff.2 ⟨_, hid, rfl⟩)
  exact List.mem_map.2 ⟨i, List.mem_range.2 hi, hf.symm⟩

end Tree

end StateBuffer
