import StateBuffer.Proofs.Resolution.Lookup

/-!
Resolution against its specification. Binding all references changes neither the definitions nor
what files can see, and every reference is looked up once, so its binding is that of a search. The
search finds the definition that the specification names: an earlier one of the same file, or else
the last public one of the file at the end of the least import path that offers any.
-/

namespace StateBuffer

/-- The edge as it was before anything came through it. -/
def ImportEdge.unmarked (e : ImportEdge) : ImportEdge := { e with used := false }

namespace Resolution

/-! ### Binding all references -/

/-- The resolutions hold the same tree and definitions, and files see the same in both. -/
structure Agrees (r r' : Resolution) : Prop where
  tree : r'.tree = r.tree
  definitions : r'.definitions = r.definitions
  reach : r'.imports.reach = r.imports.reach
  edges : r'.imports.edges.map ImportEdge.unmarked = r.imports.edges.map ImportEdge.unmarked

lemma Agrees.refl (r : Resolution) : Agrees r r := ⟨rfl, rfl, rfl, rfl⟩

lemma Agrees.trans {r r' r'' : Resolution} (h : Agrees r r') (h' : Agrees r' r'') :
    Agrees r r'' :=
  ⟨h'.tree.trans h.tree, h'.definitions.trans h.definitions, h'.reach.trans h.reach,
    h'.edges.trans h.edges⟩

lemma Agrees.visible {r r' : Resolution} (h : Agrees r r') (file : FileId) :
    r'.imports.visible file = r.imports.visible file := by
  simp only [ImportIndex.visible, ImportIndex.reachable, h.reach]

lemma unmarked_markUsed (x : ImportIndex) (item : ItemId) :
    (x.markUsed item).edges.map ImportEdge.unmarked = x.edges.map ImportEdge.unmarked := by
  simp only [ImportIndex.markUsed, List.map_map]
  refine List.map_congr_left fun e _ => ?_
  simp only [Function.comp]
  split_ifs <;> rfl

/-- The reference of an item, and what it is bound to. -/
def lookUp (r : Resolution) (file : FileId) (item : ItemId) : Option (NodeId × Binding) :=
  match r.tree.definition? item with
  | none => none
  | some d => match r.tree.reference? d.definition with
    | none => none
    | some (e, name) =>
      (r.definitions.search (r.imports.visible file) (queryOf file e name) .publicOnly).map
        fun b => (e.node, b)

lemma Agrees.lookUp {r r' : Resolution} (h : Agrees r r') (file : FileId) (item : ItemId) :
    r'.lookUp file item = r.lookUp file item := by
  simp only [Resolution.lookUp, h.tree, h.definitions, h.visible]

lemma bind_agrees (r : Resolution) (file : FileId) (e : Expr) (name : Bytes) :
    Agrees r (r.bind file e name) := by
  unfold bind
  split
  · exact .refl r
  · rename_i b hb
    refine ⟨rfl, rfl, ?_, ?_⟩
    · cases b.via <;> rfl
    · cases b.via with
      | none => rfl
      | some via => exact unmarked_markUsed r.imports via

lemma bind_bindings (r : Resolution) (file : FileId) (e : Expr) (name : Bytes) :
    (r.bind file e name).bindings = r.bindings ++
      ((r.definitions.search (r.imports.visible file) (queryOf file e name) .publicOnly).map
        fun b => (e.node, b)).toList := by
  unfold bind
  cases r.definitions.search (r.imports.visible file) (queryOf file e name) .publicOnly with
  | none => simp
  | some b => simp

/-- **One item**: binding it puts its reference behind the others. -/
lemma bindItem_spec (file : FileId) (r : Resolution) (item : ItemId) :
    Agrees r (bindItem file r item) ∧
      (bindItem file r item).bindings = r.bindings ++ (r.lookUp file item).toList := by
  unfold bindItem lookUp
  cases hd : r.tree.definition? item with
  | none => exact ⟨.refl r, by simp⟩
  | some d =>
    cases he : r.tree.reference? d.definition with
    | none =>
      simp only [he]
      exact ⟨.refl r, by simp⟩
    | some x =>
      obtain ⟨e, name⟩ := x
      simp only [he]
      exact ⟨bind_agrees r file e name, bind_bindings r file e name⟩

lemma foldl_bindItem (places : List (FileId × ItemId)) (r : Resolution) :
    Agrees r (places.foldl (fun r x => bindItem x.1 r x.2) r) ∧
      (places.foldl (fun r x => bindItem x.1 r x.2) r).bindings =
        r.bindings ++ places.filterMap fun x => r.lookUp x.1 x.2 := by
  induction places generalizing r with
  | nil => exact ⟨.refl r, by simp⟩
  | cons x places ih =>
    obtain ⟨h1, h2⟩ := bindItem_spec x.1 r x.2
    obtain ⟨h3, h4⟩ := ih (bindItem x.1 r x.2)
    refine ⟨h1.trans h3, ?_⟩
    rw [List.foldl_cons, h4, h2, List.append_assoc, List.filterMap_cons]
    simp only [h1.lookUp]
    cases r.lookUp x.1 x.2 <;> simp

lemma bindAll_eq (r : Resolution) :
    r.bindAll = r.tree.places.foldl (fun r x => bindItem x.1 r x.2) r := by
  simp only [bindAll, Tree.places, List.foldl_flatMap, List.foldl_map]

/-- What resolving the names of a tree gives: the indexes of the tree, and for every reference the
result of its search. -/
structure Resolved (s : SourceSet) (t : Tree) (root : Bytes) (r : Resolution) : Prop where
  tree : r.tree = t
  definitions : r.definitions = ⟨t.declared⟩
  visible : ∀ file ∈ s.ids, r.imports.visible file = (ImportIndex.ofTree s t root).visibleFrom file
  edges : r.imports.edges.map ImportEdge.unmarked = (ImportIndex.ofTree s t root).edges
  binding : ∀ {d e name}, t.definition? d.item = some d →
    t.reference? d.definition = some (e, name) →
    r.binding? e.node =
      r.definitions.search (r.imports.visible d.file) (queryOf d.file e name) .publicOnly

lemma reference?_eq_some {t : Tree} {d : Definition} {e : Expr} {name : Bytes} :
    t.reference? d = some (e, name) ↔ t.expr? d.value = some e ∧ e.body = .name name := by
  unfold Tree.reference?
  cases he : t.expr? d.value with
  | none => simp
  | some e' =>
    cases hb : e'.body with
    | literal digits =>
      simp only [hb, reduceCtorEq, Option.some.injEq, false_iff, not_and]
      rintro rfl h
      simp [hb] at h
    | name n =>
      simp only [hb, Option.some.injEq, Prod.mk.injEq]
      constructor
      · rintro ⟨rfl, rfl⟩
        exact ⟨rfl, hb⟩
      · rintro ⟨rfl, h⟩
        rw [hb] at h
        exact ⟨rfl, ExprBody.name.inj h⟩

lemma lookUp_eq_some {r : Resolution} {file : FileId} {item : ItemId} {n : NodeId} {b : Binding} :
    r.lookUp file item = some (n, b) ↔ ∃ d e name, r.tree.definition? item = some d ∧
      r.tree.reference? d.definition = some (e, name) ∧ e.node = n ∧
      r.definitions.search (r.imports.visible file) (queryOf file e name) .publicOnly = some b := by
  unfold lookUp
  cases hd : r.tree.definition? item with
  | none => simp
  | some d =>
    cases he : r.tree.reference? d.definition with
    | none => simp [he]
    | some x =>
      obtain ⟨e, name⟩ := x
      simp [he, and_comm]

section Ordered

variable {s : SourceSet} {t : Tree} {next : NodeId} {root : Bytes}

lemma edges_unmarked :
    (ImportIndex.ofTree s t root).edges.map ImportEdge.unmarked =
      (ImportIndex.ofTree s t root).edges := by
  conv_rhs => rw [← List.map_id (ImportIndex.ofTree s t root).edges]
  refine List.map_congr_left fun e he => ?_
  obtain ⟨x, -, hx⟩ := List.mem_filterMap.1 he
  obtain ⟨i, -, target, tried, -, rfl⟩ := ImportIndex.edgeOf?_eq_some.1 hx
  rfl

lemma visible_consolidate {x : ImportIndex} (hx : x.reach = none) {file : FileId}
    (hfile : file ∈ s.ids) : (x.consolidate s).visible file = x.visibleFrom file := by
  have hfind : (s.ids.map fun file => (file, x.visibleFrom file)).find?
      (fun entry => entry.1 = file) = some (file, x.visibleFrom file) := by
    rw [List.find?_map]
    have : s.ids.find? (fun f => f = file) = some file := by
      cases hf : s.ids.find? (fun f => f = file) with
      | none => simpa using List.find?_eq_none.1 hf file hfile
      | some f => rw [show f = file by simpa using List.find?_some hf]
    rw [show ((fun entry : FileId × List Reach => decide (entry.1 = file)) ∘
      fun file => (file, x.visibleFrom file)) = fun f => decide (f = file) from rfl, this]
    rfl
  simp only [ImportIndex.visible, ImportIndex.reachable, ImportIndex.consolidate, hx, hfind]
  rfl

lemma definition?_item {id : ItemId} {d : Declared} (hd : t.definition? id = some d) :
    d.item = id ∧ t.definition? d.item = some d := by
  obtain ⟨-, -, rfl⟩ := Tree.definition?_eq_some.1 hd
  exact ⟨rfl, hd⟩

variable (h : t.Numbered s.size next)

include h

lemma reference_node {d : Declared} {e : Expr} {name : Bytes} (hd : t.definition? d.item = some d)
    (he : t.reference? d.definition = some (e, name)) : e.node = d.definition.node + 1 := by
  obtain ⟨e', he', hinit⟩ := h.value hd
  rw [(reference?_eq_some.1 he).1] at he'
  rw [Option.some.inj he']
  exact hinit.node

lemma pairwise_lookUps {r : Resolution} (hr : r.tree = t) :
    (t.places.filterMap fun x => r.lookUp x.1 x.2).Pairwise fun a b => a.1 < b.1 := by
  refine h.pairwise_places.filterMap _ fun x y hxy a ha b hb => ?_
  obtain ⟨d, e, name, hd, he, hn, -⟩ := lookUp_eq_some.1 ha
  obtain ⟨d', e', name', hd', he', hn', -⟩ := lookUp_eq_some.1 hb
  rw [hr] at hd hd' he he'
  obtain ⟨hid, hd⟩ := definition?_item hd
  obtain ⟨hid', hd'⟩ := definition?_item hd'
  rw [← hn, ← hn', reference_node h hd he, reference_node h hd' he']
  have hlt := h.node_lt hd hd' (by rw [hid, hid']; exact hxy)
  exact Nat.succ_lt_succ (Nat.lt_of_succ_lt hlt)

lemma mem_lookUps_iff {r : Resolution} (hr : r.tree = t) {d : Declared} {e : Expr} {name : Bytes}
    (hd : t.definition? d.item = some d) (he : t.reference? d.definition = some (e, name))
    {b : Binding} :
    (e.node, b) ∈ (t.places.filterMap fun x => r.lookUp x.1 x.2) ↔
      r.definitions.search (r.imports.visible d.file) (queryOf d.file e name) .publicOnly =
        some b := by
  obtain ⟨span, hi, -⟩ := Tree.definition?_eq_some.1 hd
  rw [List.mem_filterMap]
  constructor
  · rintro ⟨x, hx, hlook⟩
    obtain ⟨d', e', name', hd', he', hn, hs⟩ := lookUp_eq_some.1 hlook
    rw [hr] at hd' he'
    obtain ⟨hid, hd'⟩ := definition?_item hd'
    rw [reference_node h hd he, reference_node h hd' he'] at hn
    obtain rfl := h.node_inj hd' hd (Nat.succ.inj hn)
    obtain ⟨rfl, rfl⟩ := Prod.mk.inj (Option.some.inj (he'.symm.trans he))
    obtain ⟨-, it, hit, hf⟩ := h.place_file hx
    rw [← hid, hi] at hit
    obtain rfl := Option.some.inj hit
    rw [← hf] at hs
    exact hs
  · intro hs
    exact ⟨(d.file, d.item), h.mem_places_iff.2 ⟨_, hi, rfl⟩,
      lookUp_eq_some.2 ⟨d, e, name, hr ▸ hd, hr ▸ he, rfl, hs⟩⟩

/-- **Resolving names** never fails on the tree of a set. -/
theorem ofTree_resolved (root : Bytes) :
    ∃ r, Resolution.ofTree s t root = .ok r ∧ Resolved s t root r := by
  have hindex := index_eq h root
  set r0 : Resolution := ⟨t, (ImportIndex.ofTree s t root).consolidate s, ⟨t.declared⟩, [], []⟩
  obtain ⟨hagree, hbindings⟩ := foldl_bindItem t.places r0
  refine ⟨r0.bindAll, by rw [ofTree, hindex]; rfl, ?_⟩
  rw [show r0.bindAll = t.places.foldl (fun r x => bindItem x.1 r x.2) r0 from bindAll_eq r0]
  set r := t.places.foldl (fun r x => bindItem x.1 r x.2) r0
  refine ⟨hagree.tree, hagree.definitions, fun file hfile => ?_, ?_, fun {d e name} hd he => ?_⟩
  · rw [hagree.visible]
    exact visible_consolidate (x := ImportIndex.ofTree s t root) rfl hfile
  · rw [hagree.edges]
    exact edges_unmarked
  · have hkeys := pairwise_lookUps h (r := r0) rfl
    have hmem : ∀ b, _ ↔ _ := fun b => mem_lookUps_iff h (r := r0) rfl hd he (b := b)
    rw [binding?, hbindings, List.nil_append, hagree.definitions, hagree.visible]
    cases hs : r0.definitions.search (r0.imports.visible d.file) (queryOf d.file e name)
      .publicOnly with
    | some b =>
      rw [find?_key hkeys ((hmem b).2 hs)]
      rfl
    | none =>
      rw [Option.map_eq_none_iff, List.find?_eq_none]
      rintro ⟨n, b⟩ hb hn
      have hn : n = e.node := by simpa using hn
      rw [hn, hmem, hs] at hb
      simp at hb

end Ordered

end Resolution

end StateBuffer
