import StateBuffer.Proofs.Resolution.Paths

/-!
What a file cannot see. Two programs may differ in the private imports and the private definitions
of other files: a file has the same visible files in both, and every name it looks up has the same
answer. The list of visible files is made in as many steps as there are edges, which are more in one
program than in the other, so the steps that are left over must not matter.
-/

namespace StateBuffer

def DefinitionIndex.ofFile (x : DefinitionIndex) (file : FileId) : List Declared :=
  x.definitions.filter fun d => d.file = file

/-- Two programs that look the same from a file: its own imports and definitions are the same in
both, and of every other file the public ones are. -/
structure SameView (file : FileId) (x x' : ImportIndex) (d d' : DefinitionIndex) : Prop where
  imports : x.edgesOf file = x'.edgesOf file
  definitions : d.ofFile file = d'.ofFile file
  publicImports : ∀ other, other ≠ file →
    (x.edgesOf other).filter ImportEdge.isPublic = (x'.edgesOf other).filter ImportEdge.isPublic
  publicDefinitions : ∀ other, other ≠ file →
    (d.ofFile other).filter (fun e => e.definition.isPublic) =
      (d'.ofFile other).filter (fun e => e.definition.isPublic)

namespace ImportIndex

/-! ### Steps that are left over -/

lemma mem_edges_of_edgesOf {x : ImportIndex} {file : FileId} {e : ImportEdge}
    (h : e ∈ x.edgesOf file) : e ∈ x.edges := by
  obtain ⟨d, -, hd⟩ := List.mem_filterMap.1 h
  exact List.mem_of_find?_eq_some hd

/-- Every entry is the start or the target of an edge, and no file has two entries. -/
structure Bounded (x : ImportIndex) (start : FileId) (reached : List Reach) : Prop where
  distinct : (reached.map Reach.file).Nodup
  entered : reached.map Reach.file ⊆ start :: x.edges.filterMap ImportEdge.target

section Bounded

variable {x : ImportIndex} {start : FileId} {reached : List Reach}

lemma Bounded.length_le (h : Bounded x start reached) : reached.length ≤ x.edges.length + 1 := by
  have hle := (List.subperm_of_subset h.distinct h.entered).length_le
  have hfound := List.length_filterMap_le ImportEdge.target x.edges
  simp only [List.length_map, List.length_cons] at hle
  omega

lemma Bounded.addTargets (h : Bounded x start reached) (via : ImportEdge → Option ItemId)
    {edges : List ImportEdge} (hedges : ∀ e ∈ edges, e ∈ x.edges) :
    Bounded x start (addTargets via edges reached) := by
  induction edges generalizing reached with
  | nil => exact h
  | cons e edges ih =>
    have hrest : ∀ e' ∈ edges, e' ∈ x.edges := fun e' he' => hedges e' (List.mem_cons_of_mem e he')
    by_cases hnew : ∃ file, e.target = some file ∧ file ∉ reached.map Reach.file
    · obtain ⟨file, htarget, hfile⟩ := hnew
      rw [addTargets_fresh htarget hfile]
      refine ih ⟨?_, ?_⟩ hrest
      · rw [List.map_append, List.map_singleton, (List.perm_append_singleton _ _).nodup_iff]
        exact List.nodup_cons.2 ⟨hfile, h.distinct⟩
      · have hmem : file ∈ x.edges.filterMap ImportEdge.target :=
          List.mem_filterMap.2 ⟨e, hedges e List.mem_cons_self, htarget⟩
        intro f hf
        rw [List.map_append, List.map_singleton, List.mem_append, List.mem_singleton] at hf
        rcases hf with hf | rfl
        · exact h.entered hf
        · exact List.mem_cons_of_mem start hmem
    · have hknown : ∀ file, e.target = some file → file ∈ reached.map Reach.file := by
        intro file htarget
        by_contra hfile
        exact hnew ⟨file, htarget, hfile⟩
      rw [addTargets_known hknown]
      exact ih h hrest

/-- **Enough steps**: once there are as many as edges, further ones change nothing. -/
lemma Bounded.grow_add (h : Bounded x start reached) {fuel next : Nat}
    (hfuel : x.edges.length + 1 ≤ next + fuel) (extra : Nat) :
    x.grow (fuel + extra) next reached = x.grow fuel next reached := by
  induction fuel generalizing next reached with
  | zero =>
    have hlen := h.length_le
    have hend : reached[next]? = none := List.getElem?_eq_none (by omega)
    cases extra with
    | zero => rfl
    | succ extra => simp [grow, hend]
  | succ fuel ih =>
    rw [Nat.add_right_comm]
    unfold grow
    cases hr : reached[next]? with
    | none => rfl
    | some r =>
      have hpublic : ∀ e ∈ x.publicEdges r.file, e ∈ x.edges := by
        intro e he
        rw [publicEdges, List.mem_reverse, List.mem_filter] at he
        exact mem_edges_of_edgesOf he.1
      exact ih (h.addTargets (fun _ => r.via) hpublic) (by omega)

end Bounded

/-! ### Other files' private imports -/

section Congruence

variable {x x' : ImportIndex}

/-- Growing looks at public imports only. -/
lemma grow_congr (h : ∀ file, x.publicEdges file = x'.publicEdges file) (fuel next : Nat)
    (reached : List Reach) : x.grow fuel next reached = x'.grow fuel next reached := by
  induction fuel generalizing next reached with
  | zero => rfl
  | succ fuel ih =>
    unfold grow
    cases hr : reached[next]? with
    | none => rfl
    | some r =>
      simp only
      rw [h r.file]
      exact ih _ _

lemma visibleFrom_congr {file : FileId} (hown : x.edgesOf file = x'.edgesOf file)
    (h : ∀ other, x.publicEdges other = x'.publicEdges other) :
    x.visibleFrom file = x'.visibleFrom file := by
  have hstart : ∀ y : ImportIndex, Bounded y file
      (addTargets (fun e => some e.item) (y.edgesOf file).reverse [⟨file, none⟩]) := by
    intro y
    have hself : Bounded y file [⟨file, none⟩] := ⟨by simp, by simp⟩
    exact hself.addTargets _ fun e he => mem_edges_of_edgesOf (List.mem_reverse.1 he)
  -- both are grown for the steps of the two together
  calc x.visibleFrom file
      = x.grow (x.edges.length + 1 + (x'.edges.length + 1)) 1
          (addTargets (fun e => some e.item) (x.edgesOf file).reverse [⟨file, none⟩]) :=
        ((hstart x).grow_add (by omega) _).symm
    _ = x'.grow (x'.edges.length + 1 + (x.edges.length + 1)) 1
          (addTargets (fun e => some e.item) (x'.edgesOf file).reverse [⟨file, none⟩]) := by
        rw [grow_congr h, hown, Nat.add_comm (x.edges.length + 1)]
    _ = x'.visibleFrom file := (hstart x').grow_add (by omega) _

lemma reachable_consolidate (hx : x.reach = none) (s : SourceSet) (file : FileId) :
    (x.consolidate s).reachable file =
      .ok (if file ∈ s.ids then x.visibleFrom file else []) := by
  have hfind : ∀ ids : List FileId,
      (((ids.map fun f => (f, x.visibleFrom f)).find? fun entry => entry.1 = file).map
        Prod.snd).getD [] = if file ∈ ids then x.visibleFrom file else [] := by
    intro ids
    induction ids with
    | nil => rfl
    | cons f ids ih =>
      by_cases hf : f = file
      · simp [hf]
      · simpa [hf, Ne.symm hf] using ih
  simp only [consolidate, hx, reachable, hfind]

end Congruence

end ImportIndex

namespace DefinitionIndex

/-! ### Other files' private definitions -/

/-- A search among the definitions that it may see is as good as one among all. -/
lemma find?_filter_of_imp {p q : Declared → Bool} {l : List Declared}
    (h : ∀ d ∈ l, p d = true → q d = true) : (l.filter q).find? p = l.find? p := by
  induction l with
  | nil => rfl
  | cons d l ih =>
    have hrest := ih fun e he => h e (List.mem_cons_of_mem d he)
    cases hq : q d with
    | true => rw [List.filter_cons_of_pos hq, List.find?_cons, List.find?_cons, hrest]
    | false =>
      have hp : p d = false := Bool.eq_false_iff.2 fun hp => by simp [h d List.mem_cons_self hp] at hq
      rw [List.filter_cons_of_neg (by simp [hq]), hrest, List.find?_cons_of_neg (by simp [hp])]

lemma lookup_eq (x : DefinitionIndex) (file : FileId) (name : Bytes) :
    x.lookup file name = (x.ofFile file).filter fun d => d.definition.name = name := by
  rw [lookup, ofFile, List.filter_filter]
  refine List.filter_congr fun d _ => ?_
  rw [Bool.decide_and, Bool.and_comm]

end DefinitionIndex

open DefinitionIndex ImportIndex

namespace SameView

variable {file : FileId} {x x' : ImportIndex} {d d' : DefinitionIndex}

lemma publicEdges (h : SameView file x x' d d') (other : FileId) :
    x.publicEdges other = x'.publicEdges other := by
  unfold ImportIndex.publicEdges
  by_cases hother : other = file
  · rw [hother, h.imports]
  · rw [h.publicImports other hother]

lemma find?_lookup (h : SameView file x x' d d') {q : Query} (hq : q.file = file)
    (other : FileId) :
    (d.lookup other q.name).reverse.find? (q.sees .publicOnly) =
      (d'.lookup other q.name).reverse.find? (q.sees .publicOnly) := by
  rw [lookup_eq, lookup_eq]
  by_cases hother : other = file
  · rw [hother, h.definitions]
  -- of another file only public definitions are seen
  have hseen : ∀ y : DefinitionIndex,
      ∀ e ∈ ((y.ofFile other).filter (fun e => e.definition.name = q.name)).reverse,
        q.sees .publicOnly e = true → e.definition.isPublic = true := by
    intro y e he hsees
    have hfile : e.file = other := by
      have hmem := (List.mem_filter.1 (List.mem_reverse.1 he)).1
      simpa using (List.mem_filter.1 hmem).2
    have hne : e.file ≠ q.file := by rw [hfile, hq]; exact hother
    unfold Query.sees at hsees
    split_ifs at hsees
    simpa using hsees
  rw [← find?_filter_of_imp (hseen d), ← find?_filter_of_imp (hseen d'), List.filter_reverse,
    List.filter_reverse, List.filter_comm, h.publicDefinitions other hother, List.filter_comm]

/-- **Private declarations do not leak.** The visible files of a file are the same in two programs
that look the same from it, in order and with the imports that made them visible, and so is the
answer to every query of the file. -/
theorem reachable_and_search (h : SameView file x x' d d') (hx : x.reach = none)
    (hx' : x'.reach = none) (s : SourceSet) :
    (x.consolidate s).reachable file = (x'.consolidate s).reachable file ∧
      ∀ q : Query, q.file = file →
        d.search ((x.consolidate s).visible file) q .publicOnly =
          d'.search ((x'.consolidate s).visible file) q .publicOnly := by
  have hvisible := visibleFrom_congr h.imports h.publicEdges
  have hreach : (x.consolidate s).reachable file = (x'.consolidate s).reachable file := by
    rw [reachable_consolidate hx, reachable_consolidate hx', hvisible]
  refine ⟨hreach, fun q hq => ?_⟩
  unfold DefinitionIndex.search ImportIndex.visible
  rw [hreach]
  simp only [h.find?_lookup hq]

/-- The first file imports the third, which passes on what it imports from the second; `more` are
further imports of the third. -/
def passingOn (more : List ImportEdge) : ImportIndex :=
  let edges := [⟨1, 1, false, some 3, "mid", "mid.gpex", false⟩,
    ⟨4, 3, true, some 2, "leaf", "leaf.gpex", false⟩] ++ more
  ⟨edges, edges.map fun e => (e.file, e.item), none⟩

def named (item : ItemId) (file : FileId) (isPublic : Bool) : Declared :=
  ⟨item, file, ⟨.var, item, [item], isPublic, Span.none, Span.none, "a", Span.none, item⟩⟩

/-- A private import back to the first file and a private `a` in the third file, which would come
before the one of the second file, change nothing for the first file. -/
theorem reachable_and_search_passingOn :
    let hidden : ImportEdge := ⟨5, 3, false, some 1, "main", "main.gpex", false⟩
    let s : SourceSet := ⟨#[default, default, default]⟩
    SameView 1 (passingOn []) (passingOn [hidden]) ⟨[named 3 2 true]⟩
        ⟨[named 3 2 true, named 6 3 false]⟩ ∧
      ((passingOn []).consolidate s).reachable 1 =
        ((passingOn [hidden]).consolidate s).reachable 1 ∧
      DefinitionIndex.search ⟨[named 3 2 true]⟩ (((passingOn []).consolidate s).visible 1)
          ⟨1, 2, [1], "a"⟩ .publicOnly =
        DefinitionIndex.search ⟨[named 3 2 true, named 6 3 false]⟩
          (((passingOn [hidden]).consolidate s).visible 1) ⟨1, 2, [1], "a"⟩ .publicOnly ∧
      DefinitionIndex.search ⟨[named 3 2 true]⟩ (((passingOn []).consolidate s).visible 1)
          ⟨1, 2, [1], "a"⟩ .publicOnly = some ⟨named 3 2 true, some 1⟩ := by
  intro hidden s
  have hview : SameView 1 (passingOn []) (passingOn [hidden]) ⟨[named 3 2 true]⟩
      ⟨[named 3 2 true, named 6 3 false]⟩ := by
    refine ⟨by decide +kernel, by decide +kernel, fun other hother => ?_, fun other _ => ?_⟩
    · by_cases hthird : other = 3
      · subst hthird
        decide +kernel
      · simp [passingOn, edgesOf, hidden, Ne.symm hother, Ne.symm hthird]
    · simp only [named, ofFile, List.filter_cons]
      split_ifs <;> rfl
  have hboth := hview.reachable_and_search rfl rfl s
  exact ⟨hview, hboth.1, hboth.2 _ rfl, by decide +kernel⟩

end SameView

end StateBuffer
