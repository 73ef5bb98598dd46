import Mathlib.Algebra.Order.Ring.Int
import StateBuffer.Proofs.Graph.Peeling

/-!
Sorting in waves takes the layers off a graph. As edges are added the counts of a graph stay right:
a count tells how many nodes have an edge to a node. While a wave is emitted the counts are those
among the nodes that are not emitted yet, and the nodes of the next wave are those whose count came
down to zero since the wave began. So each wave is a layer, and what is never emitted is stuck.
-/

namespace StateBuffer

namespace Graph

variable {g : Graph}

/-! ### Adding edges -/

/-- All edges are between nodes, none is there twice, and every count of edges is right. -/
structure Proper (g : Graph) : Prop where
  sized : g.indegrees.size = g.size
  closed : g.Closed
  nodup : ∀ a, (g.successorsOf a).Nodup
  counted : ∀ v, g.indegree v = g.predecessorsIn g.nodes v

@[simp] lemma size_empty (n : Nat) : (empty n).size = n := by simp [empty, size]

@[simp] lemma successorsOf_empty (n a : Nat) : (empty n).successorsOf a = [] := by
  rcases Nat.lt_or_ge a n with h | h <;> simp [successorsOf, empty, Array.getD, h, Nat.not_lt.2]

@[simp] lemma indegree_empty (n v : Nat) : (empty n).indegree v = 0 := by
  rcases Nat.lt_or_ge v n with h | h <;> simp [indegree, empty, Array.getD, h, Nat.not_lt.2]

lemma edge_empty (n a b : Nat) : ¬ (empty n).Edge a b := by simp [Edge]

lemma proper_empty (n : Nat) : (empty n).Proper where
  sized := by simp [empty, size]
  closed := fun h => absurd h (edge_empty _ _ _)
  nodup := fun a => by simp
  counted := fun v => by simp [predecessorsIn, edge_empty]

lemma getD_setIfInBounds {α : Type} {xs : Array α} {i : Nat} (h : i < xs.size) (a d : α) (j : Nat) :
    (xs.setIfInBounds i a).getD j d = if j = i then a else xs.getD j d := by
  rw [Array.getD_eq_getD_getElem?, Array.getElem?_setIfInBounds, Array.getD_eq_getD_getElem?]
  by_cases hij : j = i
  · rw [if_pos hij.symm, if_pos h, if_pos hij, Option.getD_some]
  · rw [if_neg (Ne.symm hij), if_neg hij]

lemma countP_or_eq {l : List Nat} {p : Nat → Prop} [DecidablePred p] {b : Nat} (hl : l.Nodup)
    (hb : b ∈ l) (hp : ¬ p b) : l.countP (fun a => p a ∨ a = b) = l.countP (fun a => p a) + 1 := by
  obtain ⟨l1, l2, rfl⟩ := List.append_of_mem hb
  obtain ⟨-, hcons, hapart⟩ := List.nodup_append.1 hl
  have hother : ∀ {l : List Nat}, (∀ a ∈ l, a ≠ b) →
      l.countP (fun a => p a ∨ a = b) = l.countP fun a => p a := fun h =>
    List.countP_congr fun a ha => by simp [h a ha]
  have h1 := hother fun a ha => hapart a ha b List.mem_cons_self
  have h2 := hother fun a ha => ne_of_mem_of_not_mem ha (List.nodup_cons.1 hcons).1
  simp only [List.countP_append, List.countP_cons, h1, h2, hp, false_or, decide_true, decide_false,
    if_true, Bool.false_eq_true, if_false]
  omega

section NewEdge

variable {source target : Nat} {g' : Graph}

/-- What a new edge does to the lists of successors and to the counts. -/
lemma addEdge_cases (hs : source < g.size) (ht : target < g.size)
    (hsized : g.indegrees.size = g.size) :
    (g.Edge source target ∧ g.addEdge source target = .ok g) ∨
      (¬ g.Edge source target ∧ ∃ g', g.addEdge source target = .ok g' ∧ g'.size = g.size ∧
        g'.indegrees.size = g.size ∧
        (∀ a, g'.successorsOf a =
          if a = source then g.successorsOf source ++ [target] else g.successorsOf a) ∧
        ∀ v, g'.indegree v = if v = target then g.indegree target + 1 else g.indegree v) := by
  rw [addEdge, if_neg (by omega)]
  by_cases hmem : target ∈ g.successorsOf source
  · exact .inl ⟨hmem, if_pos hmem⟩
  · refine .inr ⟨hmem, _, if_neg hmem, by simp [size], by simp [hsized], fun a => ?_, fun v => ?_⟩
    · exact getD_setIfInBounds hs _ _ _
    · exact getD_setIfInBounds (hsized ▸ ht) _ _ _

lemma addEdge_ok (hg : g.Proper) (hs : source < g.size) (ht : target < g.size) :
    ∃ g', g.addEdge source target = .ok g' ∧ g'.size = g.size ∧ g'.Proper ∧
      ∀ a b, g'.Edge a b ↔ g.Edge a b ∨ a = source ∧ b = target := by
  rcases addEdge_cases hs ht hg.sized with
    ⟨hmem, hsame⟩ | ⟨hmem, g', hok, hsize, hsized, hsucc, hdeg⟩
  · refine ⟨g, hsame, rfl, hg, fun a b => ⟨.inl, ?_⟩⟩
    rintro (h | ⟨rfl, rfl⟩)
    · exact h
    · exact hmem
  have hedge : ∀ a b, g'.Edge a b ↔ g.Edge a b ∨ a = source ∧ b = target := by
    intro a b
    rw [Edge, hsucc]
    split_ifs with ha
    · simp [ha, Edge]
    · simp [ha, Edge]
  refine ⟨g', hok, hsize, ⟨hsized.trans hsize.symm, fun {a b} hab => ?_, fun a => ?_, fun v => ?_⟩,
    hedge⟩
  · rw [hsize]
    rcases (hedge a b).1 hab with hab | ⟨-, rfl⟩
    · exact hg.closed hab
    · exact ht
  · rw [hsucc]
    split_ifs with ha
    · exact (hg.nodup source).append (List.nodup_singleton _) (by simpa [Edge] using hmem)
    · exact hg.nodup a
  · have hnodes : g'.nodes = g.nodes := by rw [nodes, nodes, hsize]
    rw [hdeg, hnodes]
    split_ifs with hv
    · have hcount : g'.predecessorsIn g.nodes v =
          g.nodes.countP fun a => g.Edge a v ∨ a = source :=
        List.countP_congr fun a _ => by simpa [hv] using hedge a v
      rw [hcount, countP_or_eq (l := g.nodes) (p := fun a => g.Edge a v) List.nodup_range
        (List.mem_range.2 hs) (hv ▸ hmem), ← hv, hg.counted]
      rfl
    · rw [hg.counted, predecessorsIn, predecessorsIn]
      exact congrArg _ (List.countP_congr fun a _ => by simp [hedge, hv])

lemma addEdges_ok {sources : List Nat} (hg : g.Proper) (hs : ∀ a ∈ sources, a < g.size)
    (ht : target < g.size) :
    ∃ g', sources.foldlM (fun g source => g.addEdge source target) g = .ok g' ∧
      g'.size = g.size ∧ g'.Proper ∧
        ∀ a b, g'.Edge a b ↔ g.Edge a b ∨ a ∈ sources ∧ b = target := by
  induction sources generalizing g with
  | nil => exact ⟨g, rfl, rfl, hg, fun a b => by simp⟩
  | cons source sources ih =>
    obtain ⟨g1, h1, hsize1, hg1, hedge1⟩ := addEdge_ok hg (hs source List.mem_cons_self) ht
    obtain ⟨g2, h2, hsize2, hg2, hedge2⟩ := ih hg1
      (fun a ha => by rw [hsize1]; exact hs a (List.mem_cons_of_mem _ ha)) (by rwa [hsize1])
    refine ⟨g2, ?_, hsize2.trans hsize1, hg2, fun a b => ?_⟩
    · rw [List.foldlM_cons, h1]
      exact h2
    · rw [hedge2, hedge1, List.mem_cons, or_and_right, or_assoc]

lemma addAll_ok {calls : List (Nat × Nat)} (hg : g.Proper)
    (hrange : ∀ e ∈ calls, e.1 < g.size ∧ e.2 < g.size) :
    ∃ g', calls.foldlM (fun g e => g.addEdge e.1 e.2) g = .ok g' ∧ g'.size = g.size ∧
      g'.Proper ∧ ∀ a b, g'.Edge a b ↔ g.Edge a b ∨ (a, b) ∈ calls := by
  induction calls generalizing g with
  | nil => exact ⟨g, rfl, rfl, hg, fun a b => by simp⟩
  | cons e calls ih =>
    obtain ⟨hs, ht⟩ := hrange e List.mem_cons_self
    obtain ⟨g1, h1, hsize1, hg1, hedge1⟩ := addEdge_ok hg hs ht
    have hrange1 : ∀ e ∈ calls, e.1 < g1.size ∧ e.2 < g1.size := fun e he => by
      rw [hsize1]
      exact hrange e (List.mem_cons_of_mem _ he)
    obtain ⟨g2, h2, hsize2, hg2, hedge2⟩ := ih hg1 hrange1
    refine ⟨g2, ?_, hsize2.trans hsize1, hg2, fun a b => ?_⟩
    · rw [List.foldlM_cons, h1]
      exact h2
    · rw [hedge2, hedge1, List.mem_cons, or_assoc, Prod.ext_iff]

end NewEdge

/-! ### One wave -/

section Wave

lemma predecessorsIn_perm {l m : List Nat} (h : l.Perm m) (v : Nat) :
    g.predecessorsIn l v = g.predecessorsIn m v := h.countP_eq _

lemma predecessorsIn_cons (a : Nat) (l : List Nat) (v : Nat) :
    g.predecessorsIn (a :: l) v = g.predecessorsIn l v + if g.Edge a v then 1 else 0 := by
  simp [predecessorsIn, List.countP_cons]

namespace Sorting

variable {s : Sorting} {targets : List Nat} {target v : Nat}

lemma indegree_release (h : target < s.indegrees.size) :
    (s.release target).indegree v = s.indegree v - if v = target then 1 else 0 := by
  rw [indegree, release, getD_setIfInBounds h]
  split_ifs with hv
  · rw [hv]
  · rw [sub_zero, indegree]

/-- All edges of one node are taken off: the counts of its successors are one less, and those come
next whose count was one. -/
lemma foldl_release (hnodup : targets.Nodup) (hin : ∀ t ∈ targets, t < s.indegrees.size) :
    (targets.foldl release s).indegrees.size = s.indegrees.size ∧
      (∀ v, (targets.foldl release s).indegree v = s.indegree v - if v ∈ targets then 1 else 0) ∧
      (targets.foldl release s).next = s.next ++ targets.filter (fun t => s.indegree t = 1) ∧
      (targets.foldl release s).order = s.order ∧ (targets.foldl release s).waves = s.waves := by
  induction targets generalizing s with
  | nil => simp
  | cons t targets ih =>
    obtain ⟨ht, hnodup⟩ := List.nodup_cons.1 hnodup
    have hsize : (s.release t).indegrees.size = s.indegrees.size := by simp [release]
    have hdeg := fun v => indegree_release (v := v) (hin t List.mem_cons_self)
    obtain ⟨h1, h2, h3, h4, h5⟩ := ih (s := s.release t) hnodup fun u hu => by
      rw [hsize]
      exact hin u (List.mem_cons_of_mem _ hu)
    refine ⟨h1.trans hsize, fun v => ?_, ?_, h4, h5⟩
    · rw [List.foldl_cons, h2, hdeg]
      by_cases hv : v = t
      · simp [hv, ht]
      · simp [hv]
    · have hrest : targets.filter (fun u => (s.release t).indegree u = 1) =
          targets.filter fun u => s.indegree u = 1 :=
        List.filter_congr fun u hu => by
          rw [hdeg, if_neg (by rintro rfl; exact ht hu), sub_zero]
      have hone : s.indegree t - 1 = 0 ↔ s.indegree t = 1 := by omega
      rw [List.foldl_cons, h3, hrest, List.filter_cons]
      simp only [release, hone, decide_eq_true_eq]
      split_ifs <;> simp

/-- A wave is being emitted: `todo` are its nodes that are still to come, and `kept` those that will
remain. What comes next are the nodes of no count whose count, among the nodes `remaining` when the
wave began, was another. -/
structure Within (g : Graph) (remaining todo kept : List Nat) (s : Sorting) : Prop where
  sized : s.indegrees.size = g.size
  indegree : ∀ v, s.indegree v = g.predecessorsIn (todo ++ kept) v
  nodup : s.next.Nodup
  mem_next : ∀ v, v ∈ s.next ↔
    g.predecessorsIn (todo ++ kept) v = 0 ∧ g.predecessorsIn remaining v ≠ 0

variable {remaining todo kept : List Nat} {b : Nat}

/-- **One node**: it is emitted and its edges are gone. -/
lemma Within.emit (hg : g.Proper) (h : Within g remaining (b :: todo) kept s)
    (hsub : (b :: todo) ++ kept ⊆ remaining) :
    Within g remaining todo kept (s.emit g b) ∧ (s.emit g b).order = s.order ++ [b] ∧
      (s.emit g b).waves = s.waves := by
  have hin : ∀ t ∈ g.successorsOf b, t < s.indegrees.size := fun t ht => by
    rw [h.sized]
    exact hg.closed ht
  have hcount : ∀ v, s.indegree v =
      g.predecessorsIn (todo ++ kept) v + if v ∈ g.successorsOf b then 1 else 0 := fun v => by
    rw [h.indegree, List.cons_append, predecessorsIn_cons]
    by_cases hv : v ∈ g.successorsOf b <;> simp [Edge, hv]
  obtain ⟨hsize, hdeg, hnext, horder, hwaves⟩ :=
    foldl_release (s := { s with order := s.order ++ [b] }) (hg.nodup b) hin
  have hdeg' : ∀ v, (s.emit g b).indegree v = g.predecessorsIn (todo ++ kept) v := fun v => by
    rw [Sorting.emit, hdeg,
      show Sorting.indegree { s with order := s.order ++ [b] } v = _ from hcount v,
      add_sub_cancel_right]
  have hnext : (s.emit g b).next =
      s.next ++ (g.successorsOf b).filter fun t => s.indegree t = 1 := hnext
  -- a successor of count one has no other predecessor left
  have hfreed : ∀ v, v ∈ (g.successorsOf b).filter (fun t => s.indegree t = 1) ↔
      v ∈ g.successorsOf b ∧ g.predecessorsIn (todo ++ kept) v = 0 := fun v => by
    rw [List.mem_filter, decide_eq_true_iff, hcount]
    refine and_congr_right fun hv => ?_
    rw [if_pos hv]
    omega
  have hold : ∀ v, v ∈ s.next ↔ (g.predecessorsIn (todo ++ kept) v = 0 ∧ v ∉ g.successorsOf b) ∧
      g.predecessorsIn remaining v ≠ 0 := fun v => by
    rw [h.mem_next, List.cons_append, predecessorsIn_cons]
    refine and_congr_left fun _ => ?_
    by_cases hv : v ∈ g.successorsOf b <;> simp [Edge, hv]
  refine ⟨⟨hsize.trans h.sized, hdeg', ?_, fun v => ?_⟩, horder, hwaves⟩
  · rw [hnext]
    refine h.nodup.append ((hg.nodup b).filter _) fun v hv hv' => ?_
    exact ((hold v).1 hv).1.2 ((hfreed v).1 hv').1
  · rw [hnext, List.mem_append, hold, hfreed]
    have hpred : v ∈ g.successorsOf b → g.predecessorsIn remaining v ≠ 0 := fun hv =>
      (predecessorsIn_ne_zero_iff g remaining).2 ⟨b, hsub List.mem_cons_self, hv⟩
    tauto

/-- **The nodes of a wave** one after the other. -/
lemma Within.foldl_emit (hg : g.Proper) (h : Within g remaining todo kept s)
    (hsub : todo ++ kept ⊆ remaining) :
    Within g remaining [] kept (todo.foldl (Sorting.emit g) s) ∧
      (todo.foldl (Sorting.emit g) s).order = s.order ++ todo ∧
      (todo.foldl (Sorting.emit g) s).waves = s.waves := by
  induction todo generalizing s with
  | nil => exact ⟨h, by simp, rfl⟩
  | cons b todo ih =>
    obtain ⟨hstep, horder, hwaves⟩ := h.emit hg hsub
    obtain ⟨hrun, horder', hwaves'⟩ := ih hstep fun v hv => hsub (List.mem_cons_of_mem _ hv)
    refine ⟨hrun, ?_, hwaves'.trans hwaves⟩
    rw [List.foldl_cons, horder', horder, List.append_assoc, List.singleton_append]

/-- Between two waves: the nodes that remain are in ascending order and with a node all its
successors remain, the counts are those among them, and the next layer is due. -/
structure Between (g : Graph) (remaining : List Nat) (s : Sorting) : Prop where
  sized : s.indegrees.size = g.size
  indegree : ∀ v, s.indegree v = g.predecessorsIn remaining v
  next : s.next = g.ready remaining
  ascending : remaining.Pairwise (· < ·)
  closed : ∀ {a v}, a ∈ remaining → g.Edge a v → v ∈ remaining

lemma between_start (hg : g.Proper) : Between g g.nodes (.start g) where
  sized := hg.sized
  indegree := hg.counted
  next := List.filter_congr fun v _ => by simp [hg.counted]
  ascending := List.pairwise_lt_range
  closed := fun _ h => List.mem_range.2 (hg.closed h)

lemma eq_of_mem_iff {l m : List Nat} (hl : l.Pairwise (· < ·)) (hm : m.Pairwise (· < ·))
    (h : ∀ v, v ∈ l ↔ v ∈ m) : l = m :=
  List.Perm.eq_of_pairwise (fun _ _ _ _ hab hba => absurd (hab.trans hba) (lt_irrefl _)) hl hm
    ((List.perm_ext_iff_of_nodup (hl.imp Nat.ne_of_lt) (hm.imp Nat.ne_of_lt)).2 h)

/-- **One wave**: the layer that is due is emitted, and behind it the next one is due. -/
lemma Between.turn (hg : g.Proper) (h : Between g remaining s) :
    Between g (g.blocked remaining) (s.turn g) ∧
      (s.turn g).order = s.order ++ g.ready remaining ∧
      (s.turn g).waves = s.waves ++ [g.ready remaining] := by
  have hperm := ready_append_blocked g remaining
  have hsub : (g.blocked remaining).Sublist remaining := List.filter_sublist
  have hmem : ∀ v, v ∈ g.blocked remaining ↔ v ∈ remaining ∧ g.predecessorsIn remaining v ≠ 0 :=
    fun v => by rw [blocked, List.mem_filter, decide_eq_true_iff]
  have hbegin : Within g remaining (g.ready remaining) (g.blocked remaining)
      { s with waves := s.waves ++ [s.next], next := [] } :=
    ⟨h.sized, fun v => (h.indegree v).trans (by rw [predecessorsIn_perm hperm]), List.nodup_nil,
      fun v => by rw [predecessorsIn_perm hperm]; simp⟩
  obtain ⟨hend, horder, hwaves⟩ := hbegin.foldl_emit hg hperm.subset
  rw [Sorting.turn, h.next]
  rw [h.next] at hend horder hwaves
  refine ⟨⟨hend.sized, fun v => hend.indegree v, ?_, h.ascending.sublist hsub, ?_⟩, horder, hwaves⟩
  · -- sorted, the freed nodes are the layer that comes next
    refine eq_of_mem_iff ?_ ((h.ascending.sublist hsub).sublist List.filter_sublist) fun v => ?_
    · have hle := @List.pairwise_mergeSort Nat (fun a b => decide (a ≤ b))
        (by simpa using fun a b c => Nat.le_trans) (by simpa using Nat.le_total)
        ((g.ready remaining).foldl (Sorting.emit g)
          { s with waves := s.waves ++ [g.ready remaining], next := [] }).next
      have hne := (List.mergeSort_perm _ fun (a b : Nat) => decide (a ≤ b)).nodup_iff.2 hend.nodup
      exact (hle.and hne).imp fun h => Nat.lt_of_le_of_ne (by simpa using h.1) h.2
    · rw [List.mem_mergeSort, hend.mem_next, ready, List.mem_filter, decide_eq_true_iff, hmem]
      constructor
      · rintro ⟨hzero, hne⟩
        obtain ⟨a, ha, hav⟩ := (predecessorsIn_ne_zero_iff g remaining).1 hne
        exact ⟨⟨h.closed ha hav, hne⟩, hzero⟩
      · rintro ⟨⟨-, hne⟩, hzero⟩
        exact ⟨hzero, hne⟩
  · intro a v ha hav
    rw [hmem] at ha ⊢
    exact ⟨h.closed ha.1 hav, (predecessorsIn_ne_zero_iff g remaining).2 ⟨a, ha.1, hav⟩⟩

lemma Between.next_eq_nil_iff (h : Between g remaining s) :
    s.next = [] ↔ ¬ (g.blocked remaining).length < remaining.length := by
  have hlen := (ready_append_blocked g remaining).length_eq
  rw [List.length_append] at hlen
  rw [h.next, ← List.length_eq_zero_iff]
  omega

/-- **All waves** are the layers. -/
lemma Between.run (hg : g.Proper) (h : Between g remaining s) :
    (Sorting.run g s).order = s.order ++ (g.layersOf remaining).1.flatten ∧
      (Sorting.run g s).waves = s.waves ++ (g.layersOf remaining).1 ∧
      Between g (g.layersOf remaining).2 (Sorting.run g s) := by
  fun_induction layersOf g remaining generalizing s with
  | case1 remaining hlt layers rest he ih =>
    obtain ⟨hturn, horder, hwaves⟩ := h.turn hg
    obtain ⟨horder', hwaves', hrest⟩ := ih hturn
    rw [he] at horder' hwaves' hrest
    rw [Sorting.run, if_neg (by simpa [h.next_eq_nil_iff] using hlt)]
    refine ⟨?_, ?_, hrest⟩
    · rw [horder', horder, List.append_assoc, List.flatten_cons]
    · rw [hwaves', hwaves, List.append_assoc, List.singleton_append]
  | case2 remaining hge =>
    rw [Sorting.run, if_pos (h.next_eq_nil_iff.2 hge)]
    exact ⟨by simp, by simp, h⟩

end Sorting

end Wave

/-- **The waves are the layers**, and the nodes that are left are those that stay stuck. -/
theorem Proper.layering_eq (hg : g.Proper) :
    g.layering = ⟨(g.layersOf g.nodes).1.flatten, (g.layersOf g.nodes).1,
      !(g.layersOf g.nodes).2.isEmpty, (g.layersOf g.nodes).2⟩ := by
  obtain ⟨horder, hwaves, hend⟩ := (Sorting.between_start hg).run hg
  have horder : (Sorting.run g (.start g)).order = (g.layersOf g.nodes).1.flatten := horder
  have hwaves : (Sorting.run g (.start g)).waves = (g.layersOf g.nodes).1 := hwaves
  have hlen := (layersOf_perm g g.nodes).length_eq
  rw [List.length_append, nodes, List.length_range, ← nodes] at hlen
  -- an edge leads from a stuck node to the stuck nodes only
  have hleft : g.nodes.filter (fun n => 0 < (Sorting.run g (.start g)).indegree n) =
      (g.layersOf g.nodes).2 := by
    refine Sorting.eq_of_mem_iff (List.pairwise_lt_range.sublist List.filter_sublist) hend.ascending
      fun v => ?_
    have hpos : 0 < (Sorting.run g (.start g)).indegree v ↔
        ∃ a ∈ (g.layersOf g.nodes).2, g.Edge a v := by
      rw [hend.indegree, ← predecessorsIn_ne_zero_iff]
      omega
    rw [List.mem_filter, decide_eq_true_iff, hpos]
    constructor
    · rintro ⟨-, a, ha, hav⟩
      exact hend.closed ha hav
    · intro hv
      obtain ⟨a, ha, hav⟩ := layersOf_stuck g g.nodes hv
      exact ⟨List.mem_range.2 (hg.closed hav), a, ha, hav⟩
  rw [layering, horder, hwaves, hleft]
  cases hrest : (g.layersOf g.nodes).2 with
  | nil =>
    rw [hrest, List.length_nil, Nat.add_zero] at hlen
    rw [if_neg (by simpa using hlen)]
    rfl
  | cons v rest =>
    rw [hrest, List.length_cons] at hlen
    rw [if_pos (by omega)]
    rfl

end Graph

end StateBuffer
