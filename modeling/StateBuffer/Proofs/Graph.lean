import Mathlib.Data.Set.Card
import StateBuffer.Proofs.Graph.Waves

/-!
What the order of a graph in layers tells. In a graph without cycles no node is stuck, and the order
is one of all nodes. In any graph the layers are the nodes by the length of their longest path, and
the stuck nodes those on or behind a cycle.
-/

namespace StateBuffer

namespace Graph

open Relation

variable {g : Graph}

/-- **The order of a graph without cycles** has every node once, after all its predecessors. -/
theorem layering_order (hg : g.Proper) (hacyclic : ∀ a, ¬ TransGen g.Edge a a) :
    g.layering.isCyclic = false ∧ g.layering.order.Perm (List.range g.size) ∧
      ∀ {a b before after}, g.layering.order = before ++ b :: after → g.Edge a b → a ∈ before := by
  have hstuck : (g.layersOf g.nodes).2 = [] := by
    by_contra hne
    obtain ⟨a, ha⟩ := exists_transGen_self hne fun b hb => layersOf_stuck g g.nodes hb
    exact hacyclic a ha
  have hperm := layersOf_perm g g.nodes
  rw [hstuck, List.append_nil] at hperm
  rw [hg.layering_eq]
  refine ⟨by simp [hstuck], hperm, fun {a b before after} hb hab => ?_⟩
  exact layersOf_before g g.nodes hb hab (List.mem_range.2 hab.lt_size)

lemma Proper.indegree_eq (hg : g.Proper) (v : Nat) : g.indegree v = {a | g.Edge a v}.ncard := by
  have hset : {a | g.Edge a v} = ((g.nodes.filter fun a => g.Edge a v).toFinset : Set Nat) := by
    ext a
    simpa [nodes] using fun h : g.Edge a v => h.lt_size
  have hnodup : (g.nodes.filter fun a => g.Edge a v).Nodup := List.nodup_range.filter _
  rw [hg.counted, predecessorsIn, hset, Set.ncard_coe_finset, List.toFinset_card_of_nodup hnodup,
    List.countP_eq_length_filter]

/-- What a layering tells about the cycles and the paths of its graph. -/
structure Layering.Sound (g : Graph) (l : Layering) : Prop where
  isCyclic : l.isCyclic = true ↔ ∃ v, TransGen g.Edge v v
  mem_order : ∀ v, v ∈ l.order ↔ v < g.size ∧ ¬ g.Behind v
  nodup_order : l.order.Nodup
  before : ∀ a b before after, l.order = before ++ b :: after → g.Edge a b → a ∈ before
  mem_stuck : ∀ v, v ∈ l.stuck ↔ v < g.size ∧ g.Behind v
  ascending_stuck : l.stuck.Pairwise (· < ·)
  order_eq : l.order = l.layers.flatten
  ascending : ∀ layer ∈ l.layers, layer.Pairwise (· < ·) ∧ layer ≠ []
  mem_layer : ∀ k v, v ∈ l.layers.getD k [] ↔ IsGreatest {m | g.PathTo m v} k

lemma Proper.sound (hg : g.Proper) : g.layering.Sound g := by
  have hrem : ∀ v, v ∈ g.nodes ↔ g.PathTo 0 v := fun v => by
    rw [nodes, List.mem_range]
    exact ⟨.start, fun h => h.lt_size hg.closed⟩
  have hstuck := mem_stuck_iff hg.closed hrem
  have hbehind : ∀ {v}, g.Behind v → v < g.size := fun h =>
    (h.pathTo hg.closed 0).lt_size hg.closed
  have hperm := layersOf_perm g g.nodes
  have hnodup := hperm.nodup_iff.2 List.nodup_range
  obtain ⟨hlayers, hsub⟩ := layersOf_sublist g g.nodes
  have hascending : g.nodes.Pairwise (· < ·) := List.pairwise_lt_range
  rw [hg.layering_eq]
  refine ⟨?_, fun v => ?_, (List.nodup_append.1 hnodup).1, fun a b before after hsplit hab => ?_,
    fun v => ?_, hascending.sublist hsub, rfl, fun layer hlayer => ?_, fun k v => ?_⟩
  · rw [Bool.not_eq_true', List.isEmpty_eq_false_iff_exists_mem]
    constructor
    · rintro ⟨v, hv⟩
      obtain ⟨c, hc, -⟩ := (hstuck v).1 hv
      exact ⟨c, hc⟩
    · rintro ⟨c, hc⟩
      exact ⟨c, (hstuck c).2 ⟨c, hc, .refl⟩⟩
  · have hmem : v < g.size ↔ v ∈ (g.layersOf g.nodes).1.flatten ∨ g.Behind v := by
      rw [← hstuck, ← List.mem_range]
      exact hperm.mem_iff.symm.trans List.mem_append
    have hapart : v ∈ (g.layersOf g.nodes).1.flatten → ¬ g.Behind v := fun hv hb =>
      (List.nodup_append.1 hnodup).2.2 v hv v ((hstuck v).2 hb) rfl
    rw [hmem]
    tauto
  · exact layersOf_before g g.nodes hsplit hab (List.mem_range.2 hab.lt_size)
  · exact (hstuck v).trans ⟨fun h => ⟨hbehind h, h⟩, fun h => h.2⟩
  · exact ⟨hascending.sublist (hlayers layer hlayer).1, (hlayers layer hlayer).2⟩
  · have hlayer := mem_layersOf_iff hg.closed hrem k v
    rw [Nat.zero_add] at hlayer
    exact hlayer

lemma sort_eq_ok (h : g.size ≤ 2 ^ 32) : g.sort = .ok g.layering :=
  if_neg (Nat.not_lt.2 h)

/-- **Every graph in layers.** For every sequence of edges between nodes, repetitions and loops
included: the edges are those of the sequence and the degree of a node counts its distinct
predecessors; a node is in the `k`-th layer exactly if the longest path to it has `k` edges, and
stuck exactly if it is on or behind a cycle. These layers are what sorting gives as long as the
numbers of nodes are words of 32 bits. -/
theorem layering_of_edges (n : Nat) (calls : List (Nat × Nat))
    (hrange : ∀ e ∈ calls, e.1 < n ∧ e.2 < n) :
    ∃ g, calls.foldlM (fun g e => g.addEdge e.1 e.2) (empty n) = .ok g ∧ g.size = n ∧
      (∀ a b, g.Edge a b ↔ (a, b) ∈ calls) ∧
      (∀ v, g.indegree v = {a | (a, v) ∈ calls}.ncard) ∧
      (n ≤ 2 ^ 32 → g.sort = .ok g.layering) ∧ g.layering.Sound g := by
  obtain ⟨g, hfold, hsize, hg, hedge⟩ := addAll_ok (proper_empty n)
    (by rwa [size_empty])
  rw [size_empty] at hsize
  have hedge' : ∀ a b, g.Edge a b ↔ (a, b) ∈ calls := fun a b => by
    rw [hedge]
    simp [edge_empty]
  refine ⟨g, hfold, hsize, hedge', fun v => ?_, fun hn => sort_eq_ok (hsize.trans_le hn), hg.sound⟩
  rw [hg.indegree_eq]
  simp only [hedge']

/-- Edges with a repetition, a loop and a node behind it. -/
def looped : List (Nat × Nat) := [(0, 1), (0, 1), (1, 2), (0, 2), (3, 3), (5, 4), (3, 4)]

theorem layering_of_edges_looped :
    (∀ e ∈ looped, e.1 < 6 ∧ e.2 < 6) ∧
      ∃ g, looped.foldlM (fun g e => g.addEdge e.1 e.2) (empty 6) = .ok g ∧
        g.sort = .ok ⟨[0, 5, 1, 2], [[0, 5], [1], [2]], true, [3, 4]⟩ ∧ g.layering.Sound g := by
  have hrange : ∀ e ∈ looped, e.1 < 6 ∧ e.2 < 6 := by decide
  obtain ⟨g, hfold, -, -, -, -, hsound⟩ := layering_of_edges 6 looped hrange
  refine ⟨hrange, g, hfold, ?_, hsound⟩
  have hg : g = ⟨#[[1, 2], [2], [], [3, 4], [], [4]], #[0, 1, 2, 1, 2, 0]⟩ :=
    (Except.ok.inj hfold).symm
  subst hg
  decide +kernel

end Graph

end StateBuffer
