import Mathlib.Data.Set.Finite.List
import Mathlib.Logic.Relation
import Mathlib.Order.Bounds.Defs
import Mathlib.Order.WellFounded
import Mathlib.Tactic.Common
import StateBuffer.Graph

/-!
The layers of a graph, taken off one after the other. Among the nodes that remain those without a
predecessor are the next layer; where every remaining node has one, all of them are stuck. A node
comes after all its predecessors, and a stuck node has a stuck predecessor, so that there is a
cycle.

The nodes that are left after `k` layers are those at the end of a path of `k` edges. From this the
layers are the nodes by the length of their longest path, and the stuck nodes those on or behind a
cycle, which have paths of every length.
-/

namespace StateBuffer

namespace Graph

open Relation

def Edge (g : Graph) (a b : Nat) : Prop := b ∈ g.successorsOf a

instance (g : Graph) (a b : Nat) : Decidable (g.Edge a b) :=
  inferInstanceAs (Decidable (b ∈ g.successorsOf a))

/-- How many of these have an edge to a node. -/
def predecessorsIn (g : Graph) (others : List Nat) (node : Nat) : Nat :=
  others.countP fun a => g.Edge a node

/-- The nodes without predecessors among the remaining ones. -/
def ready (g : Graph) (remaining : List Nat) : List Nat :=
  remaining.filter fun n => g.predecessorsIn remaining n = 0

/-- The nodes with a predecessor among the remaining ones. -/
def blocked (g : Graph) (remaining : List Nat) : List Nat :=
  remaining.filter fun n => g.predecessorsIn remaining n ≠ 0

/-- The layers of the remaining nodes, and the nodes that never become ready. -/
def layersOf (g : Graph) (remaining : List Nat) : List (List Nat) × List Nat :=
  if (g.blocked remaining).length < remaining.length then
    let (layers, rest) := g.layersOf (g.blocked remaining)
    (g.ready remaining :: layers, rest)
  else ([], remaining)
termination_by remaining.length

/-! ### Layers -/

section Layers

variable (g : Graph) (remaining : List Nat)

lemma predecessorsIn_ne_zero_iff {v : Nat} :
    g.predecessorsIn remaining v ≠ 0 ↔ ∃ a ∈ remaining, g.Edge a v := by
  simp [predecessorsIn]

lemma ready_append_blocked : (g.ready remaining ++ g.blocked remaining).Perm remaining := by
  have h := List.filter_append_perm (fun n => g.predecessorsIn remaining n = 0) remaining
  unfold ready blocked
  simpa using h

lemma layersOf_perm :
    ((g.layersOf remaining).1.flatten ++ (g.layersOf remaining).2).Perm remaining := by
  fun_induction layersOf g remaining with
  | case1 remaining hlt layers rest he ih =>
    rw [he] at ih
    rw [List.flatten_cons, List.append_assoc]
    exact (ih.append_left _).trans (ready_append_blocked g remaining)
  | case2 => simp

lemma layersOf_stuck {b : Nat} (hb : b ∈ (g.layersOf remaining).2) :
    ∃ a ∈ (g.layersOf remaining).2, g.Edge a b := by
  fun_induction layersOf g remaining with
  | case1 remaining hlt layers rest he ih =>
    rw [he] at ih
    exact ih hb
  | case2 remaining hlt =>
    have hlen := List.length_filter_le (fun n => g.predecessorsIn remaining n ≠ 0) remaining
    have hall := List.length_filter_eq_length_iff.1 (Nat.le_antisymm hlen (Nat.not_lt.1 hlt))
    exact (predecessorsIn_ne_zero_iff g remaining).1 (of_decide_eq_true (hall b hb))

/-- **Predecessors come first.** -/
lemma layersOf_before {a b : Nat} {before after : List Nat}
    (hsplit : (g.layersOf remaining).1.flatten = before ++ b :: after) (hab : g.Edge a b)
    (ha : a ∈ remaining) : a ∈ before := by
  fun_induction layersOf g remaining generalizing before with
  | case1 remaining hlt layers rest he ih =>
    rw [he] at ih
    rw [List.flatten_cons, List.append_eq_append_iff] at hsplit
    rcases hsplit with ⟨l, rfl, hl⟩ | ⟨l, hl, hafter⟩
    · have ha' := (ready_append_blocked g remaining).mem_iff.2 ha
      rcases List.mem_append.1 ha' with ha' | ha'
      · exact List.mem_append_left _ ha'
      · exact List.mem_append_right _ (ih hl ha')
    · -- a node of this layer has no predecessor left
      cases l with
      | nil =>
        rw [List.append_nil] at hl
        have ha' := (ready_append_blocked g remaining).mem_iff.2 ha
        rcases List.mem_append.1 ha' with ha' | ha'
        · rwa [hl] at ha'
        · have hnil : a ∈ ([] : List Nat) := ih hafter.symm ha'
          simp at hnil
      | cons c l =>
        obtain ⟨rfl, -⟩ := List.cons.inj hafter
        have hb : b ∈ g.ready remaining := by rw [hl]; simp
        have hfree := of_decide_eq_true (List.mem_filter.1 hb).2
        exact absurd hfree ((predecessorsIn_ne_zero_iff g remaining).2 ⟨a, ha, hab⟩)
  | case2 => simp at hsplit

end Layers

/-! ### Graphs without cycles -/

lemma exists_transGen_self {α : Type} {before : α → α → Prop} {l : List α} (hne : l ≠ [])
    (h : ∀ b ∈ l, ∃ a ∈ l, before a b) : ∃ a, TransGen before a a := by
  by_contra hno
  let within : {x // x ∈ l} → {x // x ∈ l} → Prop := fun a b => TransGen before a b
  have : IsTrans {x // x ∈ l} within := ⟨fun _ _ _ hab hbc => TransGen.trans hab hbc⟩
  have : Finite {x // x ∈ l} := l.finite_toSet.to_subtype
  have : Std.Irrefl within := ⟨fun a ha => hno ⟨a, ha⟩⟩
  obtain ⟨b, hb⟩ := List.exists_mem_of_ne_nil l hne
  obtain ⟨least, -, hleast⟩ := (Finite.wellFounded_of_trans_of_irrefl within).has_min Set.univ
    ⟨⟨b, hb⟩, trivial⟩
  obtain ⟨a, ha, hedge⟩ := h least least.2
  exact hleast ⟨a, ha⟩ trivial (.single hedge)

variable {g : Graph}

/-! ### Paths -/

/-- A path of so many edges ends in a node. -/
inductive PathTo (g : Graph) : Nat → Nat → Prop
  | start {a : Nat} : a < g.size → PathTo g 0 a
  | edge {k a b : Nat} : PathTo g k a → g.Edge a b → PathTo g (k + 1) b

/-- A node on a cycle or reachable from one. -/
def Behind (g : Graph) (v : Nat) : Prop :=
  ∃ c, TransGen g.Edge c c ∧ ReflTransGen g.Edge c v

lemma Edge.lt_size {a b : Nat} (h : g.Edge a b) : a < g.size := by
  by_contra hge
  have hnone : g.successors[a]? = none := Array.getElem?_eq_none (Nat.not_lt.1 hge)
  rw [Edge, successorsOf, Array.getD_eq_getD_getElem?, hnone] at h
  simp at h

/-- All edges are between nodes. -/
def Closed (g : Graph) : Prop := ∀ {a b}, g.Edge a b → b < g.size

section Paths

variable {k m v : Nat}

lemma PathTo.lt_size (hg : g.Closed) (h : g.PathTo k v) : v < g.size := by
  cases h with
  | start hv => exact hv
  | edge _ hab => exact hg hab

lemma PathTo.pred (hg : g.Closed) (h : g.PathTo (k + 1) v) : g.PathTo k v := by
  induction k generalizing v with
  | zero => exact .start (h.lt_size hg)
  | succ k ih =>
    cases h with
    | edge ha hab => exact .edge (ih ha) hab

lemma PathTo.mono (hg : g.Closed) (h : g.PathTo m v) (hkm : k ≤ m) : g.PathTo k v := by
  induction m, hkm using Nat.le_induction with
  | base => exact h
  | succ m _ ih => exact ih (h.pred hg)

lemma isGreatest_pathTo_iff (hg : g.Closed) :
    IsGreatest {m | g.PathTo m v} k ↔ g.PathTo k v ∧ ¬ g.PathTo (k + 1) v := by
  constructor
  · rintro ⟨hk, hbound⟩
    refine ⟨hk, fun h => ?_⟩
    have := hbound h
    omega
  · rintro ⟨hk, hnext⟩
    refine ⟨hk, fun m hm => ?_⟩
    by_contra hlt
    exact hnext (PathTo.mono hg hm (by omega))

lemma PathTo.transGen {a : Nat} (hg : g.Closed) (h : g.PathTo k a) (hab : TransGen g.Edge a v) :
    g.PathTo (k + 1) v := by
  induction hab with
  | single hab => exact .edge h hab
  | tail _ hbc ih => exact .edge (ih.pred hg) hbc

lemma Behind.pathTo (hg : g.Closed) (h : g.Behind v) (k : Nat) : g.PathTo k v := by
  obtain ⟨c, hc, hcv⟩ := h
  have hcycle : g.PathTo k c := by
    induction k with
    | zero =>
      obtain ⟨b, hcb, -⟩ := TransGen.head'_iff.1 hc
      exact .start (hcb.lt_size)
    | succ k ih => exact ih.transGen hg hc
  induction hcv with
  | refl => exact hcycle
  | tail _ hab ih => exact (PathTo.edge ih hab).pred hg

end Paths

/-! ### Layers by longest paths -/

section Longest

variable {remaining : List Nat} {k : Nat}

/-- One layer: what is left after it are the nodes at the end of a path with one more edge. -/
lemma mem_blocked_iff (hg : g.Closed) (hrem : ∀ v, v ∈ remaining ↔ g.PathTo k v) (v : Nat) :
    v ∈ g.blocked remaining ↔ g.PathTo (k + 1) v := by
  rw [blocked, List.mem_filter, decide_eq_true_iff, predecessorsIn_ne_zero_iff, hrem]
  constructor
  · rintro ⟨-, a, ha, hav⟩
    exact .edge ((hrem a).1 ha) hav
  · intro h
    refine ⟨h.pred hg, ?_⟩
    cases h with
    | edge ha hav => exact ⟨_, (hrem _).2 ha, hav⟩

lemma mem_ready_iff (hg : g.Closed) (hrem : ∀ v, v ∈ remaining ↔ g.PathTo k v) (v : Nat) :
    v ∈ g.ready remaining ↔ IsGreatest {m | g.PathTo m v} k := by
  have hblocked := mem_blocked_iff hg hrem v
  rw [blocked, List.mem_filter, hrem] at hblocked
  rw [isGreatest_pathTo_iff hg, ← hblocked, ready, List.mem_filter, hrem]
  simp +contextual

/-- A stuck node is behind a cycle: going back from it there is always a stuck predecessor. -/
lemma behind_of_stuck {v : Nat} (hv : v ∈ (g.layersOf remaining).2) : g.Behind v := by
  classical
  let before : Nat → Nat → Prop := fun a b => g.Edge a b ∧ ReflTransGen g.Edge b v
  let back := (g.layersOf remaining).2.filter fun b => decide (ReflTransGen g.Edge b v)
  have hback : ∀ b, b ∈ back ↔ b ∈ (g.layersOf remaining).2 ∧ ReflTransGen g.Edge b v :=
    fun b => by simp [back]
  obtain ⟨c, hc⟩ : ∃ c, TransGen before c c := by
    refine exists_transGen_self (List.ne_nil_of_mem ((hback v).2 ⟨hv, .refl⟩)) fun b hb => ?_
    obtain ⟨hb, hbv⟩ := (hback b).1 hb
    obtain ⟨a, ha, hab⟩ := layersOf_stuck g remaining hb
    exact ⟨a, (hback a).2 ⟨ha, .head hab hbv⟩, hab, hbv⟩
  obtain ⟨-, -, -, hcv⟩ := TransGen.tail'_iff.1 hc
  have hle : before ≤ g.Edge := fun _ _ h => h.1
  exact ⟨c, TransGen.mono hle c c hc, hcv⟩

/-- **The stuck nodes** are those behind a cycle. -/
lemma mem_stuck_iff (hg : g.Closed) (hrem : ∀ v, v ∈ remaining ↔ g.PathTo k v) (v : Nat) :
    v ∈ (g.layersOf remaining).2 ↔ g.Behind v := by
  refine ⟨behind_of_stuck, fun hv => ?_⟩
  fun_induction layersOf g remaining generalizing k with
  | case1 remaining hlt layers rest he ih =>
    rw [he] at ih
    exact ih (mem_blocked_iff hg hrem)
  | case2 remaining hlt => exact (hrem v).2 (hv.pathTo hg k)

/-- **The layers from the `k`-th on**, where the nodes at the end of a path of `k` edges remain. -/
lemma mem_layersOf_iff (hg : g.Closed) (hrem : ∀ v, v ∈ remaining ↔ g.PathTo k v) (j v : Nat) :
    v ∈ (g.layersOf remaining).1.getD j [] ↔ IsGreatest {m | g.PathTo m v} (k + j) := by
  fun_induction layersOf g remaining generalizing k j with
  | case1 remaining hlt layers rest he ih =>
    rw [he] at ih
    cases j with
    | zero => exact mem_ready_iff hg hrem v
    | succ j =>
      rw [List.getD_cons_succ, ih (mem_blocked_iff hg hrem) j, Nat.add_right_comm, Nat.add_assoc]
  | case2 remaining hlt =>
    -- no layer is left, and what remains is stuck
    have hstuck := mem_stuck_iff hg hrem v
    rw [layersOf, if_neg hlt, hrem] at hstuck
    rw [isGreatest_pathTo_iff hg]
    simp only [List.getD_nil, List.not_mem_nil, false_iff, not_and, not_not]
    intro h
    exact (hstuck.1 (h.mono hg (by omega))).pathTo hg _

lemma layersOf_sublist (g : Graph) (remaining : List Nat) :
    (∀ layer ∈ (g.layersOf remaining).1, layer.Sublist remaining ∧ layer ≠ []) ∧
      (g.layersOf remaining).2.Sublist remaining := by
  fun_induction layersOf g remaining with
  | case1 remaining hlt layers rest he ih =>
    rw [he] at ih
    have hblocked : (g.blocked remaining).Sublist remaining := List.filter_sublist
    refine ⟨fun layer hlayer => ?_, ih.2.trans hblocked⟩
    rcases List.mem_cons.1 hlayer with rfl | hlayer
    · refine ⟨List.filter_sublist, fun hnil => ?_⟩
      have hlen := (ready_append_blocked g remaining).length_eq
      rw [hnil, List.nil_append] at hlen
      omega
    · exact ⟨(ih.1 layer hlayer).1.trans hblocked, (ih.1 layer hlayer).2⟩
  | case2 remaining hlt => simp

end Longest

end Graph

end StateBuffer
