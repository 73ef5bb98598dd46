import StateBuffer.Fault

/-!
Directed graphs on the numbers below a bound, and their order in layers: first the nodes without
predecessors, then those whose predecessors are all in earlier layers, and so on. Nodes that lie on
a cycle or behind one end up in no layer.

A graph keeps for every node the list of its successors and the number of edges that lead to it.
Sorting goes in waves: a node that is emitted is taken off the count of each of its successors, and
a successor whose count comes down to zero belongs to the next wave.
-/

namespace StateBuffer

/-- A graph: for each node its successors without repetition, in the order in which the edges came,
and how many edges lead to it. -/
structure Graph where
  successors : Array (List Nat)
  indegrees : Array Int
  deriving DecidableEq, Repr, Inhabited

namespace Graph

def empty (size : Nat) : Graph := ⟨.replicate size [], .replicate size 0⟩

def size (g : Graph) : Nat := g.successors.size

def nodes (g : Graph) : List Nat := List.range g.size

def successorsOf (g : Graph) (node : Nat) : List Nat := g.successors.getD node []

def indegree (g : Graph) (node : Nat) : Int := g.indegrees.getD node 0

/-- Adds an edge unless it is there. -/
def addEdge (g : Graph) (source target : Nat) : Except Fault Graph :=
  if g.size ≤ source ∨ g.size ≤ target then .error (.edgeOutOfRange source target g.size)
  else if target ∈ g.successorsOf source then .ok g
  else .ok {
    successors := g.successors.setIfInBounds source (g.successorsOf source ++ [target])
    indegrees := g.indegrees.setIfInBounds target (g.indegree target + 1) }

/-- A sort under way: the nodes emitted so far, in order and by waves; for each node the number of
edges from nodes that are not emitted yet; and what is known of the next wave. -/
structure Sorting where
  order : List Nat
  waves : List (List Nat)
  indegrees : Array Int
  next : List Nat
  deriving DecidableEq, Repr

namespace Sorting

def indegree (s : Sorting) (node : Nat) : Int := s.indegrees.getD node 0

/-- Takes one edge off the count of its target. -/
def release (s : Sorting) (target : Nat) : Sorting :=
  let left := s.indegree target - 1
  { s with
    indegrees := s.indegrees.setIfInBounds target left
    next := if left = 0 then s.next ++ [target] else s.next }

def emit (g : Graph) (s : Sorting) (node : Nat) : Sorting :=
  (g.successorsOf node).foldl release { s with order := s.order ++ [node] }

/-- Emits the wave that is due and puts the next one in ascending order. -/
def turn (g : Graph) (s : Sorting) : Sorting :=
  let s := s.next.foldl (emit g) { s with waves := s.waves ++ [s.next], next := [] }
  { s with next := s.next.mergeSort }

/-- How many nodes may still be emitted: those that are due and those whose count may yet come down
to zero. -/
def pending (s : Sorting) : Nat := s.indegrees.countP (0 < ·) + s.next.length

theorem pending_release (s : Sorting) (target : Nat) : (s.release target).pending ≤ s.pending := by
  rcases Nat.lt_or_ge target s.indegrees.size with h | h
  · have hat : s.indegree target = s.indegrees[target] := by simp [indegree, h]
    have hcount := Array.boole_getElem_le_countP (p := fun (d : Int) => decide (0 < d)) h
    simp only [pending, release, Array.setIfInBounds_def, dif_pos h, Array.countP_set h]
    grind
  · have hat : s.indegree target = 0 := by simp [indegree, h]
    simp [pending, release, Array.setIfInBounds_def, Nat.not_lt.2 h, hat]

theorem pending_emit (g : Graph) (s : Sorting) (node : Nat) :
    (s.emit g node).pending ≤ s.pending := by
  suffices h : ∀ (targets : List Nat) (s : Sorting),
      (targets.foldl release s).pending ≤ s.pending from h _ _
  intro targets
  induction targets with
  | nil => exact fun s => Nat.le_refl _
  | cons target targets ih => exact fun s => Nat.le_trans (ih _) (pending_release s target)

/-- A wave that is emitted is not pending any more. -/
theorem pending_turn (g : Graph) (s : Sorting) :
    (s.turn g).pending + s.next.length ≤ s.pending := by
  suffices h : ∀ (wave : List Nat) (s : Sorting),
      (wave.foldl (emit g) s).pending ≤ s.pending by
    have hwave := h s.next { s with waves := s.waves ++ [s.next], next := [] }
    simp only [pending, turn, List.length_mergeSort, List.length_nil] at hwave ⊢
    omega
  intro wave
  induction wave with
  | nil => exact fun s => Nat.le_refl _
  | cons node wave ih => exact fun s => Nat.le_trans (ih _) (pending_emit g s node)

/-- Emits one wave after the other until none is due. -/
def run (g : Graph) (s : Sorting) : Sorting :=
  if s.next = [] then s else run g (s.turn g)
termination_by s.pending
decreasing_by
  have := pending_turn g s
  have := List.length_pos_iff.2 ‹s.next ≠ []›
  omega

/-- A sort at its beginning: the nodes that no edge leads to are due. -/
def start (g : Graph) : Sorting := ⟨[], [], g.indegrees, g.nodes.filter fun n => g.indegree n = 0⟩

end Sorting

/-- A graph in layers. -/
structure Layering where
  /-- The nodes of all layers in order. -/
  order : List Nat
  layers : List (List Nat)
  isCyclic : Bool
  /-- The nodes on or behind cycles, in ascending order. -/
  stuck : List Nat
  deriving DecidableEq, Repr, Inhabited

/-- The layers of a graph. If not all nodes were emitted then the others are those that an edge from
one of them still leads to. -/
def layering (g : Graph) : Layering :=
  let s := Sorting.run g (.start g)
  if s.order.length ≠ g.size then
    ⟨s.order, s.waves, true, g.nodes.filter fun n => 0 < s.indegree n⟩
  else ⟨s.order, s.waves, false, []⟩

/-- Sorts a graph whose nodes have numbers of 32 bits. In a larger one no edge leads to node
`2 ^ 32`, so it would be due at once, under a number that is too large. -/
def sort (g : Graph) : Except Fault Layering :=
  if UInt32.size < g.size then .error .tooManyNodes else .ok g.layering

end Graph

end StateBuffer
