import StateBuffer.Resolution.Basic

/-!
What a definition depends on. Every initializer refers to one definition at most, so dependencies
form a chain: it ends at a literal or an unbound name, returns to the definition it started from, or
runs into a cycle further on.
-/

namespace StateBuffer

/-- The references that lead from a definition back to itself; the last one refers to it. -/
structure Cycle where
  stack : List Span
  deriving DecidableEq, Repr, Inhabited

namespace Cycle

def head (c : Cycle) : Span := c.stack.headD Span.none

/-- Is no reference of the cycle before the first one? Of all definitions on a cycle this holds
for one only. -/
def isReported (c : Cycle) : Bool := c.stack.all fun s => !s.before c.head

end Cycle

/-- The dependencies of `root` found so far in order, and the references on the way to here. -/
structure Dependencies where
  root : ItemId
  items : List ItemId
  stack : List Span
  deriving DecidableEq, Repr, Inhabited

/-- What a further dependency turned out to be. -/
inductive Discovery where
  | fresh
  | known
  | cycle (c : Cycle)
  deriving DecidableEq, Repr, Inhabited

namespace Dependencies

/-- Nothing found yet. -/
def start (root : ItemId) : Dependencies := ⟨root, [], []⟩

/-- Goes along a reference to an item. -/
def register (d : Dependencies) (span : Span) (item : ItemId) : Discovery × Dependencies :=
  let d := { d with stack := d.stack ++ [span] }
  if item = d.root then (.cycle ⟨d.stack⟩, d)
  else if item ∈ d.items then (.known, d)
  else (.fresh, { d with items := d.items ++ [item] })

/-- Without the last reference on the way. -/
def back (d : Dependencies) : Dependencies := { d with stack := d.stack.dropLast }

/-- Goes back along the last reference. -/
def pop (d : Dependencies) : Except Fault Dependencies :=
  if d.stack.isEmpty then .error .indexOutOfRange else .ok d.back

def contains (d : Dependencies) (item : ItemId) : Bool := item ∈ d.items

end Dependencies

namespace Resolution

/-- Follows references from an item for at most `fuel` steps. Whoever went along a reference goes
back along it, unless it closed a cycle. -/
def walk (r : Resolution) : Nat → Dependencies → ItemId → Except Cycle Dependencies
  | 0, d, _ => .ok d
  | fuel + 1, d, item =>
    match r.follow? item with
    | none => .ok d
    | some (span, target) =>
      match d.register span target.item with
      | (.cycle c, _) => .error c
      | (.known, d) => .ok d.back
      | (.fresh, d) => (r.walk fuel d target.item).map Dependencies.back

/-- All dependencies of an item, or the cycle through it. No chain meets more items than there
are before it repeats one. -/
def dependencies (r : Resolution) (item : ItemId) : Except Cycle Dependencies :=
  r.walk (r.tree.items.size + 1) (Dependencies.start item) item

end Resolution

end StateBuffer
