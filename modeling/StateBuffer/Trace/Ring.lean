/-!
A ring: a store of fixed size that keeps the latest values. All slots are there from the start, and
one after the other takes a value; behind the last comes the first again, and from then on each
value takes the place of the oldest.
-/

namespace StateBuffer

/-- A ring. The next value goes into the slot `head`, which is the first one again whenever the last
has been used; `full` tells that this has happened. -/
structure Ring (α : Type) where
  slots : Array α
  head : Nat
  full : Bool
  inside : head < slots.size

namespace Ring

variable {α : Type}

/-- A ring that no value was put into: all slots hold a blank. -/
def blank (capacity : Nat) (blank : α) (h : 0 < capacity) : Ring α where
  slots := .replicate capacity blank
  head := 0
  full := false
  inside := by simpa using h

def push (r : Ring α) (a : α) : Ring α where
  slots := r.slots.set r.head a r.inside
  head := (r.head + 1) % r.slots.size
  full := r.full || (r.head + 1) % r.slots.size = 0
  inside := by simpa using Nat.mod_lt _ (Nat.zero_lt_of_lt r.inside)

/-- The values, oldest first. Before the last slot is used nothing has been overwritten. -/
def toList (r : Ring α) : List α :=
  if r.full then r.slots.toList.drop r.head ++ r.slots.toList.take r.head
  else r.slots.toList.take r.head

/-- Changes the values in place. -/
def map (f : α → α) (r : Ring α) : Ring α where
  slots := r.slots.map f
  head := r.head
  full := r.full
  inside := by simpa using r.inside

end Ring

end StateBuffer
