import Std.Data.HashMap
import StateBuffer.Fault

/-!
A table of names in which every name has one number. Number zero is the empty name; the others
count up from one in the order in which names were first seen. Numbers are words of 32 bits.
-/

namespace StateBuffer

/-- Names by number, and numbers by name. -/
structure Interner where
  names : Array Bytes
  index : Std.HashMap Bytes UInt32

namespace Interner

/-- The table that holds the empty name only. -/
def empty : Interner := ⟨#[[]], (∅ : Std.HashMap Bytes UInt32).insert [] 0⟩

instance : Inhabited Interner := ⟨empty⟩

/-- The number of a name, which enters the table if it is new. -/
def intern (t : Interner) (name : Bytes) : UInt32 × Interner :=
  match t.index[name]? with
  | some id => (id, t)
  | none =>
    let id := t.names.size.toUInt32
    (id, ⟨t.names.push name, t.index.insert name id⟩)

def lookup? (t : Interner) (id : UInt32) : Option Bytes := t.names[id.toNat]?

/-- The name of a number that is in use. -/
def lookup (t : Interner) (id : UInt32) : Except Fault Bytes :=
  match t.lookup? id with
  | some name => .ok name
  | none => .error (.noSuchName id.toNat)

def size (t : Interner) : Nat := t.names.size

/-- The table after names were seen in order. -/
def internAll (t : Interner) (names : List Bytes) : Interner :=
  names.foldl (fun t name => (t.intern name).2) t

end Interner

end StateBuffer
