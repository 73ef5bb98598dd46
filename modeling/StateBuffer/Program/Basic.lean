import StateBuffer.Program.FieldMap
import StateBuffer.Text.Quoted

/-!
Compiled programs: the layout of the state buffer and the shader that fills it. A layout is sound
when every field lies in the buffer and no two fields overlap.
-/

namespace StateBuffer

/-- The state buffer: its size in bytes and its fields by key. -/
structure Buffer where
  size : UInt32
  fields : FieldMap
  deriving DecidableEq, Inhabited

structure Program where
  buffer : Buffer
  shader : Bytes
  deriving DecidableEq, Inhabited

inductive LayoutFault where
  | overlap (key : Bytes)
  | exceeds (key : Bytes) (size : UInt32)
  deriving DecidableEq, Repr

def LayoutFault.message : LayoutFault → Bytes
  | .overlap key => "field " ++ Bytes.quote key ++ " overlaps the previous field"
  | .exceeds key size =>
    "field " ++ Bytes.quote key ++ " exceeds buffer size " ++ Bytes.ofNat size.toNat

namespace Buffer

/-- Fields in ascending order of their offsets; those of one offset keep their order. -/
def sortByOffset (entries : List (Bytes × Field)) : List (Bytes × Field) :=
  entries.mergeSort fun a b => a.2.offset ≤ b.2.offset

def byOffset (b : Buffer) : List (Bytes × Field) := sortByOffset b.fields.entries

/-- Checks fields in ascending order of their offsets, the one before them having ended at
`stop`. -/
def checkFrom (size stop : UInt32) : List (Bytes × Field) → Except LayoutFault Unit
  | [] => .ok ()
  | (key, f) :: rest =>
    if f.offset < stop then .error (.overlap key)
    else if size < f.size ∨ size - f.size < f.offset then .error (.exceeds key size)
    else checkFrom size (f.offset + f.size) rest

/-- Checks fields that come in any order. -/
def checkEntries (size : UInt32) (entries : List (Bytes × Field)) : Except LayoutFault Unit :=
  checkFrom size 0 (sortByOffset entries)

end Buffer

namespace Program

def field? (p : Program) (key : Bytes) : Option Field := p.buffer.fields.get? key

def keys (p : Program) : List Bytes := p.buffer.byOffset.map Prod.fst

/-- Checks that the fields lie in the buffer and do not overlap. -/
def check (p : Program) : Except LayoutFault Unit :=
  Buffer.checkEntries p.buffer.size p.buffer.fields.entries

end Program

end StateBuffer
