import StateBuffer.Machine.Error
import StateBuffer.Program.Basic
import StateBuffer.Shader.Tree

/-!
A machine that runs initialization shaders without a graphics device. It knows one struct of 32-bit
members in a storage buffer and an entry point of plain assignments, and refuses everything else.
Reading a member that was not assigned in the same run is an error.
-/

namespace StateBuffer

namespace Memory

/-- The bytes of a 32-bit integer, least significant first. -/
def encode32 (value : Int32) : Bytes :=
  let bits := value.toUInt32.toNat
  [bits.toUInt8, (bits / 256).toUInt8, (bits / 65536).toUInt8, (bits / 16777216).toUInt8]

/-- The 32-bit integer of four bytes, least significant first. -/
def decode32 (bytes : Bytes) : Int32 :=
  let bits := bytes.foldr (fun b n => n * 256 + b.toNat) 0
  bits.toUInt32.toInt32

def load (memory : Bytes) (offset : Nat) : Int32 := decode32 ((memory.drop offset).take 4)

/-- The memory with an integer stored at an offset. -/
def store (memory : Bytes) (offset : Nat) (value : Int32) : Bytes :=
  memory.take offset ++ encode32 value ++ memory.drop (offset + 4)

end Memory

/-- A machine: its program, the offsets of the struct's members, the statements of the entry point,
the buffer, the offsets assigned in this run, and how many statements were executed in all runs. -/
structure Machine where
  program : Program
  offsets : List (Bytes × Nat)
  body : List Wgsl.Stmt
  memory : Bytes
  assigned : List Nat
  steps : Nat

namespace Machine

def bufferName : Bytes := "b"

def structName : Bytes := "Buffer"

def entryPoint : Bytes := "main"

def cellType : Bytes := "i32"

def cellSize : Nat := 4

def zeroed (p : Program) : Bytes := List.replicate p.buffer.size.toNat 0

/-- The members of the struct with their offsets, from member number `i` on. -/
def placeMembers (size : Nat) : Nat → List Wgsl.Member → Except Trap (List (Bytes × Nat))
  | _, [] => .ok []
  | i, m :: rest =>
    if m.type.name? ≠ some cellType then .error (.memberType m.name)
    else if size < i * cellSize + cellSize then
      .error (.memberOutside m.name (i * cellSize) size)
    else do
      let more ← placeMembers size (i + 1) rest
      return (m.name, i * cellSize) :: more

/-- A machine for a program whose shader has a given tree. Of several structs with the buffer's
name the last counts, of several entry points the first. -/
def load (p : Program) (tree : Wgsl.ModuleTree) : Except Trap Machine := do
  let buffer ← match tree.structs.reverse.find? fun s => s.name = structName with
    | some s => pure s
    | none => .error .noStruct
  let offsets ← placeMembers p.buffer.size.toNat 0 buffer.members
  match tree.functions.find? fun f => f.name = entryPoint with
  | some f => return ⟨p, offsets, f.body, zeroed p, [], 0⟩
  | none => .error .noEntryPoint

/-- A machine for a program, whose shader is read by a reader. The shader of an empty buffer is not
looked at. -/
def ofProgramBy (reader : Bytes → Option Wgsl.ModuleTree) (p : Program) :
    Except MachineError Machine :=
  if p.buffer.size = 0 then .ok ⟨p, [], [], [], [], 0⟩
  else
    match reader p.shader with
    | none => .error ⟨.unreadable, none⟩
    | some tree =>
      match load p tree with
      | .ok m => .ok m
      | .error t => .error ⟨t, none⟩

/-- The offset of a member; the last of one name counts. -/
def offset? (m : Machine) (name : Bytes) : Option Nat :=
  (m.offsets.reverse.find? fun o => o.1 = name).map Prod.snd

def read (m : Machine) (key : Bytes) : Except MachineError Int32 :=
  match m.program.field? key with
  | none => .error ⟨.unknownField key, none⟩
  | some f =>
    if f.size ≠ 4 then .error ⟨.fieldSize key f.size, none⟩
    else if m.memory.length < f.offset.toNat + cellSize then .error ⟨.fieldOutside key, none⟩
    else .ok (Memory.load m.memory f.offset.toNat)

/-- The values of all fields in the order of their offsets. -/
def snapshot (m : Machine) : Except MachineError (List (Bytes × Int32)) :=
  m.program.keys.mapM fun key => do
    let value ← m.read key
    return (key, value)

end Machine

end StateBuffer
