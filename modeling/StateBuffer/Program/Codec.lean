import StateBuffer.Data.Json
import StateBuffer.Data.Msgpack
import StateBuffer.Path
import StateBuffer.Program.Basic

/-!
Stored programs: an envelope with the version of the format and the program, written as JSON or as
MessagePack, by whatever implementation of the latter. A reader takes the first value of a file,
ignores fields it does not know, and refuses another version, an envelope without a program, and a
layout that is not sound.
-/

namespace StateBuffer

inductive Format where
  | msgpack
  | json
  deriving DecidableEq, Repr

/-- The format of a file: JSON by its extension in any case, else MessagePack. -/
def Format.ofPath (path : Bytes) : Format :=
  if Bytes.equalFold (Path.extension path) ".json" then .json else .msgpack

inductive ProgramFault where
  | undecodable
  | otherVersion (version : UInt16)
  | noProgram
  | layout (fault : LayoutFault)
  deriving DecidableEq, Repr

def ProgramFault.message : ProgramFault → Bytes
  | .undecodable => "invalid compiled program: malformed data"
  | .otherVersion version =>
    "unsupported program schema: version " ++ Bytes.ofNat version.toNat
  | .noProgram => "invalid compiled program: empty payload"
  | .layout fault => "invalid compiled program: " ++ fault.message

structure Envelope where
  schema : UInt16
  program : Option Program
  deriving DecidableEq, Inhabited

namespace Envelope

def version : UInt16 := 1

def empty : Envelope := ⟨0, none⟩

/-- The program of an envelope that is as it should be. -/
def contents (e : Envelope) : Except ProgramFault Program :=
  if e.schema ≠ version then .error (.otherVersion e.schema)
  else match e.program with
    | none => .error .noProgram
    | some p => match p.check with
      | .ok _ => .ok p
      | .error fault => .error (.layout fault)

end Envelope

def Buffer.empty : Buffer := ⟨0, FieldMap.empty⟩

def Program.empty : Program := ⟨Buffer.empty, []⟩

/-! ### JSON -/

namespace Json

def ofField (f : Field) : Json :=
  .object [entry "size" (ofNat f.size.toNat), entry "offset" (ofNat f.offset.toNat)]

def ofFields (m : FieldMap) : Json := .object (m.entries.map fun e => (e.1, ofField e.2))

/-- A program in its envelope, with what is written for its fields. -/
def envelopeWith (p : Program) (fields : Json) : Json :=
  .object [entry "schema" (ofNat Envelope.version.toNat),
    entry "program" (.object
      [entry "buffer" (.object [entry "size" (ofNat p.buffer.size.toNat), entry "fields" fields]),
        entry "init_shader" (.string p.shader)])]

def ofProgram (p : Program) : Json := envelopeWith p (ofFields p.buffer.fields)

/-- Reads the members of an object into a structure in order. `field` gives the reader of a member
by its name in any case; other members are ignored, and null leaves the structure as it is. -/
def intoStruct {σ : Type} (field : Bytes → Option (σ → Json → Option σ)) (state : σ) :
    Json → Option σ
  | .null => some state
  | .object members => members.foldlM (fun state m =>
      match field m.1 with
      | some read => read state m.2
      | none => some state) state
  | _ => none

/-- A natural number below a bound; null leaves the value as it is. -/
def intoNat (bound : Nat) (state : Nat) : Json → Option Nat
  | .null => some state
  | .number literal => do
    let n ← Bytes.toNat? literal
    if n < bound then some n else none
  | _ => none

/-- A text; null leaves the value as it is. -/
def intoText (state : Bytes) : Json → Option Bytes
  | .null => some state
  | .string s => some s
  | _ => none

def intoUInt32 (state : UInt32) (j : Json) : Option UInt32 :=
  (intoNat 4294967296 state.toNat j).map Nat.toUInt32

def intoField : Field → Json → Option Field :=
  intoStruct fun name =>
    if Bytes.equalFold name "size" then
      some fun f j => (intoUInt32 f.size j).map fun size => { f with size }
    else if Bytes.equalFold name "offset" then
      some fun f j => (intoUInt32 f.offset j).map fun offset => { f with offset }
    else none

/-- The fields of the buffer: each member adds a field or replaces one; null drops them all. -/
def intoFields (state : FieldMap) : Json → Option FieldMap
  | .null => some FieldMap.empty
  | .object members => members.foldlM (fun state m => do
      let f ← intoField ⟨0, 0⟩ m.2
      return state.insert m.1 f) state
  | _ => none

def intoBuffer : Buffer → Json → Option Buffer :=
  intoStruct fun name =>
    if Bytes.equalFold name "size" then
      some fun b j => (intoUInt32 b.size j).map fun size => { b with size }
    else if Bytes.equalFold name "fields" then
      some fun b j => (intoFields b.fields j).map fun fields => { b with fields }
    else none

def intoProgram : Program → Json → Option Program :=
  intoStruct fun name =>
    if Bytes.equalFold name "buffer" then
      some fun p j => (intoBuffer p.buffer j).map fun buffer => { p with buffer }
    else if Bytes.equalFold name "init_shader" then
      some fun p j => (intoText p.shader j).map fun shader => { p with shader }
    else none

/-- The envelope; null drops the program read before. -/
def intoEnvelope : Envelope → Json → Option Envelope :=
  intoStruct fun name =>
    if Bytes.equalFold name "schema" then
      some fun e j => (intoNat 65536 e.schema.toNat j).map fun n => { e with schema := n.toUInt16 }
    else if Bytes.equalFold name "program" then
      some fun e j => match j with
        | .null => some { e with program := none }
        | j => (intoProgram (e.program.getD Program.empty) j).map fun p =>
          { e with program := some p }
    else none

end Json

/-! ### MessagePack -/

namespace Msgpack.Wire

variable (w : Wire)

def writeField (f : Field) : Bytes :=
  w.writeMapHeader 2 ++ w.writeText "size" ++ w.writeUInt32 f.size
    ++ w.writeText "offset" ++ w.writeUInt32 f.offset

/-- Entries of the field map in a given order. -/
def writeFields (entries : List (Bytes × Field)) : Bytes :=
  w.writeMapHeader entries.length ++ entries.flatMap fun e => w.writeText e.1 ++ w.writeField e.2

/-- A program in its envelope, with what is written for its fields. -/
def writeEnvelope (p : Program) (fields : Bytes) : Bytes :=
  w.writeMapHeader 2 ++ w.writeText "schema" ++ w.writeUInt16 Envelope.version
    ++ w.writeText "program" ++ w.writeMapHeader 2
    ++ w.writeText "buffer" ++ w.writeMapHeader 2 ++ w.writeText "size"
    ++ w.writeUInt32 p.buffer.size ++ w.writeText "fields" ++ fields
    ++ w.writeText "init_shader" ++ w.writeText p.shader

/-- A program in its envelope, its fields written in a given order. -/
def writeProgram (p : Program) (entries : List (Bytes × Field)) : Bytes :=
  w.writeEnvelope p (w.writeFields entries)

/-- A 32-bit number, the low bits of an integer of any width. -/
def uint32? (s : Bytes) : Option (UInt32 × Bytes) :=
  (w.integer? s).map fun (i, rest) => ((i % 4294967296).toNat.toUInt32, rest)

/-- A 16-bit number, the low bits of an integer of any width. -/
def uint16? (s : Bytes) : Option (UInt16 × Bytes) :=
  (w.integer? s).map fun (i, rest) => ((i % 65536).toNat.toUInt16, rest)

def field? (f : Field) : Bytes → Option (Field × Bytes) :=
  w.struct? ["size", "offset"] (fun name f =>
    if name = "size" then
      some fun s => (w.uint32? s).map fun (size, rest) => ({ f with size }, rest)
    else if name = "offset" then
      some fun s => (w.uint32? s).map fun (offset, rest) => ({ f with offset }, rest)
    else none) ⟨0, 0⟩ f

/-- Reads entries of the field map; each adds a field or replaces one. -/
def entries? : Nat → FieldMap → Bytes → Option (FieldMap × Bytes)
  | 0, fields, s => some (fields, s)
  | count + 1, fields, s => do
    let (key, rest) ← w.text? s
    let (f, rest) ← w.field? ⟨0, 0⟩ rest
    entries? count (fields.insert key f) rest

def fields? (fields : FieldMap) (s : Bytes) : Option (FieldMap × Bytes) := do
  let (count, rest) ← w.mapHeader? s
  match count with
  | none => return (FieldMap.empty, rest)
  | some count => w.entries? count fields rest

def buffer? (b : Buffer) : Bytes → Option (Buffer × Bytes) :=
  w.struct? ["size", "fields"] (fun name b =>
    if name = "size" then
      some fun s => (w.uint32? s).map fun (size, rest) => ({ b with size }, rest)
    else if name = "fields" then
      some fun s => (w.fields? b.fields s).map fun (fields, rest) => ({ b with fields }, rest)
    else none) Buffer.empty b

def program? (p : Program) : Bytes → Option (Program × Bytes) :=
  w.struct? ["buffer", "init_shader"] (fun name p =>
    if name = "buffer" then
      some fun s => (w.buffer? p.buffer s).map fun (buffer, rest) => ({ p with buffer }, rest)
    else if name = "init_shader" then
      some fun s => (w.text? s).map fun (shader, rest) => ({ p with shader }, rest)
    else none) Program.empty p

def optionalProgram? (p : Option Program) (s : Bytes) : Option (Option Program × Bytes) :=
  match w.nil? s with
  | some rest => some (none, rest)
  | none => (w.program? (p.getD Program.empty) s).map fun (p, rest) => (some p, rest)

def envelope? : Bytes → Option (Envelope × Bytes) :=
  w.struct? ["schema", "program"] (fun name e =>
    if name = "schema" then
      some fun s => (w.uint16? s).map fun (schema, rest) => ({ e with schema }, rest)
    else if name = "program" then
      some fun s =>
        (w.optionalProgram? e.program s).map fun (program, rest) => ({ e with program }, rest)
    else none) Envelope.empty Envelope.empty

end Msgpack.Wire

/-! ### Both formats -/

namespace Program

def encode (p : Program) (w : Msgpack.Wire) : Format → Bytes
  | .json => (Json.ofProgram p).document
  | .msgpack => w.writeProgram p p.buffer.fields.entries

/-- The stored form of a program that never had a map of its fields. -/
def encodeUnset (p : Program) (w : Msgpack.Wire) : Format → Bytes
  | .json => (Json.envelopeWith p .null).document
  | .msgpack => w.writeEnvelope p w.writeNil

def envelope? (w : Msgpack.Wire) : Format → Bytes → Option Envelope
  | .json, s => do
    let (j, _) ← Json.read? s
    Json.intoEnvelope Envelope.empty j
  | .msgpack, s => (w.envelope? s).map Prod.fst

def decode (w : Msgpack.Wire) (format : Format) (s : Bytes) : Except ProgramFault Program :=
  match envelope? w format s with
  | none => .error .undecodable
  | some e => e.contents

end Program

end StateBuffer
