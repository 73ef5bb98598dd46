import StateBuffer.Text.Bytes

/-!
The MessagePack format. What is asked of an implementation are writers for the values that programs
consist of, and readers that hand back what follows the value they took; structures are put together
from these. The implementation that stands here goes by the format: a first byte tells the kind and
sometimes the length of what follows, and lengths and integers are big-endian. Where a text or an
integer is wanted, nil stands for the empty text and for zero.
-/

namespace StateBuffer

namespace Msgpack

/-- What a structure is written as: nothing, its fields by name, or its fields in order. -/
inductive Shape where
  | nil
  | named (count : Nat)
  | ordered (count : Nat)
  deriving DecidableEq, Repr

/-- An implementation of the format, as far as it is used. -/
structure Wire where
  writeNil : Bytes
  writeUInt16 : UInt16 → Bytes
  writeUInt32 : UInt32 → Bytes
  writeText : Bytes → Bytes
  /-- The header of a map with a given number of entries. -/
  writeMapHeader : Nat → Bytes
  /-- What follows nil, if nil comes first. -/
  nil? : Bytes → Option Bytes
  /-- An integer of any width. -/
  integer? : Bytes → Option (Int × Bytes)
  text? : Bytes → Option (Bytes × Bytes)
  /-- The number of entries of a map; `none` inside for nil. -/
  mapHeader? : Bytes → Option (Option Nat × Bytes)
  shape? : Bytes → Option (Shape × Bytes)
  /-- What follows a value of any kind. -/
  skipValue? : Bytes → Option Bytes

namespace Wire

variable (w : Wire)

/-- Reads a number of named fields into a structure; `field` reads the value after a name it
knows, and other values are skipped. -/
def named? {σ : Type} (field : Bytes → σ → Option (Bytes → Option (σ × Bytes))) :
    Nat → σ → Bytes → Option (σ × Bytes)
  | 0, state, s => some (state, s)
  | count + 1, state, s => do
    let (name, rest) ← w.text? s
    match field name state with
    | some readValue => do
      let (state, rest) ← readValue rest
      named? field count state rest
    | none => do
      let rest ← w.skipValue? rest
      named? field count state rest

/-- Reads the fields named in a list in their order. -/
def ordered? {σ : Type} (field : Bytes → σ → Option (Bytes → Option (σ × Bytes))) :
    List Bytes → σ → Bytes → Option (σ × Bytes)
  | [], state, s => some (state, s)
  | name :: names, state, s => do
    let readValue ← field name state
    let (state, rest) ← readValue s
    ordered? field names state rest

/-- Reads a structure with given fields. Nil and an empty array give `zero`; an array must have
as many items as there are fields. -/
def struct? {σ : Type} (names : List Bytes)
    (field : Bytes → σ → Option (Bytes → Option (σ × Bytes))) (zero state : σ) (s : Bytes) :
    Option (σ × Bytes) := do
  let (shape, rest) ← w.shape? s
  match shape with
  | .nil => return (zero, rest)
  | .named count => w.named? field count state rest
  | .ordered count =>
    if count = 0 then return (zero, rest)
    else if count = names.length then ordered? field names state rest
    else none

end Wire

/-! ### Writing -/

/-- The byte of a value that is not there. -/
def nil : UInt8 := 0xC0

/-- A number in a fixed count of bytes, most significant first. -/
def bigEndian : Nat → Nat → Bytes
  | 0, _ => []
  | size + 1, n => (n / Nat.pow 256 size).toUInt8 :: bigEndian size n

/-- A 16-bit number at its full width. -/
def writeUInt16 (n : UInt16) : Bytes := 0xCD :: bigEndian 2 n.toNat

/-- A 32-bit number at its full width. -/
def writeUInt32 (n : UInt32) : Bytes := 0xCE :: bigEndian 4 n.toNat

/-- A text after the shortest header for its length. -/
def writeText (s : Bytes) : Bytes :=
  (if s.length < 32 then [(0xA0 + s.length).toUInt8]
    else if s.length < 256 then 0xD9 :: bigEndian 1 s.length
    else if s.length < 65536 then 0xDA :: bigEndian 2 s.length
    else 0xDB :: bigEndian 4 s.length) ++ s

/-- The shortest header of a map with a given number of entries. -/
def writeMapHeader (size : Nat) : Bytes :=
  if size < 16 then [(0x80 + size).toUInt8]
  else if size < 65536 then 0xDE :: bigEndian 2 size
  else 0xDF :: bigEndian 4 size

/-! ### Reading -/

/-- A given number of bytes, if there are so many. -/
def take? (count : Nat) (s : Bytes) : Option (Bytes × Bytes) :=
  if count ≤ s.length then some (s.take count, s.drop count) else none

/-- A number in a fixed count of bytes, most significant first. -/
def number? (size : Nat) (s : Bytes) : Option (Nat × Bytes) := do
  let (bytes, rest) ← take? size s
  return (bytes.foldl (fun n b => n * 256 + b.toNat) 0, rest)

/-- A number with a sign in a fixed count of bytes, in two's complement. -/
def signed? (size : Nat) (s : Bytes) : Option (Int × Bytes) := do
  let (n, rest) ← number? size s
  let range := Nat.pow 256 size
  return (if n < range / 2 then (n : Int) else (n : Int) - (range : Int), rest)

def integer? : Bytes → Option (Int × Bytes)
  | [] => none
  | c :: rest =>
    if c = 0xC0 then some (0, rest)
    else if c ≤ 0x7F then some (c.toNat, rest)
    else if 0xE0 ≤ c then some ((c.toNat : Int) - 256, rest)
    else if c = 0xCC then (number? 1 rest).map fun (n, rest) => ((n : Int), rest)
    else if c = 0xCD then (number? 2 rest).map fun (n, rest) => ((n : Int), rest)
    else if c = 0xCE then (number? 4 rest).map fun (n, rest) => ((n : Int), rest)
    else if c = 0xCF then (number? 8 rest).map fun (n, rest) => ((n : Int), rest)
    else if c = 0xD0 then signed? 1 rest
    else if c = 0xD1 then signed? 2 rest
    else if c = 0xD2 then signed? 4 rest
    else if c = 0xD3 then signed? 8 rest
    else none

/-- The length of a text or of binary data whose first byte is `c`. -/
def textLength? (c : UInt8) (rest : Bytes) : Option (Nat × Bytes) :=
  if c = 0xC0 then some (0, rest)
  else if 0xA0 ≤ c ∧ c ≤ 0xBF then some (c.toNat - 0xA0, rest)
  else if c = 0xD9 ∨ c = 0xC4 then number? 1 rest
  else if c = 0xDA ∨ c = 0xC5 then number? 2 rest
  else if c = 0xDB ∨ c = 0xC6 then number? 4 rest
  else none

/-- A text; binary data will do. -/
def text? : Bytes → Option (Bytes × Bytes)
  | [] => none
  | c :: rest => do
    let (length, rest) ← textLength? c rest
    take? length rest

/-- The number of entries of a map whose first byte is `c`; `none` inside for nil. -/
def mapLength? (c : UInt8) (rest : Bytes) : Option (Option Nat × Bytes) :=
  if c = 0xC0 then some (none, rest)
  else if 0x80 ≤ c ∧ c ≤ 0x8F then some (some (c.toNat - 0x80), rest)
  else if c = 0xDE then (number? 2 rest).map fun (n, rest) => (some n, rest)
  else if c = 0xDF then (number? 4 rest).map fun (n, rest) => (some n, rest)
  else none

/-- The number of items of an array whose first byte is `c`. -/
def arrayLength? (c : UInt8) (rest : Bytes) : Option (Nat × Bytes) :=
  if 0x90 ≤ c ∧ c ≤ 0x9F then some (c.toNat - 0x90, rest)
  else if c = 0xDC then number? 2 rest
  else if c = 0xDD then number? 4 rest
  else none

def isExtension (c : UInt8) : Bool := (0xC7 ≤ c && c ≤ 0xC9) || (0xD4 ≤ c && c ≤ 0xD8)

/-- The bytes that hold the length of an extension's data. -/
def extensionHeader (c : UInt8) : Nat :=
  if c = 0xC7 then 1 else if c = 0xC8 then 2 else if c = 0xC9 then 4 else 0

/-- The header of a map, the header of an extension around it left aside. -/
def mapHeader? : Bytes → Option (Option Nat × Bytes)
  | [] => none
  | c :: rest =>
    if isExtension c then do
      let (_, rest) ← take? (1 + extensionHeader c) rest
      match rest with
      | [] => none
      | c :: rest => mapLength? c rest
    else mapLength? c rest

def extensionLength? (c : UInt8) (rest : Bytes) : Option (Nat × Bytes) :=
  if c = 0xD4 then some (1, rest)
  else if c = 0xD5 then some (2, rest)
  else if c = 0xD6 then some (4, rest)
  else if c = 0xD7 then some (8, rest)
  else if c = 0xD8 then some (16, rest)
  else number? (extensionHeader c) rest

/-- The number of bytes after the first in a scalar of fixed width. -/
def scalarSize? (c : UInt8) : Option Nat :=
  if c ≤ 0x7F ∨ 0xE0 ≤ c ∨ c = 0xC0 ∨ c = 0xC2 ∨ c = 0xC3 then some 0
  else if c = 0xCC ∨ c = 0xD0 then some 1
  else if c = 0xCD ∨ c = 0xD1 then some 2
  else if c = 0xCE ∨ c = 0xD2 ∨ c = 0xCA then some 4
  else if c = 0xCF ∨ c = 0xD3 ∨ c = 0xCB then some 8
  else none

/-- What follows `count` values, `fuel` bounding the number of values with those inside them. -/
def skip? : Nat → Nat → Bytes → Option Bytes
  | _, 0, s => some s
  | 0, _ + 1, _ => none
  | _ + 1, _ + 1, [] => none
  | fuel + 1, count + 1, c :: rest =>
    match scalarSize? c with
    | some size => do
      let (_, rest) ← take? size rest
      skip? fuel count rest
    | none =>
      if isExtension c then do
        let (length, rest) ← extensionLength? c rest
        let (_, rest) ← take? (length + 1) rest
        skip? fuel count rest
      else match textLength? c rest with
        | some (length, rest) => do
          let (_, rest) ← take? length rest
          skip? fuel count rest
        | none => match arrayLength? c rest with
          | some (length, rest) => skip? fuel (length + count) rest
          | none => match mapLength? c rest with
            | some (length, rest) => skip? fuel (2 * length.getD 0 + count) rest
            | none => none

/-- What follows the first value. Every value takes at least one byte. -/
def skipValue? (s : Bytes) : Option Bytes := skip? s.length 1 s

def shape? : Bytes → Option (Shape × Bytes)
  | [] => none
  | c :: rest =>
    match mapLength? c rest with
    | some (none, rest) => some (.nil, rest)
    | some (some count, rest) => some (.named count, rest)
    | none => (arrayLength? c rest).map fun (count, rest) => (.ordered count, rest)

/-- What follows nil, if nil comes first. -/
def nil? : Bytes → Option Bytes
  | 0xC0 :: rest => some rest
  | _ => none

def Wire.standard : Wire where
  writeNil := [Msgpack.nil]
  writeUInt16 := Msgpack.writeUInt16
  writeUInt32 := Msgpack.writeUInt32
  writeText := Msgpack.writeText
  writeMapHeader := Msgpack.writeMapHeader
  nil? := Msgpack.nil?
  integer? := Msgpack.integer?
  text? := Msgpack.text?
  mapHeader? := Msgpack.mapHeader?
  shape? := Msgpack.shape?
  skipValue? := Msgpack.skipValue?

end Msgpack

end StateBuffer
