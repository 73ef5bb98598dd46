import StateBuffer.Text.Bytes

/-!
Code points in byte texts. A well-formed sequence starts with a lead byte that fixes how many
continuation bytes follow and which range the first of them may take. Reading never fails: a byte
that starts no well-formed sequence reads as the replacement character, one byte long. When whole
files are mended, each longest beginning of a well-formed sequence becomes one replacement
character instead.
-/

namespace StateBuffer

namespace Utf8

def replacement : Nat := 0xFFFD

/-- What a lead byte announces: the number of continuation bytes, the range of the first of
them, and the leading bits of the code point. -/
structure Lead where
  tail : Nat
  low : UInt8
  high : UInt8
  bits : Nat
  deriving DecidableEq, Repr

/-- The announcement of a lead byte; `none` for a byte that can lead nothing. -/
def Lead.ofByte? (b : UInt8) : Option Lead :=
  if b < 0x80 then some ⟨0, 0x80, 0xBF, b.toNat⟩
  else if b < 0xC2 then none
  else if b < 0xE0 then some ⟨1, 0x80, 0xBF, b.toNat % 0x20⟩
  else if b = 0xE0 then some ⟨2, 0xA0, 0xBF, 0⟩
  else if b = 0xED then some ⟨2, 0x80, 0x9F, 0x0D⟩
  else if b < 0xF0 then some ⟨2, 0x80, 0xBF, b.toNat % 0x10⟩
  else if b = 0xF0 then some ⟨3, 0x90, 0xBF, 0⟩
  else if b < 0xF4 then some ⟨3, 0x80, 0xBF, b.toNat % 0x08⟩
  else if b = 0xF4 then some ⟨3, 0x80, 0x8F, 4⟩
  else none

/-- Reads continuation bytes: how many are there, and the code point when none is missing. -/
def continuation : Nat → UInt8 → UInt8 → Nat → Bytes → Nat × Option Nat
  | 0, _, _, value, _ => (0, some value)
  | _ + 1, _, _, _, [] => (0, none)
  | n + 1, low, high, value, b :: rest =>
    if low ≤ b ∧ b ≤ high then
      let (count, result) := continuation n 0x80 0xBF (value * 64 + b.toNat % 64) rest
      (count + 1, result)
    else (0, none)

/-- The sequence that starts with `b`: the number of bytes after `b` that belong to it, and its
code point when it is complete. -/
def sequence (b : UInt8) (rest : Bytes) : Nat × Option Nat :=
  match Lead.ofByte? b with
  | none => (0, none)
  | some lead => continuation lead.tail lead.low lead.high lead.bits rest

/-- The first code point of a text and its length in bytes: the replacement character of length
one where the text is ill-formed, and of length zero at the end. -/
def next : Bytes → Nat × Nat
  | [] => (replacement, 0)
  | b :: rest =>
    match sequence b rest with
    | (count, some point) => (point, count + 1)
    | (_, none) => (replacement, 1)

/-- The code points of a text with their bytes. -/
def points : Bytes → List (Nat × Bytes)
  | [] => []
  | b :: rest =>
    let (point, size) := next (b :: rest)
    (point, b :: rest.take (size - 1)) :: points (rest.drop (size - 1))
termination_by s => s.length
decreasing_by simp only [List.length_drop, List.length_cons]; omega

/-- The number of code points of a text. -/
def count (s : Bytes) : Nat := (points s).length

/-- Is the whole text well-formed? -/
def isValid : Bytes → Bool
  | [] => true
  | b :: rest =>
    match sequence b rest with
    | (count, some _) => isValid (rest.drop count)
    | (_, none) => false
termination_by s => s.length
decreasing_by simp only [List.length_drop, List.length_cons]; omega

def encode (point : Nat) : Bytes :=
  if point < 0x80 then [point.toUInt8]
  else if point < 0x800 then
    [(0xC0 + point / 64).toUInt8, (0x80 + point % 64).toUInt8]
  else if point < 0x10000 then
    [(0xE0 + point / 4096).toUInt8, (0x80 + point / 64 % 64).toUInt8, (0x80 + point % 64).toUInt8]
  else
    [(0xF0 + point / 262144).toUInt8, (0x80 + point / 4096 % 64).toUInt8,
      (0x80 + point / 64 % 64).toUInt8, (0x80 + point % 64).toUInt8]

/-- Each longest beginning of a well-formed sequence that stays incomplete, else each single
byte that starts none, becomes one replacement character. -/
def mend : Bytes → Bytes
  | [] => []
  | b :: rest =>
    match sequence b rest with
    | (count, some _) => (b :: rest.take count) ++ mend (rest.drop count)
    | (count, none) => encode replacement ++ mend (rest.drop count)
termination_by s => s.length
decreasing_by all_goals simp only [List.length_drop, List.length_cons]; omega

end Utf8

namespace Utf16

/-- Is this unit the first half of a surrogate pair? -/
def isHigh (unit : Nat) : Bool := 0xD800 ≤ unit && unit < 0xDC00

/-- Is this unit the second half of a surrogate pair? -/
def isLow (unit : Nat) : Bool := 0xDC00 ≤ unit && unit < 0xE000

/-- The code point of a surrogate pair. -/
def pair (high low : Nat) : Nat := (high - 0xD800) * 1024 + (low - 0xDC00) + 0x10000

/-- The code point of a unit that stands alone. -/
def single (unit : Nat) : Nat := if isHigh unit || isLow unit then Utf8.replacement else unit

/-- Units to UTF-8. A surrogate and a second half after it are read together, as their code point
or, when the first is a second half too, as the replacement character; any other surrogate
becomes the replacement character by itself. -/
def decodeUnits : List Nat → Bytes
  | [] => []
  | [unit] => Utf8.encode (single unit)
  | unit :: next :: rest =>
    if isHigh unit && isLow next then Utf8.encode (pair unit next) ++ decodeUnits rest
    else if isLow unit && isLow next then Utf8.encode Utf8.replacement ++ decodeUnits rest
    else Utf8.encode (single unit) ++ decodeUnits (next :: rest)

/-- Bytes to UTF-8, two bytes a unit; a dangling last byte becomes the replacement character. -/
def decode (bigEndian : Bool) (s : Bytes) : Bytes :=
  let (units, dangling) := unitsOf s
  decodeUnits units ++ if dangling then Utf8.encode Utf8.replacement else []
where
  /-- The units of a text, and whether a byte is left over. -/
  unitsOf : Bytes → List Nat × Bool
    | [] => ([], false)
    | [_] => ([], true)
    | a :: b :: rest =>
      let unit := if bigEndian then a.toNat * 256 + b.toNat else b.toNat * 256 + a.toNat
      let (units, dangling) := unitsOf rest
      (unit :: units, dangling)

end Utf16

/-- The decoding of a source file and whether it began with a UTF-8 byte order mark. That mark is
dropped and the rest taken as it is; a UTF-16 mark selects that encoding; a text without a mark
is mended UTF-8. -/
def decodeSource (raw : Bytes) : Bytes × Bool :=
  match raw with
  | 0xEF :: 0xBB :: 0xBF :: rest => (rest, true)
  | 0xFF :: 0xFE :: rest => (Utf16.decode false rest, false)
  | 0xFE :: 0xFF :: rest => (Utf16.decode true rest, false)
  | _ => (Utf8.mend raw, false)

end StateBuffer
