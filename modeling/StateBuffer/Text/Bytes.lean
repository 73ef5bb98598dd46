/-!
Text as this program reads and writes it: a list of bytes that is usually, but not always,
well-formed UTF-8. Source files, names, keys, paths and rendered output are all of this type, so
one theory of lists covers them.
-/

namespace StateBuffer

abbrev Bytes := List UInt8

namespace Bytes

def ofString (s : String) : Bytes := s.toList.flatMap String.utf8EncodeChar

instance : Coe String Bytes := ⟨ofString⟩

def byte (c : Char) : UInt8 := c.toNat.toUInt8

def ofNat (n : Nat) : Bytes := (Nat.toDigits 10 n).map byte

/-- An integer in decimal, with a minus sign when it is negative. -/
def ofInt (i : Int) : Bytes := if i < 0 then byte '-' :: ofNat i.natAbs else ofNat i.natAbs

/-- A natural number in base sixteen with at least `width` digits. -/
def hexNat (width n : Nat) : Bytes :=
  let digits := (Nat.toDigits 16 n).map byte
  List.replicate (width - digits.length) (byte '0') ++ digits

/-- Two lower-case hexadecimal digits for each byte. -/
def hex (s : Bytes) : Bytes := s.flatMap fun b => hexNat 2 b.toNat

def hexDigit? (b : UInt8) : Option Nat :=
  if 0x30 ≤ b && b ≤ 0x39 then some (b.toNat - 0x30)
  else if 0x61 ≤ b && b ≤ 0x66 then some (b.toNat - 0x57)
  else if 0x41 ≤ b && b ≤ 0x46 then some (b.toNat - 0x37)
  else none

/-- The bytes written as pairs of hexadecimal digits; `none` for anything else. -/
def ofHex? : Bytes → Option Bytes
  | [] => some []
  | [_] => none
  | a :: b :: rest => do
    let high ← hexDigit? a
    let low ← hexDigit? b
    let tail ← ofHex? rest
    return (high * 16 + low).toUInt8 :: tail

def isDigit (b : UInt8) : Bool := 0x30 ≤ b && b ≤ 0x39

def isUpper (b : UInt8) : Bool := 0x41 ≤ b && b ≤ 0x5A

def isLower (b : UInt8) : Bool := 0x61 ≤ b && b ≤ 0x7A

def isLetter (b : UInt8) : Bool := isUpper b || isLower b

/-- An ASCII capital letter becomes small; every other byte stays. -/
def lowerByte (b : UInt8) : UInt8 := if isUpper b then b + 0x20 else b

/-- The value of a list of decimal digits, most significant first. -/
def digitsValue (s : Bytes) : Nat := s.foldl (fun n b => n * 10 + (b.toNat - 0x30)) 0

/-- A natural number written in decimal digits only, at least one of them. -/
def toNat? (s : Bytes) : Option Nat :=
  if !s.isEmpty && s.all isDigit then some (digitsValue s) else none

/-- The parts between the occurrences of a separator byte; there is always at least one part. -/
def split (sep : UInt8) : Bytes → List Bytes
  | [] => [[]]
  | b :: rest =>
    if b = sep then [] :: split sep rest
    else match split sep rest with
      | [] => [[b]]
      | part :: parts => (b :: part) :: parts

/-- The texts in order with `sep` between neighbours. -/
def join (sep : Bytes) : List Bytes → Bytes
  | [] => []
  | [part] => part
  | part :: next :: parts => part ++ sep ++ join sep (next :: parts)

/-- The text up to the first occurrence of a byte, and what follows that occurrence if there
is one. -/
def cut (sep : UInt8) : Bytes → Bytes × Option Bytes
  | [] => ([], none)
  | b :: rest =>
    if b = sep then ([], some rest)
    else
      let (before, after) := cut sep rest
      (b :: before, after)

def startsWith (s start : Bytes) : Bool := start.isPrefixOf s

def endsWith (s tail : Bytes) : Bool := tail.isSuffixOf s

/-- What follows `start`, if the text begins with it. -/
def dropStart? : Bytes → Bytes → Option Bytes
  | s, [] => some s
  | [], _ :: _ => none
  | b :: s, c :: start => if b = c then dropStart? s start else none

/-- The text without `tail` at its end, if it ends with it. -/
def dropEnd? (s tail : Bytes) : Option Bytes :=
  (dropStart? s.reverse tail.reverse).map List.reverse

/-- Drops all occurrences of a byte at the end. -/
def trimEndOf (b : UInt8) (s : Bytes) : Bytes := (s.reverse.dropWhile (· = b)).reverse

def lt : Bytes → Bytes → Bool
  | [], [] => false
  | [], _ :: _ => true
  | _ :: _, [] => false
  | a :: s, b :: t => if a < b then true else if b < a then false else lt s t

/-- Lexicographic order by byte, equality included. -/
def le (s t : Bytes) : Bool := !lt t s

def spaces (n : Nat) : Bytes := List.replicate n 0x20

/-- Every occurrence of one text replaced by another, scanning from the left; an empty pattern
leaves the text alone. -/
def replace (old new : Bytes) (s : Bytes) : Bytes :=
  go s.length s
where
  /-- Scans at most `fuel` bytes. -/
  go : Nat → Bytes → Bytes
    | 0, s => s
    | _ + 1, [] => []
    | fuel + 1, b :: rest =>
      match old, dropStart? (b :: rest) old with
      | _ :: _, some after => new ++ go fuel after
      | _, _ => b :: go fuel rest

end Bytes

end StateBuffer
