import StateBuffer.Text.Bytes

/-!
Integers as people write them: a sign, a base given by the first digits, and underscores between
digits. The value must fit into 64 bits with a sign.
-/

namespace StateBuffer

inductive IntegerFault where
  | malformed
  | outOfRange
  deriving DecidableEq, Repr

def IntegerFault.message : IntegerFault → Bytes
  | .malformed => "invalid syntax"
  | .outOfRange => "value out of range"

namespace Integer

/-- The value of digits in a base after a value, as long as it fits into 64 bits. Underscores are
passed over. -/
def digits (base : Nat) : Nat → Bytes → Except IntegerFault Nat
  | value, [] => .ok value
  | value, b :: rest =>
    if b = 0x5F then digits base value rest
    else match Bytes.hexDigit? b with
      | none => .error .malformed
      | some digit =>
        if base ≤ digit then .error .malformed
        else if 18446744073709551616 ≤ value * base + digit then .error .outOfRange
        else digits base (value * base + digit) rest

/-- The base that a letter after a leading zero stands for. -/
def baseOf? (b : UInt8) : Option Nat :=
  match Bytes.lowerByte b with
  | 0x62 => some 2
  | 0x6F => some 8
  | 0x78 => some 16
  | _ => none

/-- The base of an unsigned integer with the digits that are read in it: a letter after a leading
zero names it, another leading zero means octal. -/
def split : Bytes → Nat × Bytes
  | 0x30 :: x :: d :: rest =>
    match baseOf? x with
    | some base => (base, d :: rest)
    | none => (8, x :: d :: rest)
  | 0x30 :: rest => (8, rest)
  | s => (10, s)

/-- Does every underscore stand after a digit and before one? `after` tells whether a digit was just
passed. -/
def separates : Bool → Bytes → Bool
  | after, [] => after
  | after, b :: rest => if b = 0x5F then after && separates false rest else separates true rest

/-- Are the underscores of an unsigned integer in their places? A letter that names the base counts
as a digit. -/
def wellSeparated (s : Bytes) : Bool :=
  match s with
  | 0x30 :: x :: rest => separates true (if (baseOf? x).isSome then rest else x :: rest)
  | _ => separates false s

def magnitude (s : Bytes) : Except IntegerFault Nat := do
  if s.isEmpty then .error .malformed
  else
    let (base, body) := split s
    let value ← digits base 0 body
    if s.contains 0x5F && !wellSeparated s then .error .malformed else return value

def ofText (s : Bytes) : Except IntegerFault Int := do
  let (negative, body) : Bool × Bytes := match s with
    | 0x2D :: rest => (true, rest)
    | 0x2B :: rest => (false, rest)
    | _ => (false, s)
  let value ← magnitude body
  if negative then
    if 9223372036854775808 < value then .error .outOfRange else return -(value : Int)
  else if 9223372036854775808 ≤ value then .error .outOfRange
  else return value

end Integer

end StateBuffer
