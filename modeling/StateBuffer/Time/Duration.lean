import StateBuffer.Text.Decimal

/-!
Spans of time in nanoseconds, in 64 bits with a sign: as text in the largest fitting unit, as
milliseconds with three places, and read from text. Sums wrap around; rounding stops at the ends of
the range.
-/

namespace StateBuffer

abbrev Duration := Int

namespace Duration

def microsecond : Nat := 1000

def millisecond : Nat := 1000000

def second : Nat := 1000000000

def minute : Nat := 60 * second

def hour : Nat := 60 * minute

/-- The number of values that 64 bits hold. -/
def modulus : Nat := 18446744073709551616

/-- The largest span in either direction. -/
def limit : Nat := 9223372036854775808

/-- The integer of 64 bits with a sign that leaves the same remainder. -/
def wrap (i : Int) : Int := i.bmod modulus

def sum (spans : List Duration) : Duration := spans.foldl (fun a b => wrap (a + b)) 0

def sign (d : Duration) : Bytes := if d < 0 then "-" else []

/-- Rounds to a multiple of a unit, half of it away from zero, or to the end of the range if that
comes first. -/
def roundTo (unit : Nat) (d : Duration) : Duration :=
  let size := d.natAbs
  let rest := size % unit
  let rounded := if 2 * rest < unit then size - rest else size + unit - rest
  if d < 0 then -(min rounded limit : Nat) else (min rounded (limit - 1) : Nat)

/-- A number divided by a power of ten, without zeros at the end. -/
def trimmed (places n : Nat) : Bytes :=
  let part := Bytes.ofNat (n % Nat.pow 10 places)
  let padded := List.replicate (places - part.length) (Bytes.byte '0') ++ part
  let kept := Bytes.trimEndOf (Bytes.byte '0') padded
  Bytes.ofNat (n / Nat.pow 10 places) ++ if kept.isEmpty then [] else Bytes.byte '.' :: kept

def magnitudeText (n : Nat) : Bytes :=
  if n = 0 then "0s"
  else if n < microsecond then Bytes.ofNat n ++ "ns"
  else if n < millisecond then trimmed 3 n ++ "µs"
  else if n < second then trimmed 6 n ++ "ms"
  else
    let seconds := trimmed 9 (n % minute) ++ "s"
    if n < minute then seconds
    else
      let minutes := Bytes.ofNat (n % hour / minute) ++ "m" ++ seconds
      if n < hour then minutes else Bytes.ofNat (n / hour) ++ "h" ++ minutes

/-- The text of a span: one unit below a second, else hours, minutes and seconds. -/
def text (d : Duration) : Bytes := sign d ++ magnitudeText d.natAbs

def millisText (d : Duration) : Bytes :=
  sign d ++ ((Fraction.ofNat d.natAbs).nearest.div millisecond).fixed 3

/-- Whole microseconds, cut toward zero. -/
def microseconds (d : Duration) : Int := d.tdiv microsecond

/-- Whole microseconds shown as milliseconds with three places. -/
def wholeMillisText (d : Duration) : Bytes :=
  let us := d.microseconds
  sign us ++ ((Fraction.ofNat us.natAbs).nearest.div 1000).fixed 3

/-- Why a text is no span of time. -/
inductive ReadFault where
  | invalid
  | missingUnit
  | unknownUnit (unit : Bytes)
  deriving DecidableEq, Repr

/-- A text in quotation marks with every byte outside printable ASCII by its value. -/
def quoted (s : Bytes) : Bytes :=
  let inner : Bytes := s.flatMap fun b =>
    if 0x80 ≤ b || b < 0x20 then Bytes.ofString "\\x" ++ Bytes.hexNat 2 b.toNat
    else if b = 0x22 || b = 0x5C then [0x5C, b] else [b]
  "\"" ++ inner ++ "\""

def ReadFault.message (whole : Bytes) : ReadFault → Bytes
  | .invalid => "time: invalid duration " ++ quoted whole
  | .missingUnit => "time: missing unit in duration " ++ quoted whole
  | .unknownUnit unit => "time: unknown unit " ++ quoted unit ++ " in duration " ++ quoted whole

def unit? (name : Bytes) : Option Nat :=
  let units : List (Bytes × Nat) := [("ns", 1), ("us", microsecond), ("µs", microsecond),
    ("μs", microsecond), ("ms", millisecond), ("s", second), ("m", minute), ("h", hour)]
  (units.find? fun u => u.1 = name).map Prod.snd

/-- Is this a byte of a number with a point? -/
def isNumeric (b : UInt8) : Bool := Bytes.isDigit b || b = 0x2E

/-- The digits after a point that count, as a number with how many they are: a digit that would
lead beyond the range ends them. -/
def fraction (digits : Bytes) : Nat × Nat :=
  let (value, places, _) := digits.foldl (fun (value, places, ended) b =>
    let grown := value * 10 + (b.toNat - 0x30)
    if ended || (limit - 1) / 10 < value || limit < grown then (value, places, true)
    else (grown, places + 1, false)) (0, 0, false)
  (value, places)

/-- A part of a unit: the quotient of the unit and the power of ten is rounded, and so is its
product with the number. -/
def partOf (unit : Nat) (digits : Bytes) : Nat :=
  let (value, places) := fraction digits
  let step := (Fraction.ofNat unit).div (Nat.pow 10 places)
  ((Fraction.ofNat value).nearest.mul step).floor

/-- One number with its unit from the front of a text. -/
def readPart (s : Bytes) : Except ReadFault (Nat × Bytes) := do
  let whole := s.takeWhile Bytes.isDigit
  let rest := s.dropWhile Bytes.isDigit
  let (part, rest) : Bytes × Bytes := match rest with
    | 0x2E :: r => (r.takeWhile Bytes.isDigit, r.dropWhile Bytes.isDigit)
    | _ => ([], rest)
  let value := Bytes.digitsValue whole
  if whole.isEmpty && part.isEmpty || limit < value then .error .invalid
  else
    let name := rest.takeWhile fun b => !isNumeric b
    if name.isEmpty then .error .missingUnit
    else match unit? name with
      | none => .error (.unknownUnit name)
      | some unit =>
        let total := value * unit + partOf unit part
        if limit < total then .error .invalid
        else return (total, rest.dropWhile fun b => !isNumeric b)

/-- The sum of the numbers with units that make up a text, at most `fuel` of them. -/
def readParts : Nat → Nat → Bytes → Except ReadFault Nat
  | 0, _, _ => .error .invalid
  | fuel + 1, sum, s =>
    if s.isEmpty then .ok sum
    else do
      let (value, rest) ← readPart s
      if limit < sum + value then .error .invalid else readParts fuel (sum + value) rest

def ofText (s : Bytes) : Except ReadFault Duration := do
  let (negative, body) : Bool × Bytes := match s with
    | 0x2D :: rest => (true, rest)
    | 0x2B :: rest => (false, rest)
    | _ => (false, s)
  if body = "0" then return 0
  else if body.isEmpty then .error .invalid
  else
    let sum ← readParts (body.length + 1) 0 body
    if negative then return -(sum : Int)
    else if limit ≤ sum then .error .invalid
    else return sum

end Duration

end StateBuffer
