import StateBuffer.Text.Ranges

/-!
Classes of code points: which ones are white space, letters and digits, which ones are shown as they
are inside quotation marks, and what the small forms of letters are. What is a letter or a digit
beyond ASCII depends on the edition of Unicode, which comes with the tools that a program is built
with, 15.0.0 or a later one; the reader of the language works with any.
-/

namespace StateBuffer

namespace CodePoint

def inRanges (ranges : Array (Nat × Nat)) (point : Nat) : Bool :=
  ranges.any fun (low, high) => low ≤ point && point ≤ high

/-- A range of characters without the replacement character. -/
def IsScalarRange (range : Nat × Nat) : Prop :=
  range.2 < 0xD800 ∨
    0xE000 ≤ range.1 ∧ range.2 < 0x110000 ∧ (range.2 < 0xFFFD ∨ 0xFFFD < range.1)

instance (range : Nat × Nat) : Decidable (IsScalarRange range) :=
  inferInstanceAs (Decidable (_ ∨ _ ∧ _ ∧ (_ ∨ _)))

/-- What an edition of Unicode says of letters and decimal digits beyond ASCII. -/
class Edition where
  letters : Array (Nat × Nat)
  digits : Array (Nat × Nat)
  letters_scalar : ∀ range ∈ letters.toList, IsScalarRange range
  digits_scalar : ∀ range ∈ digits.toList, IsScalarRange range

/-- Edition 17.0.0, the one to take where no other is at hand. -/
instance : Edition where
  letters := letterRanges
  digits := digitRanges
  letters_scalar := by decide +kernel
  digits_scalar := by decide +kernel

/-- White space: the ASCII blanks, U+0085, U+00A0 and the Unicode space separators. -/
def isSpace (point : Nat) : Bool :=
  (0x09 ≤ point && point ≤ 0x0D) || point == 0x20 || point == 0x85 || point == 0xA0
    || point == 0x1680 || (0x2000 ≤ point && point ≤ 0x200A) || point == 0x2028 || point == 0x2029
    || point == 0x202F || point == 0x205F || point == 0x3000

def isAsciiLetter (point : Nat) : Bool :=
  (0x41 ≤ point && point ≤ 0x5A) || (0x61 ≤ point && point ≤ 0x7A)

def isAsciiDigit (point : Nat) : Bool := 0x30 ≤ point && point ≤ 0x39

def isLetter [Edition] (point : Nat) : Bool :=
  if point < 0x80 then isAsciiLetter point else inRanges Edition.letters point

def isDigit [Edition] (point : Nat) : Bool :=
  if point < 0x80 then isAsciiDigit point else inRanges Edition.digits point

/-- Shown as it is inside quotation marks: the graphic code points and the ASCII space. -/
def isPrintable (point : Nat) : Bool :=
  if point < 0x80 then 0x20 ≤ point && point < 0x7F else inRanges graphicRanges point

/-- The distance from a letter beyond ASCII to its small form; zero if it has none. -/
def toSmall (point : Nat) : Int :=
  match capitalRuns.find? fun (low, high, step, _) =>
    low ≤ point && point ≤ high && (point - low) % step = 0 with
  | some (_, _, _, distance) => distance
  | none => 0

/-- The small form of a letter; any other code point itself. -/
def small (point : Nat) : Nat :=
  if point < 0x80 then if 0x41 ≤ point && point ≤ 0x5A then point + 0x20 else point
  else (point + toSmall point).toNat

end CodePoint

end StateBuffer
