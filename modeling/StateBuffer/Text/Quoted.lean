import StateBuffer.Text.CodePoint
import StateBuffer.Text.Utf8

/-!
Quoted text, small letters and case folding. A quoted text stands between double quotation marks;
what is not printable is written as an escape, and a byte that belongs to no well-formed sequence by
its hexadecimal value.
-/

namespace StateBuffer

namespace Bytes

/-- One code point inside quotation marks. -/
def quotePoint (point : Nat) : Bytes :=
  if point = 0x22 then "\\\""
  else if point = 0x5C then "\\\\"
  else if CodePoint.isPrintable point then Utf8.encode point
  else if point = 0x07 then "\\a"
  else if point = 0x08 then "\\b"
  else if point = 0x0C then "\\f"
  else if point = 0x0A then "\\n"
  else if point = 0x0D then "\\r"
  else if point = 0x09 then "\\t"
  else if point = 0x0B then "\\v"
  else if point < 0x20 || point = 0x7F then "\\x" ++ hexNat 2 point
  else if point < 0x10000 then "\\u" ++ hexNat 4 point
  else "\\U" ++ hexNat 8 point

def quote (s : Bytes) : Bytes :=
  let inner := (Utf8.points s).flatMap fun (point, bytes) =>
    match bytes with
    | [b] => if 0x80 ≤ b then "\\x" ++ hexNat 2 b.toNat else quotePoint point
    | _ => quotePoint point
  byte '"' :: inner ++ [byte '"']

def lower (s : Bytes) : Bytes :=
  (Utf8.points s).flatMap fun (point, bytes) =>
    if CodePoint.small point = point then bytes else Utf8.encode (CodePoint.small point)

/-- The representative of a code point among those that differ in case only, as far as ASCII
letters are concerned: the long s and the Kelvin sign go with their ASCII letters. -/
def foldPoint (point : Nat) : Nat :=
  if 0x41 ≤ point && point ≤ 0x5A then point + 0x20
  else if point = 0x17F then 0x73
  else if point = 0x212A then 0x6B
  else point

/-- Equality up to the case of ASCII letters. -/
def equalFold (s t : Bytes) : Bool :=
  (Utf8.points s).map (fun p => foldPoint p.1) == (Utf8.points t).map (fun p => foldPoint p.1)

/-- Drops white space at both ends. -/
def trimSpace (s : Bytes) : Bytes :=
  let kept := (Utf8.points s).dropWhile fun p => CodePoint.isSpace p.1
  ((kept.reverse.dropWhile fun p => CodePoint.isSpace p.1).reverse).flatMap Prod.snd

/-- Spaces before the text up to a width counted in code points. -/
def padLeft (width : Nat) (s : Bytes) : Bytes := spaces (width - Utf8.count s) ++ s

/-- Spaces after the text up to a width counted in code points. -/
def padRight (width : Nat) (s : Bytes) : Bytes := s ++ spaces (width - Utf8.count s)

end Bytes

end StateBuffer
