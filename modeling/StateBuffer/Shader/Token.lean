import StateBuffer.Text.CodePoint
import StateBuffer.Text.Utf8

/-!
The tokens of WGSL, for the one front end that stands here, `Wgsl.frontEnd`: what is said of
programs holds with any `Shader.FrontEnd` in its place. Blanks and comments separate tokens; of
several operators that fit, the longest is taken, so two minus signs without a blank between them
are one token. Every text has tokens: a character that begins none is a token of its own, which no
rule of the grammar takes.
-/

namespace StateBuffer

namespace Wgsl

inductive Token where
  /-- A keyword or an identifier. -/
  | word (text : Bytes)
  /-- An integer with its suffix. -/
  | integer (text : Bytes)
  /-- A number with a fraction or an exponent. -/
  | float (text : Bytes)
  /-- An operator or a bracket. -/
  | symbol (text : Bytes)
  /-- A character that begins no token. -/
  | stray (text : Bytes)
  deriving DecidableEq, Repr, Inhabited

namespace Token

def text : Token → Bytes
  | .word text | .integer text | .float text | .symbol text | .stray text => text

/-- Operators and brackets, longer ones first. -/
def symbols : List Bytes :=
  (["<<=", ">>=", "->", "&&", "||", "==", "!=", "<=", ">=", "<<", ">>", "++", "--", "+=", "-=",
    "*=", "/=", "%=", "&=", "|=", "^=", "(", ")", "\x7b", "\x7d", "[", "]", ",", ".", ";", ":", "@",
    "=", "+", "-", "*", "/", "%", "<", ">", "!", "&", "|", "^", "~"] :
    List String).map Bytes.ofString

def isBlank (b : UInt8) : Bool := b = 0x20 || b = 0x09 || b = 0x0A || b = 0x0D

def startsWord (point : Nat) : Bool := point = 0x5F || CodePoint.isLetter point

/-- Can this code point continue a word? Of the digits only the ASCII ones can. -/
def continuesWord (point : Nat) : Bool := startsWord point || CodePoint.isAsciiDigit point

/-- The number of bytes of the word that a text begins with. -/
def wordSize : Bytes → Nat
  | [] => 0
  | b :: rest =>
    let (point, size) := Utf8.next (b :: rest)
    if continuesWord point then size + wordSize (rest.drop (size - 1)) else 0
termination_by s => s.length
decreasing_by simp only [List.length_drop, List.length_cons]; omega

def isHexDigit (b : UInt8) : Bool := (Bytes.hexDigit? b).isSome

def digits (s : Bytes) : Bytes := s.takeWhile Bytes.isDigit

/-- The first byte of a text, if it is one of the given ones. -/
def oneOf (choices s : Bytes) : Bytes := (s.take 1).filter choices.contains

/-- The exponent that a text begins with: its letter, a sign and digits, of which the sign and all
digits may be missing. -/
def exponent (s : Bytes) : Bytes :=
  match oneOf "eE" s with
  | [] => []
  | letter =>
    let sign := oneOf "+-" (s.drop 1)
    letter ++ sign ++ digits (s.drop (1 + sign.length))

/-- The point that a text begins with, if a digit follows it. -/
def point (s : Bytes) : Bytes :=
  if ((s.drop 1).head?.map Bytes.isDigit).getD false then oneOf "." s else []

/-- The number in decimal that a text begins with. Only a number with a point can have a suffix for
floats. -/
def decimal (s : Bytes) : Token :=
  let whole := digits s
  let rest := s.drop whole.length
  match point rest, exponent rest with
  | [], [] => .integer (whole ++ oneOf "iu" rest)
  | [], power => .float (whole ++ power)
  | dot, _ =>
    let part := whole ++ dot ++ digits (rest.drop 1)
    let power := exponent (s.drop part.length)
    .float (part ++ power ++ oneOf "fh" (s.drop (part.length + power.length)))

/-- The number that a text begins with: hexadecimal ones begin with `0x` and have no suffix, all
others are decimal. -/
def number (s : Bytes) : Token :=
  if Bytes.startsWith s "0x" || Bytes.startsWith s "0X" then
    .integer (s.take 2 ++ (s.drop 2).takeWhile isHexDigit)
  else decimal s

/-- The number of bytes up to the end of a block comment that lies `depth` levels below others;
comments nest, and the end of the text ends them all. -/
def commentSize : Nat → Bytes → Nat
  | 0, 0x2A :: 0x2F :: _ => 2
  | depth + 1, 0x2A :: 0x2F :: rest => 2 + commentSize depth rest
  | depth, 0x2F :: 0x2A :: rest => 2 + commentSize (depth + 1) rest
  | depth, _ :: rest => 1 + commentSize depth rest
  | _, [] => 0

/-- The token that a text without blanks and comments before it begins with. -/
def lead (s : Bytes) : Token :=
  if startsWord (Utf8.next s).1 then .word (s.take (wordSize s))
  else if ((s.head?).map Bytes.isDigit).getD false then number s
  else match symbols.find? (Bytes.startsWith s) with
    | some text => .symbol text
    | none => .stray (s.take (Utf8.next s).2)

/-- What a text begins with: a token, or none for a blank or a comment, and its size in bytes. -/
def first (s : Bytes) : Option Token × Nat :=
  if ((s.head?).map isBlank).getD false then (none, 1)
  else if Bytes.startsWith s "//" then (none, (s.takeWhile (· ≠ 0x0A)).length)
  else if Bytes.startsWith s "/*" then (none, 2 + commentSize 0 (s.drop 2))
  else (some (lead s), (lead s).text.length)

def scan : Bytes → List Token
  | [] => []
  | b :: rest =>
    let (token, size) := first (b :: rest)
    token.toList ++ scan (rest.drop (size - 1))
termination_by s => s.length
decreasing_by simp only [List.length_drop, List.length_cons]; omega

end Token

end Wgsl

end StateBuffer
