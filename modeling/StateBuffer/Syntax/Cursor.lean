import StateBuffer.Syntax.Error
import StateBuffer.Syntax.Tree
import StateBuffer.Text.CodePoint
import StateBuffer.Text.Utf8

/-!
Reading tokens from a text. A cursor holds the text that is left, the stack of open scopes and the
next free node number; it can be put back to an earlier state. Between tokens stand white space and
comments, which run from two slashes to the end of the line. A token that looks like a word must
not run on into another letter, digit or underscore.
-/

namespace StateBuffer

/-- The state of reading one file. `matched` lists the names read so far, the latest first; it is
a record of what was looked at and is never taken back. -/
structure Cursor where
  file : FileId
  offset : Nat
  rest : Bytes
  scope : Scope
  nextId : NodeId
  matched : List Bytes
  deriving Inhabited, Repr

/-- A reader of one construct: its result and where it leaves the cursor. -/
def Parser (α : Type) := Cursor → Except SyntaxError α × Cursor

instance : Monad Parser where
  pure a c := (.ok a, c)
  bind p f c := match p c with
    | (.ok a, c) => f a c
    | (.error e, c) => (.error e, c)

structure Token where
  span : Span
  text : Bytes
  deriving DecidableEq, Repr, Inhabited

/-! ### White space and comments -/

def dropSpaces : Bytes → Bytes
  | [] => []
  | b :: rest =>
    let (point, size) := Utf8.next (b :: rest)
    if CodePoint.isSpace point then dropSpaces (rest.drop (size - 1)) else b :: rest
termination_by s => s.length
decreasing_by simp only [List.length_drop, List.length_cons]; omega

def dropComment : Bytes → Bytes
  | 0x2F :: 0x2F :: rest => rest.dropWhile (· ≠ 0x0A)
  | s => s

/-- Drops white space and comments until neither comes next. -/
def dropTrivia (s : Bytes) : Bytes :=
  let t := dropComment (dropSpaces s)
  if t.length < s.length then dropTrivia t else s
termination_by s.length

variable [CodePoint.Edition]

def continuesWord (point : Nat) : Bool :=
  point == 0x5F || CodePoint.isLetter point || CodePoint.isDigit point

/-- Does the text go on with something that continues a word? -/
def runsOn (s : Bytes) : Bool :=
  match Utf8.next s with
  | (_, 0) => false
  | (point, _) => continuesWord point

/-- Does the text look like a word: not empty, and continuing a word throughout? -/
def isWord (s : Bytes) : Bool := !s.isEmpty && (Utf8.points s).all fun p => continuesWord p.1

namespace Cursor

def start (file : FileId) (content : Bytes) (nextId : NodeId) : Cursor :=
  ⟨file, 0, content, [], nextId, []⟩

def atEnd (c : Cursor) : Bool := c.rest.isEmpty

/-- The cursor moved on so that `rest` is left. -/
def moveTo (c : Cursor) (rest : Bytes) : Cursor :=
  { c with offset := c.offset + (c.rest.length - rest.length), rest }

def skipTrivia (c : Cursor) : Cursor := c.moveTo (dropTrivia c.rest)

/-- The next code point and its length. -/
def peek (c : Cursor) : Nat × Nat := Utf8.next c.rest

/-- The cursor put back to an earlier state; the record of names stays. -/
def rewind (c earlier : Cursor) : Cursor := { earlier with matched := c.matched }

/-- The error of a missing construct at this place. -/
def missing (c : Cursor) (label : Bytes) : SyntaxError := ⟨c.file, c.offset, [label]⟩

end Cursor

/-! ### Tokens -/

/-- A part of a token: how many code points of a class, at least and at most. -/
structure PatternPart where
  accepts : Nat → Bool
  least : Nat
  most : Option Nat

/-- The shape of a token: its parts in order, and the words that have the shape but are not
meant. -/
structure Pattern where
  label : Bytes
  parts : List PatternPart
  excluded : List Bytes

/-- Reads as many code points of a class as there are, up to a bound: how many, and the rest. -/
def takePoints (accepts : Nat → Bool) : Option Nat → Bytes → Nat × Bytes
  | some 0, s => (0, s)
  | _, [] => (0, [])
  | most, b :: rest =>
    let (point, size) := Utf8.next (b :: rest)
    if accepts point then
      let (count, rest) := takePoints accepts (most.map (· - 1)) (rest.drop (size - 1))
      (count + 1, rest)
    else (0, b :: rest)
termination_by _ s => s.length
decreasing_by simp only [List.length_drop, List.length_cons]; omega

/-- Reads the parts one after the other, each as far as it goes; `none` if one falls short. -/
def takeParts : List PatternPart → Bytes → Option Bytes
  | [], s => some s
  | part :: parts, s =>
    let (count, rest) := takePoints part.accepts part.most s
    if count < part.least then none else takeParts parts rest

/-- The rest after a token of the given shape at the very start of a text. -/
def Pattern.rest? (p : Pattern) (s : Bytes) : Option Bytes := do
  let rest ← takeParts p.parts s
  if p.excluded.contains (s.take (s.length - rest.length)) then none
  else if runsOn rest then none
  else some rest

/-- Reads an exact text after white space and comments. -/
def symbol (text : Bytes) : Parser Span := fun c =>
  let c := c.skipTrivia
  let failure := (.error (c.missing ("`" ++ text ++ "`")), c)
  match Bytes.dropStart? c.rest text with
  | none => failure
  | some rest =>
    if isWord text && runsOn rest then failure
    else (.ok (Span.ofOffsets c.file c.offset (c.offset + text.length)), c.moveTo rest)

/-- Reads a token of a shape after white space and comments. -/
def token (p : Pattern) : Parser Token := fun c =>
  let c := c.skipTrivia
  match p.rest? c.rest with
  | none => (.error (c.missing p.label), c)
  | some rest =>
    let size := c.rest.length - rest.length
    (.ok ⟨Span.ofOffsets c.file c.offset (c.offset + size), c.rest.take size⟩, c.moveTo rest)

end StateBuffer
