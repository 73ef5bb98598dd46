import StateBuffer.Data.Sha256
import StateBuffer.Fault
import StateBuffer.Path
import StateBuffer.Text.Utf8

/-!
The source files of one compilation. A file is stored with plain newlines, the offsets of its
newlines and the digest of its text; places in it have lines and columns, and spans have texts.
-/

namespace StateBuffer

/-- A line and a column, both from one; a column counts code points. -/
structure Position where
  line : UInt32
  column : UInt32
  deriving DecidableEq, Repr

/-- Marks on a file, one bit each. -/
abbrev FileFlags := UInt8

/-- The file never was on disk. -/
def FileFlags.inMemory : FileFlags := 1

/-- The file began with a byte order mark. -/
def FileFlags.byteOrderMark : FileFlags := 2

/-- Carriage returns before newlines were dropped. -/
def FileFlags.carriageReturns : FileFlags := 4

structure SourceFile where
  id : FileId
  path : Bytes
  dotPath : Bytes
  content : Bytes
  newlines : List UInt32
  hash : Bytes
  flags : FileFlags
  deriving Inhabited

namespace SourceFile

/-- The text without the carriage returns that stand right before a newline. -/
def dropCarriageReturns : Bytes → Bytes
  | 0x0D :: 0x0A :: rest => 0x0A :: dropCarriageReturns rest
  | b :: rest => b :: dropCarriageReturns rest
  | [] => []

/-- The offsets of the newlines of a text that begins at an offset. -/
def newlinesFrom (offset : Nat) : Bytes → List UInt32
  | [] => []
  | b :: rest =>
    if b = 0x0A then offset.toUInt32 :: newlinesFrom (offset + 1) rest
    else newlinesFrom (offset + 1) rest

/-- The position of an offset; an offset past the end counts as the end. In a file of `2 ^ 32 - 1`
bytes the end may be on line `2 ^ 32` or in column `2 ^ 32`, which as a word is zero. -/
def position (f : SourceFile) (offset : UInt32) : Position :=
  let offset := min offset.toNat f.content.length
  let before := f.newlines.filter fun n => n.toNat < offset
  let start := match before.getLast? with
    | some n => n.toNat + 1
    | none => 0
  ⟨(before.length + 1).toUInt32, (Utf8.count ((f.content.take offset).drop start) + 1).toUInt32⟩

/-- A line by its number, without its newline; empty for a number that no line has. -/
def line (f : SourceFile) (number : Nat) : Bytes :=
  if number = 0 ∨ f.newlines.length + 1 < number then []
  else
    let start := if number = 1 then 0 else
      match f.newlines[number - 2]? with
      | some n => n.toNat + 1
      | none => 0
    let stop := match f.newlines[number - 1]? with
      | some n => n.toNat
      | none => f.content.length
    (f.content.take stop).drop start

end SourceFile

structure SourceSet where
  files : Array SourceFile
  deriving Inhabited

namespace SourceSet

def empty : SourceSet := ⟨#[]⟩

def size (s : SourceSet) : Nat := s.files.size

def ids (s : SourceSet) : List FileId := (List.range s.size).map (· + 1)

/-- The set with one more file, under the next number. -/
def store (s : SourceSet) (path dotPath content : Bytes) (flags : FileFlags) :
    FileId × SourceSet :=
  let stored := SourceFile.dropCarriageReturns content
  let id := s.files.size + 1
  let file : SourceFile :=
    { id
      path := Path.clean path
      dotPath
      content := stored
      newlines := SourceFile.newlinesFrom 0 stored
      hash := sha256 stored
      flags := if stored.length = content.length then flags
        else flags ||| FileFlags.carriageReturns }
  (id, ⟨s.files.push file⟩)

/-- Stores a file under the next number. Offsets and numbers are words: a text that is too large for
them is refused as it comes, before carriage returns are dropped. -/
def add (s : SourceSet) (path dotPath content : Bytes) (flags : FileFlags) :
    Except Fault (FileId × SourceSet) :=
  if UInt32.size ≤ content.length then .error (.fileTooLarge path)
  else if UInt32.size ≤ s.size + 1 then .error .tooManyFiles
  else .ok (s.store path dotPath content flags)

/-- Stores a file that never was on disk. -/
def addInMemory (s : SourceSet) (path dotPath content : Bytes) :
    Except Fault (FileId × SourceSet) :=
  s.add path dotPath content FileFlags.inMemory

def get? (s : SourceSet) (id : FileId) : Option SourceFile :=
  if id = 0 then none else s.files[id - 1]?

/-- The file with a number that is in use. -/
def get (s : SourceSet) (id : FileId) : Except Fault SourceFile :=
  match s.get? id with
  | some f => .ok f
  | none => .error (.noSuchFile id)

/-- The first file with a dot path. -/
def find? (s : SourceSet) (dotPath : Bytes) : Option FileId :=
  (s.files.find? fun f => f.dotPath = dotPath).map SourceFile.id

/-- The positions of the two ends of a span. -/
def positions (s : SourceSet) (span : Span) : Except Fault (Position × Position) := do
  let f ← s.get span.file
  return (f.position span.start, f.position span.stop)

/-- The text of a span, as far as the file reaches; empty for no place. -/
def text (s : SourceSet) (span : Span) : Except Fault Bytes :=
  if !span.isValid then .ok []
  else do
    let f ← s.get span.file
    return (f.content.take span.stop.toNat).drop span.start.toNat

end SourceSet

end StateBuffer
