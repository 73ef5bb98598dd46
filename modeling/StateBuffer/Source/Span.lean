import StateBuffer.Text.Bytes

/-!
Places in source files: half-open ranges of byte offsets. Offsets are 32-bit words, and file
number zero stands for no place at all. Files, nodes, items and initializers are numbered by natural
numbers; these stand for 32-bit words as long as there are fewer than `2 ^ 32` of each.
-/

namespace StateBuffer

/-- The number of a source file, a 32-bit word; files count from one, and a set refuses the one
whose number would be `2 ^ 32` (`SourceSet.add`). -/
abbrev FileId := Nat

/-- The number of a node: an import, a definition or an initializer, in source order from zero. Of
the nodes of a program there are fewer than `2 ^ 32`. -/
abbrev NodeId := Nat

/-- The number of an item; items count from one, and there are fewer than `2 ^ 32`. -/
abbrev ItemId := Nat

/-- The number of a stored initializer; initializers count from one, and there are fewer than
`2 ^ 32`. -/
abbrev ExprId := Nat

/-- The bytes from `start` up to but not including `stop` of a file. -/
structure Span where
  file : FileId
  start : UInt32
  stop : UInt32
  deriving DecidableEq, Repr, Inhabited

namespace Span

def none : Span := ⟨0, 0, 0⟩

def isValid (s : Span) : Bool := s.file ≠ 0

def isEmpty (s : Span) : Bool := s.start = s.stop

def length (s : Span) : UInt32 := s.stop - s.start

/-- The written form `file:start-stop`. -/
def text (s : Span) : Bytes :=
  Bytes.ofNat s.file ++ ":" ++ Bytes.ofNat s.start.toNat ++ "-" ++ Bytes.ofNat s.stop.toNat

/-- The span from offset `start` to offset `stop` of a file. An offset of more than 32 bits, where a
reader has to give up, is cut: texts with such offsets are no files (`SourceSet.add`). -/
def ofOffsets (file : FileId) (start stop : Nat) : Span := ⟨file, start.toUInt32, stop.toUInt32⟩

/-- The smallest span around both; a span of another file adds nothing. -/
def cover (s t : Span) : Span :=
  if s.file ≠ t.file then s
  else
    { s with
      start := if t.start < s.start then t.start else s.start
      stop := if s.stop < t.stop then t.stop else s.stop }

/-- The order by file, then start, then end. -/
def order (s t : Span) : Ordering :=
  (compare s.file t.file).then ((compare s.start t.start).then (compare s.stop t.stop))

def before (s t : Span) : Bool := s.order t = .lt

/-- Does `s` lie in `t` and hold at least one byte? -/
def inside (s t : Span) : Bool :=
  s.file = t.file && t.start ≤ s.start && s.stop ≤ t.stop && s.start < s.stop

end Span

end StateBuffer
