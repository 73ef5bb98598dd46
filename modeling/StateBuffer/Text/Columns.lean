import StateBuffer.Text.CodePoint
import StateBuffer.Text.ColumnRanges
import StateBuffer.Text.Utf8

/-!
The width of text in columns. A text is cut into clusters, the runs of code points that a reader
takes for one character; a cluster is as wide as its first code point that has a width at all. An
ill-formed text is cut by what its lead bytes announce.
-/

namespace StateBuffer

namespace Cluster

/-- What a code point does to its neighbours. -/
inductive Kind where
  | carriageReturn
  | lineFeed
  | control
  | extend
  | joiner
  | spacingMark
  | prepend
  | flag
  | pictograph
  | hangulL
  | hangulV
  | hangulT
  | hangulLV
  | hangulLVT
  | other
  deriving DecidableEq, Repr

open CodePoint in
def Kind.ofPoint (point : Nat) : Kind :=
  if point = 0x0D then .carriageReturn
  else if point = 0x0A then .lineFeed
  else if point < 0x20 then .control
  else if point < 0x7F then .other
  else if point = 0x200D then .joiner
  else if 0x1F1E6 ≤ point && point ≤ 0x1F1FF then .flag
  else if 0xAC00 ≤ point && point ≤ 0xD7A3 then
    if (point - 0xAC00) % 28 = 0 then .hangulLV else .hangulLVT
  else if (0x1100 ≤ point && point ≤ 0x115F) || (0xA960 ≤ point && point ≤ 0xA97C) then .hangulL
  else if (0x1160 ≤ point && point ≤ 0x11A7) || (0xD7B0 ≤ point && point ≤ 0xD7C6) then .hangulV
  else if (0x11A8 ≤ point && point ≤ 0x11FF) || (0xD7CB ≤ point && point ≤ 0xD7FB) then .hangulT
  else if inRanges extendRanges point then .extend
  else if inRanges spacingMarkRanges point then .spacingMark
  else if inRanges prependRanges point then .prepend
  else if inRanges controlRanges point then .control
  else if inRanges pictographRanges point then .pictograph
  else .other

/-- What is remembered of the cluster read so far: its last kind, whether it ends in a pictograph
followed by extenders, whether in one joiner after that, and whether in an odd number of flag
letters. -/
structure Open where
  last : Kind
  pictograph : Bool
  joined : Bool
  oddFlags : Bool

/-- The memory of a cluster that has just begun. -/
def Open.start (kind : Kind) : Open := ⟨kind, kind = .pictograph, false, kind = .flag⟩

/-- The memory after one more code point of the same cluster. -/
def Open.push (cluster : Open) (kind : Kind) : Open where
  last := kind
  pictograph := kind = .pictograph || (cluster.pictograph && kind = .extend)
  joined := cluster.pictograph && kind = .joiner
  oddFlags := kind = .flag && !cluster.oddFlags

/-- Does a code point of this kind stay in the cluster? -/
def Open.accepts (cluster : Open) (kind : Kind) : Bool :=
  match cluster.last, kind with
  | .carriageReturn, .lineFeed => true
  | .carriageReturn, _ | .lineFeed, _ | .control, _ => false
  | _, .carriageReturn | _, .lineFeed | _, .control => false
  | _, .extend | _, .joiner | _, .spacingMark => true
  | .prepend, _ => true
  | .hangulL, .hangulL | .hangulL, .hangulV | .hangulL, .hangulLV | .hangulL, .hangulLVT => true
  | .hangulLV, .hangulV | .hangulV, .hangulV | .hangulLV, .hangulT | .hangulV, .hangulT => true
  | .hangulLVT, .hangulT | .hangulT, .hangulT => true
  | .joiner, .pictograph => cluster.joined
  | .flag, .flag => cluster.oddFlags
  | _, _ => false

/-- The length of the sequence that a lead byte announces. -/
def announced (b : UInt8) : Nat :=
  if b < 0xC2 then 1
  else if b < 0xE0 then 2
  else if b < 0xF0 then 3
  else if b < 0xF8 then 4
  else 1

def continues (b : UInt8) : Bool := 0x80 ≤ b && b < 0xC0

/-- The kind of a piece: that of its code point if it is one. -/
def Kind.ofPiece (piece : Bytes) : Kind :=
  match Utf8.points piece with
  | [(point, _)] => Kind.ofPoint point
  | _ => .other

/-- The pieces of a text with their kinds: what each lead byte announces, up to a byte that does
not belong there. When the text ends before an announced sequence does, the last piece has no
kind. -/
def pieces : Bytes → List (Option Kind × Bytes)
  | [] => []
  | b :: rest =>
    let tail := announced b - 1
    if rest.length < tail then [(none, b :: rest)]
    else
      let size := ((rest.take tail).takeWhile continues).length
      let piece := b :: rest.take size
      (some (Kind.ofPiece piece), piece) :: pieces (rest.drop size)
termination_by s => s.length
decreasing_by simp only [List.length_drop, List.length_cons]; omega

/-- Cuts pieces into clusters: the first cluster continues `cluster`, whose bytes so far are
`taken`. A piece without a kind stays in the cluster. -/
def cutFrom (cluster : Open) (taken : Bytes) : List (Option Kind × Bytes) → List Bytes
  | [] => [taken]
  | (none, piece) :: rest => cutFrom cluster (taken ++ piece) rest
  | (some kind, piece) :: rest =>
    if cluster.accepts kind then cutFrom (cluster.push kind) (taken ++ piece) rest
    else taken :: cutFrom (Open.start kind) piece rest

def cut (s : Bytes) : List Bytes :=
  match pieces s with
  | [] => []
  | (kind, piece) :: rest => cutFrom (Open.start (kind.getD .other)) piece rest

def first (s : Bytes) : Bytes := (cut s).headD []

end Cluster

namespace Columns

open CodePoint in
/-- The number of columns a code point takes. -/
def ofPoint (point : Nat) : Nat :=
  if point < 0x20 || (0x7F ≤ point && point ≤ 0x9F) || point = 0xAD then 0
  else if point < 0x300 then 1
  else if inRanges zeroWidthRanges point then 0
  else if (0x27E6 ≤ point && point ≤ 0x27ED) || point = 0x2985 || point = 0x2986 then 1
  else if inRanges wideRanges point then 2
  else 1

/-- The width of a cluster: the first width among its code points that is not zero. -/
def ofCluster (cluster : Bytes) : Nat :=
  (((Utf8.points cluster).map fun p => ofPoint p.1).find? (· ≠ 0)).getD 0

def width (s : Bytes) : Nat := ((Cluster.cut s).map ofCluster).foldl (· + ·) 0

/-- The clusters that fit into a width, in order, up to the first that does not. -/
def takeFitting (room : Nat) : List Bytes → Bytes
  | [] => []
  | cluster :: rest =>
    if ofCluster cluster ≤ room then cluster ++ takeFitting (room - ofCluster cluster) rest
    else []

/-- The text cut to a width, with `mark` in place of what is missing. -/
def cutTo (room : Nat) (mark s : Bytes) : Bytes :=
  if width s ≤ room then s
  else if room < width mark then mark
  else takeFitting (room - width mark) (Cluster.cut s) ++ mark

/-- The text cut to a width. A width that is not positive asks for no cut; up to three columns
the text is cut off without a mark, from there on an ellipsis of three dots shows the cut. -/
def truncate (room : Int) (s : Bytes) : Bytes :=
  if room ≤ 0 then s
  else if room ≤ 3 then cutTo room.toNat [] s
  else cutTo room.toNat "..." s

/-- Spaces after the text up to a width in columns. -/
def fillRight (room : Nat) (s : Bytes) : Bytes := s ++ Bytes.spaces (room - width s)

end Columns

end StateBuffer
