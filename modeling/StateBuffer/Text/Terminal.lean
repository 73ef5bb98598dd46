import StateBuffer.Text.Columns

/-!
The width of text on a terminal, where escape sequences take no room. A scan of the bytes knows
whether it stands inside a sequence; outside of one, every printable ASCII character takes a column
and everything else counts by clusters. A cluster adds up its code points, except that a flag and a
Hangul syllable count once and that a pictograph follows the selector after it.
-/

namespace StateBuffer

namespace Terminal

/-- Where a scan of terminal output stands. -/
inductive State where
  /-- Outside of all sequences. -/
  | ground
  /-- After an escape character. -/
  | escape
  /-- After an escape character and intermediate bytes. -/
  | escapeMiddle
  /-- At the beginning of a control sequence. -/
  | control
  /-- Among the parameters of a control sequence. -/
  | controlParameter
  /-- After the parameters of a control sequence. -/
  | controlMiddle
  /-- Inside a command to the operating system. -/
  | command
  /-- At the beginning of a control string for a device. -/
  | device
  /-- Inside any other string. -/
  | string
  deriving DecidableEq, Repr

namespace State

/-- The state that a byte leads to from everywhere, if there is one. -/
def anywhere? (b : UInt8) : Option State :=
  if b = 0x1B then some .escape
  else if b = 0x90 then some .device
  else if b = 0x98 || b = 0x9E || b = 0x9F then some .string
  else if b = 0x9B then some .control
  else if b = 0x9D then some .command
  else if b = 0x18 || b = 0x1A || (0x80 ≤ b && b ≤ 0x9C) then some .ground
  else none

/-- The state after the byte that follows an escape character. -/
def afterEscape (b : UInt8) : State :=
  if b < 0x20 || b = 0x7F then .escape
  else if b < 0x30 then .escapeMiddle
  else if b = Bytes.byte 'P' then .device
  else if b = Bytes.byte 'X' || b = Bytes.byte '^' || b = Bytes.byte '_' then .string
  else if b = Bytes.byte '[' then .control
  else if b = Bytes.byte ']' then .command
  else .ground

/-- The state after a byte of a control sequence; parameters lead to `more`. -/
def inControl (here more : State) (b : UInt8) : State :=
  if b < 0x20 || b = 0x7F then here
  else if b < 0x30 then .controlMiddle
  else if b < 0x40 then more
  else .ground

def next (s : State) (b : UInt8) : State :=
  if s = .command then
    if b = 0x1B then .escape
    else if b = 0x07 || b = 0x18 || b = 0x1A || b = 0x9C then .ground
    else .command
  else if s = .device && b = 0x1B then .string
  else match anywhere? b with
    | some t => t
    | none => match s with
      | .ground => .ground
      | .escape => afterEscape b
      | .escapeMiddle => if 0x30 ≤ b && b < 0x7F then .ground else .escapeMiddle
      | .control => inControl .control .controlParameter b
      | .controlParameter => inControl .controlParameter .controlParameter b
      | .controlMiddle => inControl .controlMiddle .ground b
      | .command => .command
      | .device => if (0x40 ≤ b && b < 0x7F) || (0x08 ≤ b && b ≤ 0x0D) then .string else .device
      | .string => .string

end State

/-- Is the code point wide? The description characters for ideographs that came last are not. -/
def isWide (point : Nat) : Bool :=
  CodePoint.inRanges CodePoint.wideRanges point && point ≠ 0x31EF
    && !(0x2FFC ≤ point && point ≤ 0x2FFF)

/-- The columns of a code point of a kind. -/
def ofPoint (kind : Cluster.Kind) (point : Nat) : Nat :=
  match kind with
  | .control | .carriageReturn | .lineFeed | .extend | .joiner => 0
  | .flag => 2
  | .pictograph => if CodePoint.inRanges CodePoint.pictureRanges point then 2 else 1
  | _ =>
    if point = 0x2E3A then 3
    else if point = 0x2E3B then 4
    else if isWide point then 2
    else 1

/-- The columns of a cluster, given the kind of its first code point and the columns so far. -/
def addPoint (first : Cluster.Kind) (columns point : Nat) : Nat :=
  match first with
  | .pictograph => if point = 0xFE0E then 1 else if point = 0xFE0F then 2 else columns
  | .flag | .hangulL => columns
  | _ => columns + ofPoint (Cluster.Kind.ofPoint point) point

def ofCluster (cluster : Bytes) : Nat :=
  match Utf8.points cluster with
  | [] => 0
  | p :: rest =>
    let first := Cluster.Kind.ofPoint p.1
    rest.foldl (fun columns q => addPoint first columns q.1) (ofPoint first p.1)

/-- The columns of a text, reading at most `fuel` bytes and clusters. -/
def widthFrom : Nat → State → Bytes → Nat
  | 0, _, _ => 0
  | _ + 1, _, [] => 0
  | fuel + 1, state, b :: rest =>
    if state ≠ .command && 0xC2 ≤ b && b ≤ 0xF4 then
      let cluster := Cluster.first (b :: rest)
      ofCluster cluster + widthFrom fuel .ground ((b :: rest).drop cluster.length)
    else
      (if state = .ground && 0x20 ≤ b && b < 0x80 then 1 else 0)
        + widthFrom fuel (state.next b) rest

def width (s : Bytes) : Nat := widthFrom s.length .ground s

/-- A block of text: tabs become spaces, and the lines get one width when there are several. -/
def block (s : Bytes) : Bytes :=
  let tabless := s.flatMap fun b => if b = 0x09 then Bytes.spaces 4 else [b]
  let lines := Bytes.split 0x0A (Bytes.replace "\r\n" "\n" tabless)
  if lines.length = 1 then Bytes.join "\n" lines
  else
    let widest := (lines.map width).foldl max 0
    Bytes.join "\n" (lines.map fun line => line ++ Bytes.spaces (widest - width line))

end Terminal

end StateBuffer
