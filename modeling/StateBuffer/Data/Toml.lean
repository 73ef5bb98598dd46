import StateBuffer.Text.Utf8

/-!
TOML documents. Reading builds the tables as it goes, since whether a key may be given again depends
on how it came into being: a table that only stands on the way to another may still be opened by its
own header, once. A key that holds an array may be given again. The keys are listed in the order in
which the document gives them. The replacement character, which stands for text lost on the way, is
refused.
-/

namespace StateBuffer

/-- A value. Floats and times are recognized, but what they are is not kept. -/
inductive Toml where
  | string (s : Bytes)
  | integer (i : Int)
  | float
  | bool (b : Bool)
  | time
  | array (items : List Toml)
  | table (entries : List (Bytes × Toml))
  /-- The tables of an array, each opened by a header of its own. -/
  | tables (all : List (List (Bytes × Toml)))
  deriving Repr, Inhabited

namespace Toml

/-- A table: values by name. -/
abbrev Table := List (Bytes × Toml)

abbrev Key := List Bytes

/-- May the byte stand in a key without quotation marks? -/
def isBare (b : UInt8) : Bool := Bytes.isLetter b || Bytes.isDigit b || b = 0x5F || b = 0x2D

def escapeByte (b : UInt8) : Bytes :=
  if b = 0x22 || b = 0x5C then [0x5C, b]
  else if b = 0x08 then "\\b"
  else if b = 0x09 then "\\t"
  else if b = 0x0A then "\\n"
  else if b = 0x0C then "\\f"
  else if b = 0x0D then "\\r"
  else if b < 0x20 || b = 0x7F then "\\u" ++ Bytes.hexNat 4 b.toNat
  else [b]

/-- The written form of a part of a key: between quotation marks unless it can do without. -/
def partText (part : Bytes) : Bytes :=
  if !part.isEmpty && part.all isBare then part
  else [0x22] ++ part.flatMap escapeByte ++ [0x22]

def Key.text (k : Key) : Bytes := Bytes.join "." (k.map partText)

def isArray : Toml → Bool
  | .array _ => true
  | _ => false

/-! ### Tables -/

def find? (t : Table) (name : Bytes) : Option Toml := (t.find? fun e => e.1 = name).map Prod.snd

/-- Replaces the value of a name, or adds it at the end. -/
def replace (name : Bytes) (value : Toml) : Table → Table
  | [] => [(name, value)]
  | e :: rest => if e.1 = name then (name, value) :: rest else e :: replace name value rest

/-- The table at a key; of an array of tables, the last. -/
def tableAt : Key → Table → Option Table
  | [], t => some t
  | k :: rest, t => match find? t k with
    | some (.table inner) => tableAt rest inner
    | some (.tables all) => all.getLast?.bind (tableAt rest)
    | _ => none

def edit (f : Table → Option Table) : Key → Table → Option Table
  | [], t => f t
  | k :: rest, t => match find? t k with
    | some (.table inner) => (edit f rest inner).map fun inner => replace k (.table inner) t
    | some (.tables all) => do
      let last ← all.getLast?
      let last ← edit f rest last
      return replace k (.tables (all.dropLast ++ [last])) t
    | _ => none

/-- A document while it is read: its tables, the keys in order, the tables that no header has opened
yet, and the keys that hold arrays. -/
structure Document where
  root : Table
  keys : List Key
  implicit : List Bytes
  arrays : List Bytes

namespace Document

def empty : Document := ⟨[], [], [], []⟩

def addKey (d : Document) (k : Key) : Document := { d with keys := d.keys ++ [k] }

/-- Marks a table as one that no header has opened. -/
def markImplicit (d : Document) (k : Key) : Document :=
  { d with implicit := k.text :: d.implicit }

/-- Takes note of whether a key holds an array. -/
def noteArray (d : Document) (k : Key) (isArray : Bool) : Document :=
  let others := d.arrays.filter (· ≠ k.text)
  { d with arrays := if isArray then k.text :: others else others }

/-- Where the note on a name in a table goes: with the empty name it goes to the table, unless that
is the whole document. -/
def notePlace (context : Key) (name : Bytes) : Key :=
  if name.isEmpty && !context.isEmpty then context else context ++ [name]

/-- Gives a name in a table its value. -/
def set (d : Document) (context : Key) (name : Bytes) (value : Toml) : Option Document := do
  let t ← tableAt context d.root
  let full := Key.text (context ++ [name])
  if (find? t name).isNone then
    let root ← edit (fun t => some (replace name value t)) context d.root
    return { d with root }
  else
    let opened := { d with implicit := d.implicit.filter (· ≠ full) }
    if d.arrays.contains full then
      let root ← edit (fun t => some (replace name value t)) context d.root
      return { opened with root }
    else if d.implicit.contains full then return opened
    else none

/-- Makes sure that the tables on the way to a key exist, the first `count` parts of it. -/
def openWay (d : Document) (k : Key) : Nat → Option Document
  | 0 => some d
  | count + 1 => do
    let d ← d.openWay k count
    let parent := k.take count
    let name := k.getD count []
    let t ← tableAt parent d.root
    match find? t name with
    | none =>
      let root ← edit (fun t => some (replace name (.table []) t)) parent d.root
      return { d.markImplicit (k.take (count + 1)) with root }
    | some (.table _) => return d
    | some (.tables _) => return d
    | some _ => none

def openTable (d : Document) (k : Key) : Option Document := do
  let d ← d.openWay k (k.length - 1)
  d.set k.dropLast (k.getLastD []) (.table [])

def openTables (d : Document) (k : Key) : Option Document := do
  let d ← d.openWay k (k.length - 1)
  let name := k.getLastD []
  let root ← edit (fun t => match find? t name with
    | none => some (replace name (.tables [[]]) t)
    | some (.tables all) => some (replace name (.tables (all ++ [[]])) t)
    | some _ => none) k.dropLast d.root
  return { d with root }

/-- Opens the tables on the way to a dotted key below a context. -/
def openDotted (d : Document) (context : Key) : Key → Option Document
  | [] => some d
  | part :: rest => do
    let d ← (d.markImplicit (context ++ [part])).openTable (context ++ [part])
    d.openDotted (context ++ [part]) rest

end Document

/-! ### Text -/

def isBlank (b : UInt8) : Bool := b = 0x20 || b = 0x09

/-- Drops blanks within a line. -/
def skipBlanks (s : Bytes) : Bytes := s.dropWhile isBlank

/-- The end of a line with what follows it; a comment may come before. -/
def lineEnd? (s : Bytes) : Option Bytes :=
  let s := match skipBlanks s with
    | 0x23 :: rest => rest.dropWhile fun b => b ≠ 0x0A && b ≠ 0x0D
    | rest => rest
  match s with
  | [] => some []
  | 0x0A :: rest => some rest
  | 0x0D :: 0x0A :: rest => some rest
  | _ => none

/-- The number in hexadecimal digits of a fixed count, if it is a code point. -/
def escapedPoint? (count : Nat) (s : Bytes) : Option (Bytes × Bytes) := do
  let digits ← (s.take count).mapM Bytes.hexDigit?
  if digits.length < count then none
  else
    let point := digits.foldl (fun n d => n * 16 + d) 0
    if (0xD800 ≤ point && point < 0xE000) || 0x110000 ≤ point then none
    else some (Utf8.encode point, s.drop count)

def escape? : Bytes → Option (Bytes × Bytes)
  | 0x62 :: rest => some ([0x08], rest)
  | 0x74 :: rest => some ([0x09], rest)
  | 0x6E :: rest => some ([0x0A], rest)
  | 0x66 :: rest => some ([0x0C], rest)
  | 0x72 :: rest => some ([0x0D], rest)
  | 0x22 :: rest => some ([0x22], rest)
  | 0x5C :: rest => some ([0x5C], rest)
  | 0x75 :: rest => escapedPoint? 4 rest
  | 0x55 :: rest => escapedPoint? 8 rest
  | _ => none

/-- A string on one line after its opening quotation mark. -/
def line? : Nat → Bytes → Option (Bytes × Bytes)
  | 0, _ => none
  | _ + 1, [] => none
  | fuel + 1, b :: rest =>
    if b = 0x22 then some ([], rest)
    else if b = 0x0A || b = 0x0D then none
    else if b = 0x5C then do
      let (text, rest) ← escape? rest
      let (tail, rest) ← line? fuel rest
      return (text ++ tail, rest)
    else do
      let (tail, rest) ← line? fuel rest
      return (b :: tail, rest)

/-- A string on one line without escapes, after its opening quotation mark. -/
def rawLine? : Bytes → Option (Bytes × Bytes)
  | [] => none
  | b :: rest =>
    if b = 0x27 then some ([], rest)
    else if b = 0x0A || b = 0x0D then none
    else (rawLine? rest).map fun (tail, rest) => (b :: tail, rest)

/-- A newline right after an opening quotation mark does not count. -/
def dropFirstNewline : Bytes → Bytes
  | 0x0A :: rest => rest
  | 0x0D :: 0x0A :: rest => rest
  | s => s

/-- Is this a blank or part of a newline? -/
def isSpace (b : UInt8) : Bool := isBlank b || b = 0x0A || b = 0x0D

/-- A string over several lines after its opening quotation marks. Three marks end it, and up to two
more before them belong to it, three if a backslash stands right before them, as `slashed` tells;
`quote` is the mark, and only double marks go with escapes. -/
def lines? (quote : UInt8) : Nat → Bool → Bytes → Option (Bytes × Bytes)
  | 0, _, _ => none
  | _ + 1, _, [] => none
  | fuel + 1, slashed, b :: rest =>
    if b = quote then
      let marks := (b :: rest).takeWhile (· = quote)
      let after := (b :: rest).dropWhile (· = quote)
      if (if slashed then 7 else 6) ≤ marks.length then none
      else if 3 ≤ marks.length then some (marks.drop 3, after)
      else (lines? quote fuel false after).map fun (tail, rest) => (marks ++ tail, rest)
    else if b = 0x5C && quote = 0x22 then
      if (rest.takeWhile isSpace).contains 0x0A then
        lines? quote fuel false (rest.dropWhile isSpace)
      else do
        let (text, after) ← escape? rest
        let (tail, after) ← lines? quote fuel (rest.head? = some 0x5C) after
        return (text ++ tail, after)
    else (lines? quote fuel false rest).map fun (tail, rest) => (b :: tail, rest)

/-! ### Keys -/

def part? : Bytes → Option (Bytes × Bytes)
  | 0x22 :: rest => line? (rest.length + 1) rest
  | 0x27 :: rest => rawLine? rest
  | s =>
    let name := s.takeWhile isBare
    if name.isEmpty then none else some (name, s.dropWhile isBare)

def key? : Nat → Bytes → Option (Key × Bytes)
  | 0, _ => none
  | fuel + 1, s => do
    let (part, rest) ← part? (skipBlanks s)
    match skipBlanks rest with
    | 0x2E :: rest => do
      let (parts, rest) ← key? fuel rest
      return (part :: parts, rest)
    | rest => return ([part], rest)

/-! ### Numbers and times -/

/-- Does an underscore always stand between digits, and a digit at the end? -/
def underscoresFit (isDigit : UInt8 → Bool) : Bool → Bytes → Bool
  | before, [] => before
  | before, b :: rest =>
    if b = 0x5F then before && underscoresFit isDigit false rest
    else isDigit b && underscoresFit isDigit true rest

/-- The value of digits in a base, underscores left aside. -/
def digitsValue (base : Nat) (s : Bytes) : Nat :=
  s.foldl (fun n b => match Bytes.hexDigit? b with
    | some d => n * base + d
    | none => n) 0

def isDigitOf (base : Nat) (b : UInt8) : Bool :=
  ((Bytes.hexDigit? b).map fun d => decide (d < base)).getD false

/-- An integer that fits into 64 bits with a sign. -/
def bounded? (i : Int) : Option Toml :=
  if -9223372036854775808 ≤ i ∧ i ≤ 9223372036854775807 then some (.integer i) else none

/-- A decimal integer without sign, and whether it is well written. -/
def whole? (s : Bytes) : Option Nat :=
  if underscoresFit Bytes.isDigit false s && !(s.head? = some 0x30 && 1 < s.length)
  then some (digitsValue 10 s) else none

/-- A float: digits, then a fraction or an exponent or both. Its size must be within 64 bits. -/
def isFloat (s : Bytes) : Bool :=
  let (mantissa, power) := Bytes.cut 0x65 (s.map fun b => if b = 0x45 then 0x65 else b)
  let (whole, part) := Bytes.cut 0x2E mantissa
  let digits := power.map fun p => match p with
    | 0x2B :: d => d
    | 0x2D :: d => d
    | d => d
  let wellWritten := (whole? whole).isSome
    && (part.map (underscoresFit Bytes.isDigit false)).getD true
    && (digits.map (underscoresFit Bytes.isDigit false)).getD true
    && (part.isSome || power.isSome)
  let value := digitsValue 10 (whole ++ part.getD [])
  let places : Nat := ((part.getD []).filter Bytes.isDigit).length
  let size := digitsValue 10 (digits.getD [])
  let negative := power.bind List.head? = some 0x2D
  let limit := Nat.pow 2 1024 - Nat.pow 2 970
  let fits := value = 0 || if negative
    then mantissa.length ≤ size || value < limit * Nat.pow 10 (places + size)
    else size ≤ 400 + places && value * Nat.pow 10 size < limit * Nat.pow 10 places
  wellWritten && fits

/-- A number of exactly `count` digits, if it lies between two bounds. -/
def field? (count low high : Nat) (s : Bytes) : Option Bytes :=
  let digits := s.take count
  if digits.length = count && digits.all Bytes.isDigit
      && low ≤ digitsValue 10 digits && digitsValue 10 digits ≤ high
  then some (s.drop count) else none

def daysOf (year month : Nat) : Nat :=
  if month = 2 then
    if year % 4 = 0 && (year % 100 ≠ 0 || year % 400 = 0) then 29 else 28
  else if month = 4 || month = 6 || month = 9 || month = 11 then 30 else 31

def byte? (b : UInt8) : Bytes → Option Bytes
  | c :: rest => if c = b then some rest else none
  | [] => none

def date? (s : Bytes) : Option Bytes := do
  let rest ← field? 4 0 9999 s
  let rest ← byte? 0x2D rest
  let afterMonth ← field? 2 1 12 rest
  let day ← byte? 0x2D afterMonth
  field? 2 1 (daysOf (digitsValue 10 (s.take 4)) (digitsValue 10 (rest.take 2))) day

/-- A time of day, fractions of a second included. The hour may have one digit. -/
def clock? (s : Bytes) : Option Bytes := do
  let rest ← field? (min 2 (max 1 (s.takeWhile Bytes.isDigit).length)) 0 23 s
  let rest ← byte? 0x3A rest
  let rest ← field? 2 0 59 rest
  let rest ← byte? 0x3A rest
  let rest ← field? 2 0 59 rest
  match rest with
  | 0x2E :: d :: rest => if Bytes.isDigit d then some (rest.dropWhile Bytes.isDigit) else none
  | rest => some rest

/-- A distance from the zero meridian, or nothing. -/
def zone? : Bytes → Option Bytes
  | 0x5A :: rest => some rest
  | 0x7A :: rest => some rest
  | b :: rest =>
    if b = 0x2B || b = 0x2D then do
      let rest ← field? 2 0 24 rest
      let rest ← byte? 0x3A rest
      field? 2 0 60 rest
    else some (b :: rest)
  | [] => some []

/-- Is this a date, a time of day or both? -/
def isTime (s : Bytes) : Bool :=
  match clock? s with
  | some [] => true
  | some _ => false
  | none => match date? s with
    | none => false
    | some [] => true
    | some (mark :: rest) =>
      (mark = 0x54 || mark = 0x74 || mark = 0x20)
        && ((clock? rest).bind zone?) = some []

def number? (s : Bytes) : Option Toml :=
  match s with
  | 0x30 :: 0x78 :: d :: digits =>
    if isDigitOf 16 d && underscoresFit (isDigitOf 16) false (d :: digits)
    then bounded? (digitsValue 16 (d :: digits)) else none
  | 0x30 :: 0x6F :: d :: digits =>
    if isDigitOf 8 d && underscoresFit (isDigitOf 8) false (d :: digits)
    then bounded? (digitsValue 8 (d :: digits)) else none
  | 0x30 :: 0x62 :: d :: digits =>
    if isDigitOf 2 d && underscoresFit (isDigitOf 2) false (d :: digits)
    then bounded? (digitsValue 2 (d :: digits)) else none
  | _ =>
    let (sign, body) : Bytes × Bytes := match s with
      | 0x2B :: rest => ([0x2B], rest)
      | 0x2D :: rest => ([0x2D], rest)
      | _ => ([], s)
    if body = "inf" ∨ body = "nan" then some .float
    else match whole? body with
      | some n => bounded? (if sign = [0x2D] then -(n : Int) else n)
      | none => if isFloat body then some .float else none

def isScalarByte (b : UInt8) : Bool :=
  Bytes.isLetter b || Bytes.isDigit b || b = 0x5F || b = 0x2B || b = 0x2D || b = 0x2E

def isTimeByte (b : UInt8) : Bool :=
  Bytes.isDigit b || (Bytes.ofString "-:Tt .Zz+").contains b

/-- Does a date or a time of day begin here? Digits come first, but not a lone zero, and then a
dash or a colon. -/
def startsTime (s : Bytes) : Bool :=
  let digits := s.takeWhile Bytes.isDigit
  let mark := (s.dropWhile Bytes.isDigit).head?
  !digits.isEmpty && digits ≠ [0x30] && (mark = some 0x2D || mark = some 0x3A)

/-- A number, a time or a word with what follows it. -/
def scalar? (s : Bytes) : Option (Toml × Bytes) :=
  if startsTime s then
    if isTime (Bytes.trimEndOf 0x20 (s.takeWhile isTimeByte))
    then some (.time, s.dropWhile isTimeByte) else none
  else
    let text := s.takeWhile isScalarByte
    let value := if text = "true" then some (.bool true)
      else if text = "false" then some (.bool false)
      else number? text
    value.map fun v => (v, s.dropWhile isScalarByte)

/-- What follows blanks, newlines and comments. -/
def skipSpace : Nat → Bytes → Bytes
  | 0, s => s
  | fuel + 1, s =>
    match s.dropWhile isSpace with
    | 0x23 :: rest => skipSpace fuel (rest.dropWhile fun b => b ≠ 0x0A)
    | rest => rest

/-! ### Values -/

mutual

/-- A value, to be given to a name in a table. Tables inside it go into the document at once. -/
def value : Nat → Document → Key → Bytes → Bool → Bytes → Option (Toml × Document × Bytes)
  | 0, _, _, _, _, _ => none
  | fuel + 1, d, context, name, inArray, s =>
    match skipBlanks s with
    | 0x22 :: 0x22 :: 0x22 :: rest =>
      (lines? 0x22 (rest.length + 1) false (dropFirstNewline rest)).map fun (t, rest) =>
        (.string t, d, rest)
    | 0x27 :: 0x27 :: 0x27 :: rest =>
      (lines? 0x27 (rest.length + 1) false (dropFirstNewline rest)).map fun (t, rest) =>
        (.string t, d, rest)
    | 0x22 :: rest => (line? (rest.length + 1) rest).map fun (t, rest) => (.string t, d, rest)
    | 0x27 :: rest => (rawLine? rest).map fun (t, rest) => (.string t, d, rest)
    | 0x5B :: rest => do
      let noted := d.noteArray (Document.notePlace context name) true
      let (all, d, rest) ← items fuel noted context name rest
      return (.array all, d, rest)
    | 0x7B :: rest => do
      let place := context ++ [name]
      let d := d.markImplicit place
      let d ← if inArray then d.openTables place else d.openTable place
      match skipBlanks rest with
      | 0x7D :: rest => return (.table [], d, rest)
      | rest => do
        let (entries, d, rest) ← pairs fuel d place rest
        return (.table entries, d, rest)
    | rest => (scalar? rest).map fun (v, rest) => (v, d, rest)

/-- The items of an array up to its closing bracket. -/
def items : Nat → Document → Key → Bytes → Bytes → Option (List Toml × Document × Bytes)
  | 0, _, _, _, _ => none
  | fuel + 1, d, context, name, s =>
    match skipSpace s.length s with
    | 0x5D :: rest => some ([], d, rest)
    | rest => do
      let (first, d, rest) ← value fuel d context name true rest
      match skipSpace rest.length rest with
      | 0x5D :: rest => return ([first], d, rest)
      | 0x2C :: rest => do
        let (more, d, rest) ← items fuel d context name rest
        return (first :: more, d, rest)
      | _ => none

/-- The pairs of a table on one line up to its closing brace. -/
def pairs : Nat → Document → Key → Bytes → Option (Table × Document × Bytes)
  | 0, _, _, _ => none
  | fuel + 1, d, context, s => do
    let (name, v, d, rest) ← pair fuel d context s
    match skipBlanks rest with
    | 0x7D :: rest => return ([(name, v)], d, rest)
    | 0x2C :: rest => do
      let (more, d, rest) ← pairs fuel d context rest
      return ((name, v) :: more, d, rest)
    | _ => none

/-- A key, an equals sign and a value, put into the table of a context. -/
def pair : Nat → Document → Key → Bytes → Option (Bytes × Toml × Document × Bytes)
  | 0, _, _, _ => none
  | fuel + 1, d, context, s => do
    let (k, rest) ← key? (s.length + 1) s
    let rest ← byte? 0x3D rest
    let way := k.dropLast
    let name := k.getLastD []
    let d ← d.openDotted context way
    let inner := context ++ way
    let (v, d, rest) ← value fuel (d.addKey (inner ++ [name])) inner name false rest
    let d ← d.set inner name v
    return (name, v, d.noteArray (Document.notePlace inner name) v.isArray, rest)

end

/-- A table header after its opening bracket: the key and what follows the closing one. -/
def header? (s : Bytes) : Option (Key × Bytes) := do
  let (k, rest) ← key? (s.length + 1) s
  let rest ← byte? 0x5D rest
  return (k, rest)

/-- The lines of a document, `context` being the table of the last header. -/
def body : Nat → Document → Key → Bytes → Option Document
  | 0, _, _, _ => none
  | fuel + 1, d, context, s =>
    match skipSpace s.length s with
    | [] => some d
    | 0x5B :: 0x5B :: rest => do
      let (k, rest) ← header? rest
      let rest ← byte? 0x5D rest
      let rest ← lineEnd? rest
      let d ← d.openTables k
      body fuel ((d.noteArray k false).addKey k) k rest
    | 0x5B :: rest => do
      let (k, rest) ← header? rest
      let rest ← lineEnd? rest
      let d ← d.openTable k
      body fuel ((d.noteArray k false).addKey k) k rest
    | rest => do
      let (_, _, d, rest) ← pair (rest.length + 1) d context rest
      let rest ← lineEnd? rest
      body fuel d context rest

/-- May a text hold these bytes: no control characters but tabs and newlines, and carriage returns
only before newlines? -/
def isPlain : Bytes → Bool
  | [] => true
  | 0x0D :: rest => rest.head? = some 0x0A && isPlain rest
  | b :: rest => (0x20 ≤ b || b = 0x09 || b = 0x0A) && b ≠ 0x7F && isPlain rest

/-- Does the replacement character stand in the text? -/
def hasReplacement : Bytes → Bool
  | [] => false
  | 0xEF :: 0xBF :: 0xBD :: _ => true
  | _ :: rest => hasReplacement rest

def dropMark : Bytes → Bytes
  | 0xFF :: 0xFE :: rest => rest
  | 0xFE :: 0xFF :: rest => rest
  | 0xEF :: 0xBB :: 0xBF :: rest => rest
  | s => s

/-- The document of a text; `none` if it is not in the grammar. -/
def read? (s : Bytes) : Option Document :=
  let s := dropMark s
  if Utf8.isValid s && isPlain s && !hasReplacement s then
    body (s.length + 1) Document.empty [] s
  else none

end Toml

end StateBuffer
