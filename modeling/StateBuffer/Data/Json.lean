import StateBuffer.Text.Utf8

/-!
JSON values, their text and their reading. Numbers keep their literal text, so no digit is lost,
and objects keep their members in order, repeated names included. The writer escapes everything
that could end a script element or a line; the reader takes the first value of a text and hands
back the rest.
-/

namespace StateBuffer

inductive Json where
  | null
  | bool (b : Bool)
  | number (literal : Bytes)
  | string (s : Bytes)
  | array (items : List Json)
  | object (members : List (Bytes × Json))
  deriving Inhabited, Repr

namespace Json

def ofNat (n : Nat) : Json := .number (Bytes.ofNat n)

def ofInt (i : Int) : Json := .number (Bytes.ofInt i)

def entry (name : String) (value : Json) : Bytes × Json := (name, value)

/-! ### Writing -/

/-- One code point inside a JSON string. -/
def escapePoint (point : Nat) (bytes : Bytes) : Bytes :=
  if point = 0x22 then "\\\""
  else if point = 0x5C then "\\\\"
  else if point = 0x08 then "\\b"
  else if point = 0x0C then "\\f"
  else if point = 0x0A then "\\n"
  else if point = 0x0D then "\\r"
  else if point = 0x09 then "\\t"
  else if point < 0x20 || point = 0x3C || point = 0x3E || point = 0x26
      || point = 0x2028 || point = 0x2029 then "\\u" ++ Bytes.hexNat 4 point
  else match bytes with
    | [b] => if 0x80 ≤ b then "\\ufffd" else bytes
    | _ => bytes

def quoteString (s : Bytes) : Bytes :=
  Bytes.byte '"' :: (Utf8.points s).flatMap (fun (point, bytes) => escapePoint point bytes)
    ++ [Bytes.byte '"']

mutual

def compact : Json → Bytes
  | .null => "null"
  | .bool true => "true"
  | .bool false => "false"
  | .number literal => literal
  | .string s => quoteString s
  | .array [] => "[]"
  | .array (item :: items) => "[" ++ compact item ++ compactItems items ++ "]"
  | .object [] => "\x7b\x7d"
  | .object ((name, value) :: members) =>
    "\x7b" ++ quoteString name ++ ":" ++ compact value ++ compactMembers members ++ "\x7d"

def compactItems : List Json → Bytes
  | [] => []
  | item :: items => "," ++ compact item ++ compactItems items

def compactMembers : List (Bytes × Json) → Bytes
  | [] => []
  | (name, value) :: members =>
    "," ++ quoteString name ++ ":" ++ compact value ++ compactMembers members

end

/-- A new line at a depth of nesting, two spaces for each level. -/
def newline (depth : Nat) : Bytes := 0x0A :: Bytes.spaces (2 * depth)

mutual

/-- The text of a value spread over lines. -/
def pretty (depth : Nat) : Json → Bytes
  | .null => "null"
  | .bool true => "true"
  | .bool false => "false"
  | .number literal => literal
  | .string s => quoteString s
  | .array [] => "[]"
  | .array (item :: items) =>
    "[" ++ newline (depth + 1) ++ pretty (depth + 1) item ++ prettyItems depth items
      ++ newline depth ++ "]"
  | .object [] => "\x7b\x7d"
  | .object ((name, value) :: members) =>
    "\x7b" ++ newline (depth + 1) ++ quoteString name ++ ": " ++ pretty (depth + 1) value
      ++ prettyMembers depth members ++ newline depth ++ "\x7d"

/-- The further items of an array, each on a line of its own. -/
def prettyItems (depth : Nat) : List Json → Bytes
  | [] => []
  | item :: items =>
    "," ++ newline (depth + 1) ++ pretty (depth + 1) item ++ prettyItems depth items

/-- The further members of an object, each on a line of its own. -/
def prettyMembers (depth : Nat) : List (Bytes × Json) → Bytes
  | [] => []
  | (name, value) :: members =>
    "," ++ newline (depth + 1) ++ quoteString name ++ ": " ++ pretty (depth + 1) value
      ++ prettyMembers depth members

end

/-- The document form: spread over lines and ended by a newline. -/
def document (value : Json) : Bytes := pretty 0 value ++ [0x0A]

/-! ### Reading -/

def skipBlanks (s : Bytes) : Bytes :=
  s.dropWhile fun b => b = 0x20 || b = 0x09 || b = 0x0A || b = 0x0D

/-- Four hexadecimal digits. -/
def hexUnit? : Bytes → Option (Nat × Bytes)
  | a :: b :: c :: d :: rest => do
    let a ← Bytes.hexDigit? a
    let b ← Bytes.hexDigit? b
    let c ← Bytes.hexDigit? c
    let d ← Bytes.hexDigit? d
    return (a * 4096 + b * 256 + c * 16 + d, rest)
  | _ => none

/-- The code point of an escape after its backslash, and how much of the text it takes. A
surrogate that does not begin a pair reads as the replacement character. -/
def escape? : Bytes → Option (Nat × Bytes)
  | 0x22 :: rest => some (0x22, rest)
  | 0x5C :: rest => some (0x5C, rest)
  | 0x2F :: rest => some (0x2F, rest)
  | 0x62 :: rest => some (0x08, rest)
  | 0x66 :: rest => some (0x0C, rest)
  | 0x6E :: rest => some (0x0A, rest)
  | 0x72 :: rest => some (0x0D, rest)
  | 0x74 :: rest => some (0x09, rest)
  | 0x75 :: rest => do
    let (unit, rest) ← hexUnit? rest
    if Utf16.isHigh unit || Utf16.isLow unit then
      match rest with
      | 0x5C :: 0x75 :: more =>
        match hexUnit? more with
        | some (second, after) =>
          if Utf16.isHigh unit && Utf16.isLow second then
            return (Utf16.pair unit second, after)
          else return (Utf8.replacement, rest)
        | none => return (Utf8.replacement, rest)
      | _ => return (Utf8.replacement, rest)
    else return (unit, rest)
  | _ => none

/-- The contents of a string literal after its opening quotation mark. -/
def stringBody : Nat → Bytes → Option (Bytes × Bytes)
  | 0, _ => none
  | _ + 1, [] => none
  | fuel + 1, b :: rest =>
    if b = 0x22 then some ([], rest)
    else if b < 0x20 then none
    else if b = 0x5C then do
      let (point, rest) ← escape? rest
      let (tail, rest) ← stringBody fuel rest
      return (Utf8.encode point ++ tail, rest)
    else do
      let (point, size) := Utf8.next (b :: rest)
      let (tail, rest) ← stringBody fuel (rest.drop (size - 1))
      return (Utf8.encode point ++ tail, rest)

/-- The fraction of a number: nothing, or a point and digits. -/
def fraction? : Bytes → Option (Bytes × Bytes)
  | 0x2E :: rest =>
    let digits := rest.takeWhile Bytes.isDigit
    if digits.isEmpty then none else some (0x2E :: digits, rest.dropWhile Bytes.isDigit)
  | s => some ([], s)

/-- The exponent of a number: nothing, or a mark, a sign if any, and digits. -/
def exponent? : Bytes → Option (Bytes × Bytes)
  | [] => some ([], [])
  | e :: rest =>
    if e = 0x65 || e = 0x45 then
      let (sign, rest) : Bytes × Bytes := match rest with
        | 0x2B :: more => ([0x2B], more)
        | 0x2D :: more => ([0x2D], more)
        | _ => ([], rest)
      let digits := rest.takeWhile Bytes.isDigit
      if digits.isEmpty then none
      else some (e :: sign ++ digits, rest.dropWhile Bytes.isDigit)
    else some ([], e :: rest)

/-- A number literal: sign, integer without leading zeros, fraction and exponent. -/
def number? (s : Bytes) : Option (Bytes × Bytes) := do
  let (sign, s) : Bytes × Bytes := match s with
    | 0x2D :: rest => ([0x2D], rest)
    | _ => ([], s)
  let (whole, s) : Bytes × Bytes ← match s with
    | 0x30 :: rest => some ([0x30], rest)
    | _ =>
      let digits := s.takeWhile Bytes.isDigit
      if digits.isEmpty then none else some (digits, s.dropWhile Bytes.isDigit)
  let (fraction, s) ← fraction? s
  let (exponent, s) ← exponent? s
  return (sign ++ whole ++ fraction ++ exponent, s)

def maxDepth : Nat := 10000

mutual

/-- Reads a value. `fuel` bounds the number of steps and `depth` counts the open brackets. -/
def readValue : Nat → Nat → Bytes → Option (Json × Bytes)
  | 0, _, _ => none
  | fuel + 1, depth, s =>
    match skipBlanks s with
    | 0x6E :: 0x75 :: 0x6C :: 0x6C :: rest => some (.null, rest)
    | 0x74 :: 0x72 :: 0x75 :: 0x65 :: rest => some (.bool true, rest)
    | 0x66 :: 0x61 :: 0x6C :: 0x73 :: 0x65 :: rest => some (.bool false, rest)
    | 0x22 :: rest => do
      let (text, rest) ← stringBody (rest.length + 1) rest
      return (.string text, rest)
    | 0x5B :: rest =>
      if maxDepth ≤ depth then none
      else match skipBlanks rest with
        | 0x5D :: rest => some (.array [], rest)
        | rest => do
          let (item, rest) ← readValue fuel (depth + 1) rest
          let (items, rest) ← readItems fuel (depth + 1) rest
          return (.array (item :: items), rest)
    | 0x7B :: rest =>
      if maxDepth ≤ depth then none
      else match skipBlanks rest with
        | 0x7D :: rest => some (.object [], rest)
        | rest => do
          let (entry, rest) ← readMember fuel (depth + 1) rest
          let (members, rest) ← readMembers fuel (depth + 1) rest
          return (.object (entry :: members), rest)
    | rest => do
      let (literal, rest) ← number? rest
      return (.number literal, rest)

/-- Reads the items after the first, up to the closing bracket. -/
def readItems : Nat → Nat → Bytes → Option (List Json × Bytes)
  | 0, _, _ => none
  | fuel + 1, depth, s =>
    match skipBlanks s with
    | 0x5D :: rest => some ([], rest)
    | 0x2C :: rest => do
      let (item, rest) ← readValue fuel depth rest
      let (items, rest) ← readItems fuel depth rest
      return (item :: items, rest)
    | _ => none

/-- Reads a name, a colon and a value. -/
def readMember : Nat → Nat → Bytes → Option ((Bytes × Json) × Bytes)
  | 0, _, _ => none
  | fuel + 1, depth, s =>
    match skipBlanks s with
    | 0x22 :: rest => do
      let (name, rest) ← stringBody (rest.length + 1) rest
      match skipBlanks rest with
      | 0x3A :: rest => do
        let (value, rest) ← readValue fuel depth rest
        return ((name, value), rest)
      | _ => none
    | _ => none

/-- Reads the members after the first, up to the closing brace. -/
def readMembers : Nat → Nat → Bytes → Option (List (Bytes × Json) × Bytes)
  | 0, _, _ => none
  | fuel + 1, depth, s =>
    match skipBlanks s with
    | 0x7D :: rest => some ([], rest)
    | 0x2C :: rest => do
      let (entry, rest) ← readMember fuel depth rest
      let (members, rest) ← readMembers fuel depth rest
      return (entry :: members, rest)
    | _ => none

end

/-- The first value of a text, and what follows it. -/
def read? (s : Bytes) : Option (Json × Bytes) := readValue (2 * s.length + 2) 0 s

/-- The value of a text that holds one value and blanks around it. -/
def ofBytes? (s : Bytes) : Option Json :=
  match read? s with
  | some (value, rest) => if (skipBlanks rest).isEmpty then some value else none
  | none => none

end Json

end StateBuffer
