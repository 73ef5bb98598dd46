import StateBuffer.Text.Integer
import StateBuffer.Text.Quoted
import StateBuffer.Time.Duration

/-!
Flags of a command line: their names and kinds of values, and the reading of words into flags and
operands. A flag is written with two dashes and its name or with one dash and its letter; its value
follows an equals sign or is the next word, and a switch needs none. Letters of switches may be
grouped after one dash. Two dashes alone end the flags.
-/

namespace StateBuffer

namespace Command

inductive FlagKind where
  | text
  | switch
  | integer
  | duration
  deriving DecidableEq, Repr, Inhabited

/-- A flag: its name, its letter if it has one, and the kind of its value. -/
structure Flag where
  name : Bytes
  letter : Option UInt8
  kind : FlagKind
  deriving DecidableEq, Repr, Inhabited

namespace Flag

def long (name : String) (kind : FlagKind) : Flag := ⟨name, none, kind⟩

def short (letter : Char) (name : String) (kind : FlagKind) : Flag :=
  ⟨name, some (Bytes.byte letter), kind⟩

def shown (f : Flag) : Bytes :=
  match f.letter with
  | some c => [Bytes.byte '-', c] ++ Bytes.ofString ", --" ++ f.name
  | none => "--" ++ f.name

end Flag

def yesWords : List Bytes := ["1", "t", "T", "TRUE", "true", "True"]

def noWords : List Bytes := ["0", "f", "F", "FALSE", "false", "False"]

/-- Why a word is no value of a kind, if it is none. -/
def FlagKind.refusal? (kind : FlagKind) (word : Bytes) : Option Bytes :=
  match kind with
  | .text => none
  | .switch =>
    if yesWords.contains word || noWords.contains word then none
    else some ("strconv.ParseBool: parsing " ++ Bytes.quote word ++ ": invalid syntax")
  | .integer => match Integer.ofText word with
    | .ok _ => none
    | .error e => some ("strconv.ParseInt: parsing " ++ Bytes.quote word ++ ": " ++ e.message)
  | .duration => match Duration.ofText word with
    | .ok _ => none
    | .error e => some (e.message word)

inductive FlagFault where
  | malformed (word : Bytes)
  | unknown (name : Bytes)
  | unknownLetter (letter : UInt8) (group : Bytes)
  | noValue (name : Bytes)
  | noLetterValue (letter : UInt8) (group : Bytes)
  | badValue (flag : Flag) (word reason : Bytes)
  deriving DecidableEq, Repr

namespace FlagFault

/-- A letter in single quotation marks. Of a letter beyond ASCII only the first byte of its encoding
is shown. -/
def quoteLetter (letter : UInt8) : Bytes :=
  let shown := ((Utf8.encode letter.toNat).headD letter).toNat
  let inner := if letter = 0x27 then [0x5C, 0x27] else if letter = 0x22 then [0x22]
    else Bytes.quotePoint shown
  0x27 :: inner ++ [0x27]

def message : FlagFault → Bytes
  | .malformed word => "bad flag syntax: " ++ word
  | .unknown name => "unknown flag: --" ++ name
  | .unknownLetter letter group =>
    "unknown shorthand flag: " ++ quoteLetter letter ++ " in -" ++ group
  | .noValue name => "flag needs an argument: --" ++ name
  | .noLetterValue letter group =>
    "flag needs an argument: " ++ quoteLetter letter ++ " in -" ++ group
  | .badValue flag word reason =>
    "invalid argument " ++ Bytes.quote word ++ " for " ++ Bytes.quote flag.shown ++ " flag: "
      ++ reason

end FlagFault

/-- What was given on a command line: values of flags and operands, each in order. -/
structure Arguments where
  values : List (Bytes × Bytes)
  operands : List Bytes
  deriving DecidableEq, Repr, Inhabited

namespace Arguments

def empty : Arguments := ⟨[], []⟩

def addOperand (a : Arguments) (word : Bytes) : Arguments :=
  { a with operands := a.operands ++ [word] }

/-- Gives a flag a value of its kind. -/
def assign (a : Arguments) (flag : Flag) (word : Bytes) : Except FlagFault Arguments :=
  match flag.kind.refusal? word with
  | some reason => .error (.badValue flag word reason)
  | none => .ok { a with values := a.values ++ [(flag.name, word)] }

def all (a : Arguments) (name : Bytes) : List Bytes :=
  (a.values.filter fun v => v.1 = name).map Prod.snd

def last? (a : Arguments) (name : Bytes) : Option Bytes := (a.all name).getLast?

/-- The last value of a flag, or another word. -/
def text (a : Arguments) (name : Bytes) (initial : Bytes) : Bytes := (a.last? name).getD initial

def switch? (a : Arguments) (name : Bytes) : Option Bool := (a.last? name).map yesWords.contains

def switch (a : Arguments) (name : Bytes) : Bool := (a.switch? name).getD false

def integer? (a : Arguments) (name : Bytes) : Option Int :=
  (a.last? name).bind fun word => (Integer.ofText word).toOption

/-- The words after a flag with its value: the value is in the word, is not needed, or is the next
word. -/
def value? (flag : Flag) (inWord : Option Bytes) (rest : List Bytes) :
    Option (Bytes × List Bytes) :=
  match inWord, flag.kind, rest with
  | some v, _, _ => some (v, rest)
  | none, .switch, _ => some ("true", rest)
  | none, _, v :: rest => some (v, rest)
  | none, _, [] => none

def readLong (flags : List Flag) (a : Arguments) (word : Bytes) (rest : List Bytes) :
    Except FlagFault (Arguments × List Bytes) := do
  let body := word.drop 2
  if body.head? = some (Bytes.byte '-') || body.head? = some (Bytes.byte '=') then
    .error (.malformed word)
  else
    let (name, inWord) := Bytes.cut (Bytes.byte '=') body
    match flags.find? fun f => f.name = name with
    | none => .error (.unknown name)
    | some flag => match value? flag inWord rest with
      | none => .error (.noValue name)
      | some (v, rest) => return (← a.assign flag v, rest)

def readLetters (flags : List Flag) (a : Arguments) (group : Bytes) (rest : List Bytes) :
    Except FlagFault (Arguments × List Bytes) :=
  if Bytes.startsWith group "test." then .ok (a, rest)
  else match group with
    | [] => .ok (a, rest)
    | c :: more =>
      match flags.find? fun f => f.letter = some c with
      | none => .error (.unknownLetter c group)
      | some flag =>
        let inWord : Option Bytes := match more with
          | 0x3D :: v :: vs => some (v :: vs)
          | [] => none
          | _ => if flag.kind = .switch then none else some more
        match value? flag inWord rest with
        | none => .error (.noLetterValue c group)
        | some (v, rest') => do
          let a ← a.assign flag v
          if inWord.isNone && flag.kind = .switch then readLetters flags a more rest
          else return (a, rest')
termination_by group.length

/-- Reads words, at most `fuel` of them. -/
def readWords (flags : List Flag) : Nat → Arguments → List Bytes → Except FlagFault Arguments
  | 0, a, _ => .ok a
  | _, a, [] => .ok a
  | fuel + 1, a, word :: rest =>
    if word.head? ≠ some (Bytes.byte '-') || word.length = 1 then
      readWords flags fuel (a.addOperand word) rest
    else if word = ("--" : Bytes) then .ok { a with operands := a.operands ++ rest }
    else do
      let (a, rest) ← if Bytes.startsWith word "--" then readLong flags a word rest
        else readLetters flags a word.tail rest
      readWords flags fuel a rest

def read (flags : List Flag) (words : List Bytes) : Except FlagFault Arguments :=
  readWords flags words.length empty words

end Arguments

end Command

end StateBuffer
