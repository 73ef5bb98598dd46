import StateBuffer.Command.Flag

/-!
The commands of the program, their flags and operands, and the choice of a command by the first word
that is neither a flag nor a flag's value. An unknown command comes with those of similar name.
-/

namespace StateBuffer

namespace Command

/-- The commands. The last two are about the others. -/
inductive Name where
  | compile
  | check
  | layout
  | run
  | version
  | help
  | completion
  deriving DecidableEq, Repr, Inhabited

namespace Name

/-- All commands in the order in which they are offered, which is that of their names. -/
def all : List Name := [.check, .compile, .completion, .help, .layout, .run, .version]

def word : Name → Bytes
  | .compile => "compile"
  | .check => "check"
  | .layout => "layout"
  | .run => "run"
  | .version => "version"
  | .help => "help"
  | .completion => "completion"

def ofWord? (s : Bytes) : Option Name := all.find? fun c => c.word = s

def purpose : Name → Bytes
  | .compile => "Compile a GPEx project into a buffer layout and init shader"
  | .check => "Report diagnostics without writing an artifact"
  | .layout => "Print the storage buffer layout"
  | .run => "Evaluate the init shader on the host and print buffer values"
  | .version => "Show gpex build information"
  | .help => "Help about any command"
  | .completion => "Generate the autocompletion script for the specified shell"

end Name

def purpose : Bytes :=
  "GPEx compiles global var/const declarations into a GPU storage buffer layout and a WGSL init "
    ++ "shader"

def helpFlag : Flag := .short 'h' "help" .switch

def versionFlag : Flag := .short 'v' "version" .switch

def globalFlags : List Flag :=
  [.long "color" .text, .long "quiet" .switch, .long "timings" .switch,
    .long "max-diagnostics" .integer, .long "trace" .text, .long "trace-level" .text,
    .long "trace-format" .text, .long "trace-mode" .text, .long "trace-ring-size" .integer,
    .long "trace-heartbeat" .duration, .long "cpuprofile" .text, .long "memprofile" .text,
    .long "runtime-trace" .text]

def Name.flags : Name → List Flag
  | .compile => [.long "format" .text, .short 'o' "output" .text,
      .long "warnings-as-errors" .switch, .long "verify-shader" .switch, .long "spirv" .text,
      .long "ui" .text]
  | .check => [.long "format" .text, .long "warnings-as-errors" .switch,
      .long "verify-shader" .switch]
  | .layout => [.long "values" .switch]
  | .run => [.long "var" .text]
  | .version => [.long "format" .text]
  | .help => []
  | .completion => []

inductive UsageError where
  | unknownCommand (word : Bytes) (similar : List Bytes)
  | flag (fault : FlagFault)
  | tooMany (most given : Nat)
  | notExactly (count given : Nat)
  | noOperand (word : Bytes) (command : Name)
  deriving DecidableEq, Repr

def UsageError.message : UsageError → Bytes
  | .unknownCommand word similar =>
    let lines : Bytes := similar.flatMap fun name => 0x09 :: name ++ [0x0A]
    let hint : Bytes := if similar.isEmpty then [] else "\n\nDid you mean this?\n" ++ lines
    "unknown command " ++ Bytes.quote word ++ " for \"gpex\"" ++ hint
  | .flag fault => fault.message
  | .tooMany most given =>
    "accepts at most " ++ Bytes.ofNat most ++ " arg(s), received " ++ Bytes.ofNat given
  | .notExactly count given =>
    "accepts " ++ Bytes.ofNat count ++ " arg(s), received " ++ Bytes.ofNat given
  | .noOperand word command =>
    "unknown command " ++ Bytes.quote word ++ " for " ++ Bytes.quote ("gpex " ++ command.word)

def Name.checkOperands (c : Name) (operands : List Bytes) : Except UsageError Unit :=
  let n := operands.length
  match c with
  | .compile | .check => if 1 < n then .error (.tooMany 1 n) else .ok ()
  | .layout | .run => if n ≠ 1 then .error (.notExactly 1 n) else .ok ()
  | _ => match operands with
    | [] => .ok ()
    | word :: _ => .error (.noOperand word c)

/-- The costs of turning the prefixes of a word into a text, from those for the text without its
last byte. `before` is the cost left of and above the next place, `left` the cost left of it. -/
def nextCosts (b : UInt8) : Nat → Nat → Bytes → List Nat → List Nat
  | left, before, c :: word, above :: rest =>
    let cost := if b = c then before else min (min left above) before + 1
    cost :: nextCosts b cost above word rest
  | _, _, _, _ => []

/-- How many bytes must be put in, left out or changed to turn one text into the other. -/
def distance (s t : Bytes) : Nat :=
  let first := List.range (t.length + 1)
  let last := s.foldl (fun row b =>
    let left := row.headD 0 + 1
    left :: nextCosts b left (row.headD 0) t row.tail) first
  last.getLastD 0

/-- The commands with a name similar to a word: two changes away at most, or longer. The command
that is about the others is never meant. -/
def similarTo (word : Bytes) : List Bytes :=
  let small := Bytes.lower word
  ((Name.all.filter (· ≠ .help)).map Name.word).filter fun name =>
    distance small name ≤ 2 || Bytes.startsWith name small

/-- Does the next word belong to this one as its value? -/
def takesNext (flags : List Flag) (word : Bytes) : Bool :=
  let isSwitch (f : Flag) : Bool := f.kind = .switch
  let plain := !word.contains (Bytes.byte '=')
  if Bytes.startsWith word "--" then
    plain && !flags.any fun f => isSwitch f && f.name = word.drop 2
  else match word with
    | [0x2D, c] => plain && !flags.any fun f => isSwitch f && f.letter = some c
    | _ => false

/-- The words that are neither flags nor values of flags. A flag that would take the last word ends
them. -/
def plainWords (flags : List Flag) : List Bytes → List Bytes
  | [] => []
  | word :: rest =>
    if word = ("--" : Bytes) then []
    else if takesNext flags word then
      match rest with
      | _ :: next :: more => plainWords flags (next :: more)
      | _ => []
    else if word.isEmpty || word.head? = some (Bytes.byte '-') then plainWords flags rest
    else word :: plainWords flags rest

/-- The words without the first that is a given plain word. -/
def withoutFirst (flags : List Flag) (target : Bytes) : List Bytes → List Bytes
  | [] => []
  | word :: rest =>
    if word = ("--" : Bytes) then word :: rest
    else if takesNext flags word then
      match rest with
      | value :: more => word :: value :: withoutFirst flags target more
      | [] => [word]
    else if word = target then rest
    else word :: withoutFirst flags target rest

/-- The command of a command line with its other words, no command being the program itself. -/
def choose (words : List Bytes) : Except UsageError (Option Name × List Bytes) :=
  match plainWords globalFlags words with
  | [] => .ok (none, words)
  | word :: _ => match Name.ofWord? word with
    | some c => .ok (some c, withoutFirst globalFlags word words)
    | none => .error (.unknownCommand word (similarTo word))

inductive Request where
  | help (command : Option Name)
  | showVersion
  | command (name : Name) (arguments : Arguments)
  deriving DecidableEq, Repr

def request (words : List Bytes) : Except UsageError Request := do
  let (command, words) ← choose words
  let own := match command with
    | some c => c.flags
    | none => [versionFlag]
  let arguments ← (Arguments.read (globalFlags ++ own ++ [helpFlag]) words).mapError .flag
  if arguments.switch "help" then return .help command
  else match command with
    | none => return if arguments.switch "version" then .showVersion else .help none
    | some .help => return .help none
    | some .completion => return .help command
    | some c =>
      c.checkOperands arguments.operands
      return .command c arguments

end Command

end StateBuffer
