import StateBuffer.Command.Catalog
import StateBuffer.Compilation.Artifact
import StateBuffer.Compilation.Observe
import StateBuffer.Project.Manifest

/-!
What a command works on and can go wrong with: the file system, the three streams it writes to, the
tracer, and the errors that end it. The error stream of the command is kept apart from what goes
straight to that of the process, which is where traces go.
-/

namespace StateBuffer

namespace Command

/-- Why a command ended without success. -/
inductive Error where
  | usage (cause : UsageError)
  | color (value : Bytes)
  | ui (value : Bytes)
  | diagnosticFormat (value : Bytes)
  | versionFormat (value : Bytes)
  | profile (cause : FileError)
  | traceName (cause : Trace.NameFault)
  | tracer (cause : Trace.ConfigFault)
  | manifest (cause : ManifestFault)
  | file (cause : FileError)
  | compile (cause : CompileError)
  | evaluation (cause : EvaluationError)
  deriving DecidableEq, Repr

namespace Error

def message : Error → Bytes
  | .usage cause => cause.message
  | .color value => "invalid --color value " ++ Bytes.quote value ++ " (expected auto|on|off)"
  | .ui value => "invalid --ui value " ++ Bytes.quote value ++ " (expected auto|on|off)"
  | .diagnosticFormat value =>
    "unsupported format " ++ Bytes.quote value ++ " (expected text|pretty|json)"
  | .versionFormat value =>
    "unsupported format " ++ Bytes.quote value ++ " (must be pretty or json)"
  | .profile cause => "create profile: " ++ cause.message
  | .traceName cause => cause.message
  | .tracer cause => "failed to create tracer: " ++ cause.message
  | .manifest cause => cause.message
  | .file cause => cause.message
  | .compile cause => cause.message
  | .evaluation cause => cause.message

def isUnknownCommand : Error → Bool
  | .usage (.unknownCommand _ _) => true
  | _ => false

end Error

/-- The tools that commands are given: a front end for shaders, and an implementation of the format
of stored programs. -/
structure Tools where
  shaders : Shader.FrontEnd
  wire : Msgpack.Wire

/-- What a command works on and with, and the race of reads that fail. A trace that goes to a file
names it. -/
structure Session where
  fs : FileSystem
  tools : Tools
  race : Nat
  output : Bytes
  errors : Bytes
  direct : Bytes
  tracer : Trace.Tracer
  traceFile : Option Bytes
  color : Bool
  colorTerminal : Bool
  times : StageTimes

namespace Session

def start (fs : FileSystem) (tools : Tools) (race : Nat) (colorTerminal : Bool)
    (times : StageTimes) : Session :=
  ⟨fs, tools, race, [], [], [], Trace.Tracer.none, none, false, colorTerminal, times⟩

/-- What a compilation finds around it, which nobody cancels. -/
def surroundings (s : Session) : Surroundings := ⟨s.fs, false, s.race, s.tools.shaders⟩

end Session

/-- The work of a command: it changes the session, also when it ends with an error. -/
abbrev Work (α : Type) := ExceptT Error (StateM Session) α

namespace Work

def print (s : Bytes) : Work Unit := modify fun w => { w with output := w.output ++ s }

def printError (s : Bytes) : Work Unit := modify fun w => { w with errors := w.errors ++ s }

/-- Writes straight to the error stream of the process. -/
def printDirect (s : Bytes) : Work Unit := modify fun w => { w with direct := w.direct ++ s }

/-- Goes on with a result or ends with an error. -/
def lift {ε α : Type} (error : ε → Error) : Except ε α → Work α
  | .ok a => return a
  | .error e => throw (error e)

end Work

/-- When something is wanted: if the terminal allows it, always, or never. -/
inductive Choice where
  | auto
  | on
  | off
  deriving DecidableEq, Repr

def Choice.ofWord? (word : Bytes) : Option Choice :=
  let words : List (Bytes × Choice) := [("", .auto), ("auto", .auto), ("on", .on), ("off", .off)]
  (words.find? fun c => c.1 = Bytes.trimSpace (Bytes.lower word)).map Prod.snd

/-- Is it wanted on a terminal that allows it or not? -/
def Choice.resolve (c : Choice) (allowed : Bool) : Bool := c = .on || (c = .auto && allowed)

inductive DiagnosticFormat where
  | text
  | pretty
  | json
  deriving DecidableEq, Repr

def DiagnosticFormat.ofWord? (word : Bytes) : Option DiagnosticFormat :=
  let words : List (Bytes × DiagnosticFormat) :=
    [("text", .text), ("pretty", .pretty), ("json", .json)]
  (words.find? fun c => c.1 = Bytes.lower (Bytes.trimSpace word)).map Prod.snd

/-- The files that profiles are to go to; an empty path means no profile. -/
structure Profiles where
  processor : Bytes
  memory : Bytes
  runtime : Bytes
  deriving DecidableEq, Repr

namespace Profiles

def ofArguments (a : Arguments) : Profiles :=
  ⟨a.text "cpuprofile" [], a.text "memprofile" [], a.text "runtime-trace" []⟩

/-- Makes the file of a profile. -/
def create (path : Bytes) : Work Unit := do
  if path.isEmpty then return
  let fs ← (·.fs) <$> get
  match fs.write path [] with
  | .ok fs => modify fun w => { w with fs }
  | .error e => throw (.profile e)

/-- Ends the profiles; the memory profile is made only now, and a failure is only told. -/
def stop (p : Profiles) : Work Unit :=
  tryCatch (create p.memory) fun e => Work.printDirect ("profiling: " ++ e.message ++ "\n")

/-- Begins the profiles. When the second cannot be made, the memory profile is still tried. -/
def start (p : Profiles) : Work Unit := do
  create p.processor
  tryCatch (create p.runtime) fun e => do
    tryCatch (create p.memory) fun _ => return
    throw e

end Profiles

def applyColor (a : Arguments) : Work Unit := do
  let word := a.text "color" "auto"
  match Choice.ofWord? word with
  | none => throw (.color word)
  | some c => modify fun w => { w with color := c.resolve w.colorTerminal }

/-- The tracer that the arguments ask for; an output without a level means phases. -/
def traceConfig (a : Arguments) : Work Trace.Config := do
  let path := a.text "trace" []
  let level ← Work.lift .traceName (Trace.Level.ofName (a.text "trace-level" "off"))
  let level := if level = .off && !path.isEmpty then .phase else level
  let size := (a.integer? "trace-ring-size").getD Trace.Config.defaultRingSize
  if level = .off then return ⟨.off, some .stream, .auto, path, size⟩
  else
    let mode ← Work.lift .traceName (Trace.Mode.ofName (a.text "trace-mode" "stream"))
    let format ← Work.lift .traceName (Trace.Format.ofName (a.text "trace-format" "auto"))
    return ⟨level, some mode, format, path, size⟩

def startTrace (a : Arguments) : Work Unit := do
  let config ← traceConfig a
  let fs ← (·.fs) <$> get
  let (tracer, fs) ← Work.lift .tracer (config.openTracer fs)
  let traceFile := if tracer.stream.isSome && config.toFile then some config.path else none
  modify fun w => { w with tracer := tracer.advance w.tracer.now, traceFile, fs }

/-- Goes on with the trace up to another state of the tracer. What is traced is in its file at
once, so that whoever reads the file next finds it there, and whoever replaces it keeps the
replacement. -/
def advanceTrace (tracer : Trace.Tracer) : Work Unit := do
  let w ← get
  let fs := match w.traceFile with
    | some path => (w.fs.write path tracer.written).toOption.getD w.fs
    | none => w.fs
  set { w with tracer, fs }

/-- Ends the trace: what goes to no file goes to the error stream of the process. -/
def stopTrace : Work Unit := do
  let w ← get
  if w.traceFile.isNone then Work.printDirect w.tracer.written

end Command

end StateBuffer
