import StateBuffer.Command.Session
import StateBuffer.Diagnostic.Render
import StateBuffer.Program.Table
import StateBuffer.Version

/-!
The commands: compiling a project into a file, checking it, showing the layout of a program, running
it, and telling the version. A project is given by its directory, a program also by its file.
-/

namespace StateBuffer

namespace Command

/-- What a command was told by the manifest and by its flags; a flag that is given wins. -/
structure Settings where
  root : Bytes
  options : CompileOptions
  output : Bytes
  quiet : Bool
  timings : Bool

/-- How many diagnostics are kept unless another number is given. -/
def defaultMaxDiagnostics : Int := 100

namespace Settings

def load (fs : FileSystem) (a : Arguments) (dir : Bytes) : Except ManifestFault Settings := do
  let (m, root) ← Manifest.resolve fs dir
  let most := (a.integer? "max-diagnostics").getD
    (if 0 < m.maxDiagnostics then m.maxDiagnostics else defaultMaxDiagnostics)
  let output := match a.last? "output" with
    | some path => path
    | none => if m.output.isEmpty then Project.defaultOutput fs root
      else Path.join [m.dir, m.output]
  return {
    root
    options := ⟨(a.switch? "warnings-as-errors").getD m.warningsAsErrors, most,
      (a.switch? "verify-shader").getD m.verifyShader⟩
    output
    quiet := a.switch "quiet"
    timings := a.switch "timings" }

end Settings

/-- Shows diagnostics: JSON on the output stream, the other forms on the error stream. -/
def printDiagnostics (format : DiagnosticFormat) (bag : Bag) (sources : Option SourceSet) :
    Work Unit := do
  let color := (← get).color
  match format with
  | .json => Work.print (bag.json sources true true 0)
  | .pretty => Work.printError (bag.pretty sources color true true)
  | .text => Work.printError (bag.display sources color ++ bag.droppedText)

def summary (bag : Bag) : Bytes :=
  Bytes.ofNat (bag.count .error) ++ " error(s), " ++ Bytes.ofNat (bag.count .warning)
    ++ " warning(s)"

/-- Compiles and traces. The beginning is traced before the first file is read. -/
def compileTraced (root : Bytes) (options : CompileOptions) :
    Work (Compilation × Trace.Timer) := do
  let w ← get
  advanceTrace (Compilation.opening root 0 w.tracer)
  let c := Compilation.run (← get).surroundings root options
  let (timer, tracer) := c.observe w.times 0 w.tracer
  advanceTrace tracer
  return (c, timer)

/-- Shows the latest events of the trace, if they were kept. -/
def dumpTrace : Work Unit := do
  match (← get).tracer.dump with
  | none => return
  | some text => Work.printError ("trace (last events):\n" ++ text)

/-- What compiling and checking have in common. -/
structure Compiled where
  settings : Settings
  format : DiagnosticFormat
  compilation : Compilation
  timer : Trace.Timer

def compileProject (a : Arguments) (checkUi : Bool) : Work Compiled := do
  let word := a.text "format" "text"
  match DiagnosticFormat.ofWord? word with
  | none => throw (.diagnosticFormat word)
  | some format =>
    let settings ← Work.lift .manifest (Settings.load (← get).fs a (a.operands.headD "."))
    let ui := a.text "ui" "auto"
    if checkUi && (Choice.ofWord? ui).isNone then throw (.ui ui)
    let (c, timer) ← compileTraced settings.root settings.options
    if settings.timings && !settings.quiet then
      Work.printError ((c.events (← get).times).flatMap ProgressEvent.line)
    return ⟨settings, format, c, timer⟩

/-- Ends with an error, if there is one. -/
def failWith (e : Option CompileError) : Work Unit :=
  match e with
  | some e => throw (.compile e)
  | none => return

/-- Saves the program of a compilation, and its shader in binary form if that is wanted. -/
def writeAll (c : Compilation) (output binary : Bytes) :
    Work (Compilation × Option CompileError) := do
  let tools := (← get).tools
  let ((c, e), fs) := c.writeProgram tools.wire (← get).fs output
  let ((c, e), fs) :=
    if e.isSome || binary.isEmpty then ((c, e), fs) else c.writeBinary tools.shaders fs binary
  modify fun w => { w with fs }
  return (c, e)

def runCompile (a : Arguments) : Work Unit := do
  let ⟨settings, format, c, timer⟩ ← compileProject a true
  if c.error.isSome then
    printDiagnostics format c.bag (some c.sources)
    dumpTrace
    failWith c.error
  let (c, e) ← writeAll c settings.output (a.text "spirv" [])
  printDiagnostics format c.bag (some c.sources)
  failWith e
  let buffer := ((c.program.map Program.buffer).getD Buffer.empty)
  if !settings.quiet && format ≠ .json then
    Work.print ("wrote " ++ settings.output ++ ": " ++ Bytes.ofNat buffer.fields.size
      ++ " field(s), " ++ Bytes.ofNat buffer.size.toNat ++ " byte(s), " ++ summary c.bag ++ " ["
      ++ c.fingerprint.short ++ "]\n")
  if settings.timings then Work.printError timer.summary

def runCheck (a : Arguments) : Work Unit := do
  let ⟨settings, format, c, timer⟩ ← compileProject a false
  printDiagnostics format c.bag (some c.sources)
  if c.error.isSome then
    dumpTrace
    failWith c.error
  if !settings.quiet && format ≠ .json then
    Work.print ("ok: " ++ Bytes.ofNat c.sources.size ++ " module(s), " ++ summary c.bag ++ "\n")
  if settings.timings then Work.printError timer.summary

def loadProgram (a : Arguments) (path : Bytes) : Work Program := do
  let fs := (← get).fs
  let node ← Work.lift .file (fs.stat path)
  if node ≠ .directory then
    let loaded := Program.load (← get).tools.wire fs path
    match loaded.program with
    | .ok p => return p
    | .error e =>
      printDiagnostics .text loaded.bag none
      throw (.compile e)
  else
    let settings ← Work.lift .manifest (Settings.load fs a path)
    let (c, _) ← compileTraced settings.root settings.options
    match c.error, c.program with
    | none, some p => return p
    | e, _ =>
      printDiagnostics .text c.bag (some c.sources)
      throw (.compile (e.getD .nothingToWrite))

/-- Shows the layout of a program, with its values if they are wanted. -/
def runLayout (a : Arguments) : Work Unit := do
  let p ← loadProgram a (a.operands.headD [])
  let reader := (← get).tools.shaders.read
  let values ←
    if a.switch "values" then some <$> Work.lift .evaluation (p.values reader) else pure none
  Work.print (p.table values)

/-- Runs a program and shows the values of the fields that are asked for, all if none is. -/
def runProgram (a : Arguments) : Work Unit := do
  let p ← loadProgram a (a.operands.headD [])
  let m ← Work.lift .evaluation (p.execute (← get).tools.shaders.read)
  let asked := a.all "var"
  for key in if asked.isEmpty then p.keys else asked do
    let value ← Work.lift (fun e => .evaluation (.run e)) (m.read key)
    Work.print (key ++ " = " ++ Bytes.ofInt value.toInt ++ "\n")

def runVersion (a : Arguments) : Work Unit := do
  let format := a.text "format" "pretty"
  let name := Bytes.lower format
  if name = ("pretty" : Bytes) then
    Work.print (Version.current.text (← get).color ++ "\n")
  else if name = ("json" : Bytes) then Work.print Version.current.json.document
  else throw (.versionFormat format)

/-- The work of a command without what surrounds it. -/
def body (c : Name) (a : Arguments) : Work Unit :=
  match c with
  | .compile => runCompile a
  | .check => runCheck a
  | .layout => runLayout a
  | .run => runProgram a
  | .version => runVersion a
  | .help | .completion => return

/-- A command with colours, profiles and trace around it. The trace ends before the profiles. -/
def perform (c : Name) (a : Arguments) : Work Unit := do
  let profiles := Profiles.ofArguments a
  applyColor a
  profiles.start
  tryCatch (startTrace a) fun e => do
    profiles.stop
    throw e
  tryCatch (body c a) fun e => do
    stopTrace
    profiles.stop
    throw e
  stopTrace
  profiles.stop

def work (words : List Bytes) : Work Unit := do
  match ← Work.lift .usage (request words) with
  | .help none => Work.print (purpose ++ "\n")
  | .help (some c) => Work.print (c.purpose ++ "\n")
  | .showVersion => Work.print (Version.tool ++ " version " ++ Version.current.number ++ "\n")
  | .command c a => perform c a

/-- What is left after a command line: the session, and the error that ended it. -/
structure Outcome where
  session : Session
  error : Option Error

/-- Runs a command line. An error is told last, and an unknown command comes with a hint. -/
def run (s : Session) (words : List Bytes) : Outcome :=
  match (work words).run s with
  | (.ok _, s) => ⟨s, none⟩
  | (.error e, s) =>
    let hint : Bytes := if e.isUnknownCommand then "Run 'gpex --help' for usage.\n" else []
    let told := "Error: " ++ e.message ++ "\n" ++ hint
    ⟨{ s with errors := s.errors ++ told }, some e⟩

end Command

end StateBuffer
