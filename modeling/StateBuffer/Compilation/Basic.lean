import StateBuffer.Analysis
import StateBuffer.Plan
import StateBuffer.Program.Codec
import StateBuffer.Progress.Event
import StateBuffer.Project.Sources
import StateBuffer.Shader.Emit
import StateBuffer.Shader.FrontEnd
import StateBuffer.Source.Fingerprint
import StateBuffer.Validation

/-!
The compilation of a project in passes: its files are read and parsed, names are resolved, rules are
checked, a program is generated, and its shader is checked if that is wanted. A pass that fails is
the last one. All diagnostics are kept here; a bag with a limit is a view of them.
-/

namespace StateBuffer

/-- What a compilation finds around it: the files, whether it was cancelled before it began, how the
race of reads that fail ends, and the front end that checks shaders. -/
structure Surroundings where
  files : FileSystem
  cancelled : Bool
  race : Nat
  shaders : Shader.FrontEnd

structure CompileOptions where
  warningsAsErrors : Bool
  maxDiagnostics : Int
  verifyShader : Bool
  deriving DecidableEq, Repr, Inhabited

/-- Why there is no program, or why it could not be stored or loaded. -/
inductive CompileError where
  | cancelled
  | failed (detail : Bytes)
  | unusable (cause : ProgramFault)
  | nothingToWrite
  | unverified (cause : ShaderFault)
  | uncompiled (cause : ShaderFault)
  | broken (cause : Fault)
  deriving DecidableEq, Repr

def CompileError.message : CompileError → Bytes
  | .cancelled => "context canceled"
  | .failed detail => "compilation failed: " ++ detail
  | .unusable cause => "compilation failed: " ++ cause.message
  | .nothingToWrite => "nothing to write: compilation produced no program"
  | .unverified cause => "verify init shader: " ++ cause.message
  | .uncompiled cause => "compile SPIR-V: " ++ cause.message
  | .broken cause => cause.message

inductive FileStep where
  | parsed (file dotPath : Bytes) (items : Nat) (error : Option SyntaxError)
  | checked (file : Bytes) (skipped : Bool)
  deriving DecidableEq, Repr

/-- What a pass did: with its files, in sum, and the files it found for later passes. -/
structure Pass where
  stage : Stage
  note : Bytes
  steps : List FileStep
  queued : List Bytes
  error : Option Bytes
  deriving DecidableEq, Repr

/-- A compilation after some passes. -/
structure Compilation where
  root : Bytes
  options : CompileOptions
  sources : SourceSet
  files : List Bytes
  parsed : ParsedSources
  resolution : Option Resolution
  report : Validation.Report
  plan : Option Plan
  program : Option Program
  shader : Shader.Summary
  diagnostics : List Diagnostic
  passes : List Pass
  error : Option CompileError

namespace Compilation

def start (root : Bytes) (options : CompileOptions) : Compilation where
  root := root
  options := options
  sources := SourceSet.empty
  files := []
  parsed := ParsedSources.empty
  resolution := none
  report := ⟨[], []⟩
  plan := none
  program := none
  shader := ⟨false, [], 0⟩
  diagnostics := []
  passes := []
  error := none

/-- The diagnostics within the limit. -/
def bag (c : Compilation) : Bag := (Bag.empty c.options.maxDiagnostics).addAll c.diagnostics

def note (c : Compilation) (stage : Stage) (text : Bytes) (steps : List FileStep) : Compilation :=
  { c with passes := c.passes ++ [⟨stage, text, steps, [], none⟩] }

def fail (c : Compilation) (stage : Stage) (text cause : Bytes) (error : CompileError) :
    Compilation :=
  { c with
    passes := c.passes ++ [⟨stage, text, [], [], some cause⟩]
    error := some error }

def counted (n : Nat) (what : Bytes) : Bytes := Bytes.ofNat n ++ " " ++ what

/-- Reads all files of the project. A cancelled compilation reads none. -/
def read (w : Surroundings) (c : Compilation) : Compilation :=
  let refuse (e : ReadError) : Compilation :=
    let told := Diagnostic.error .readFailed Span.none e.message
    { c with diagnostics := c.diagnostics ++ [told] }.fail
      .read (counted 0 "files") e.message (.failed e.message)
  match Project.sourcePaths w.files c.root with
  | .error e => refuse e
  | .ok paths =>
    if w.cancelled && !paths.isEmpty then
      c.fail .read (counted 0 "files") CompileError.cancelled.message .cancelled
    else match Project.readAll w.files w.race c.root paths with
      | .error e => refuse e
      | .ok texts => match texts.foldlM Project.addSource c.sources with
        | .error e => c.fail .read (counted texts.length "files") e.message (.broken e)
        | .ok sources =>
          let files := texts.map fun f => Project.displayPath c.root f.path
          { c with
            sources
            files
            passes := c.passes ++ [⟨.read, counted texts.length "files", [], files, none⟩] }

def namedFiles (c : Compilation) : List (Bytes × SourceFile) :=
  c.files.zip c.sources.files.toList

/-- Parses all files; a syntax error in one does not keep others from being parsed. -/
def parse (c : Compilation) : Compilation :=
  let parsed := c.sources.parse
  let steps := (c.namedFiles.zip parsed.results).map fun ((file, source), _, result) =>
    FileStep.parsed file source.dotPath result.items.length result.error
  let c := { c with parsed, diagnostics := c.diagnostics ++ parsed.diagnostics }
  if parsed.failures = 0 then c.note .parse (counted parsed.nextId "nodes") steps
  else
    let text := counted parsed.failures "of " ++ counted c.files.length "files failed"
    { c.note .parse text steps with error := some (.failed "syntax errors") }

def index (c : Compilation) : Compilation :=
  match Resolution.ofTree c.sources c.parsed.tree c.root with
  | .ok resolution => { c.note .index [] [] with resolution := some resolution }
  | .error e => c.fail .index [] e.message (.broken e)

/-- What made a compilation fail, in numbers. -/
def failureSummary (b : Bag) (warningsAsErrors : Bool) : Bytes :=
  if b.count .error = 0 && warningsAsErrors then
    counted (b.count .warning) "warning(s) treated as errors"
  else counted (b.count .error) "error(s)"

def validate (c : Compilation) : Compilation :=
  match c.resolution with
  | none => c
  | some resolution =>
    let report := Validation.check resolution
    let steps := c.namedFiles.map fun (file, source) =>
      FileStep.checked file (report.skipped.contains source.id)
    let text := counted report.tally.errors "errors, " ++ counted report.tally.warnings "warnings"
    let c := { c with report, diagnostics := c.diagnostics ++ report.diagnostics }
    let c := c.note .validate text steps
    if c.bag.failed c.options.warningsAsErrors then
      { c with error := some (.failed (failureSummary c.bag c.options.warningsAsErrors)) }
    else c

def generate (c : Compilation) : Compilation :=
  match c.resolution with
  | none => c
  | some resolution => match Plan.lower c.sources resolution with
    | .error e => c.fail .generate [] e.message (.broken e)
    | .ok plan =>
      let text := counted plan.globals.length "globals, " ++ counted plan.size.toNat "bytes"
      { c.note .generate text [] with plan := some plan, program := some plan.program }

def verify (w : Surroundings) (c : Compilation) : Compilation :=
  match c.program with
  | none => c
  | some program => match w.shaders.verify program.shader with
    | .ok shader =>
      { c.note .verify (if shader.skipped then "empty buffer" else []) [] with shader }
    | .error e =>
      let error := CompileError.unverified e
      c.fail .verify [] error.message error

/-- One pass; nothing happens after an error. -/
def step (w : Surroundings) (c : Compilation) (stage : Stage) : Compilation :=
  if c.error.isSome then c
  else match stage with
    | .read => c.read w
    | .parse => c.parse
    | .index => c.index
    | .validate => c.validate
    | .generate => c.generate
    | .verify => c.verify w
    | _ => c

def stages (options : CompileOptions) : List Stage :=
  [.read, .parse, .index, .validate, .generate] ++ if options.verifyShader then [.verify] else []

def run (w : Surroundings) (root : Bytes) (options : CompileOptions) : Compilation :=
  (stages options).foldl (step w) (start root options)

/-- The digest of all sources of a compilation that did not fail. -/
def fingerprint (c : Compilation) : Digest :=
  if c.error.isSome then Digest.zero else c.sources.fingerprint

end Compilation

end StateBuffer
