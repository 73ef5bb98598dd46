import StateBuffer.Compilation.Basic
import StateBuffer.Files.Change
import StateBuffer.Machine.Run
import StateBuffer.Program.Codec

/-!
Compiled programs in files: saving and loading them, and writing the shader in binary form. What
goes wrong is reported as a diagnostic as well.
-/

namespace StateBuffer

namespace Compilation

def reportWrite (c : Compilation) (path : Bytes) (cause : FileError) :
    Compilation × Option CompileError :=
  let message := "cannot write " ++ Bytes.quote path ++ ": " ++ cause.message
  ({ c with diagnostics := c.diagnostics ++ [Diagnostic.error .writeFailed Span.none message] },
    some (.failed message))

/-- Saves the program in the format that the path asks for. -/
def writeProgram (c : Compilation) (w : Msgpack.Wire) (fs : FileSystem) (path : Bytes) :
    (Compilation × Option CompileError) × FileSystem :=
  match c.program with
  | none => ((c, some .nothingToWrite), fs)
  | some p => match fs.save path (p.encode w (.ofPath path)) with
    | (fs, none) => ((c, none), fs)
    | (fs, some e) => (c.reportWrite path e, fs)

def writeBinary (c : Compilation) (shaders : Shader.FrontEnd) (fs : FileSystem) (path : Bytes) :
    (Compilation × Option CompileError) × FileSystem :=
  match c.program with
  | none => ((c, some .nothingToWrite), fs)
  | some p => match shaders.compile p.shader with
    | .error e => ((c, some (.uncompiled e)), fs)
    | .ok binary => match fs.write path binary with
      | .ok fs => ((c, none), fs)
      | .error e => (c.reportWrite path e, fs)

end Compilation

/-- What came of loading a program: the program or an error, and what was reported. -/
structure Loaded where
  program : Except CompileError Program
  diagnostics : List Diagnostic

namespace Loaded

def unusable (path : Bytes) (cause : ProgramFault) : Loaded :=
  let message := "invalid compiled program " ++ Bytes.quote path
  ⟨.error (.unusable cause),
    [(Diagnostic.error .invalidProgram Span.none message).withNote Span.none cause.message]⟩

def unreadable (path : Bytes) (cause : FileError) : Loaded :=
  let message := "cannot read " ++ Bytes.quote path ++ ": " ++ cause.message
  ⟨.error (.failed cause.message), [Diagnostic.error .readFailed Span.none message]⟩

def bag (l : Loaded) : Bag := (Bag.empty 0).addAll l.diagnostics

end Loaded

/-- Loads a program in the format that the path asks for. A directory can be opened but holds no
program. -/
def Program.load (w : Msgpack.Wire) (fs : FileSystem) (path : Bytes) : Loaded :=
  match fs.lookUp true "open" path with
  | .error e => .unreadable path e
  | .ok (_, node) =>
    let data := match node with
      | .file data => data
      | _ => []
    match Program.decode w (.ofPath path) data with
    | .ok p => ⟨.ok p, []⟩
    | .error e => .unusable path e

/-- Why the values of a program could not be had. -/
inductive EvaluationError where
  | run (cause : MachineError)
  | snapshot (cause : MachineError)
  deriving DecidableEq, Repr

namespace EvaluationError

def cause : EvaluationError → MachineError
  | .run e => e
  | .snapshot e => e

def message : EvaluationError → Bytes
  | .run e => e.message
  | .snapshot e => "snapshot: " ++ e.message

end EvaluationError

/-- A machine that has run a program, whose shader is read by a reader. -/
def Program.execute (reader : Bytes → Option Wgsl.ModuleTree) (p : Program) :
    Except EvaluationError Machine :=
  match Machine.ofProgramBy reader p with
  | .error e => .error (.run e)
  | .ok m => match m.run with
    | (m, none) => .ok m
    | (_, some e) => .error (.run e)

def Program.values (reader : Bytes → Option Wgsl.ModuleTree) (p : Program) :
    Except EvaluationError (List (Bytes × Int32)) := do
  let m ← p.execute reader
  m.snapshot.mapError .snapshot

end StateBuffer
