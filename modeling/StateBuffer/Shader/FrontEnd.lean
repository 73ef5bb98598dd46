import StateBuffer.Shader.Tree
import StateBuffer.Text.Quoted

/-!
What is asked of a front end of the shader language, and the verdict on a shader that is made of its
answers. The front end reads a shader as a tree, tells what it finds in one, and translates one into
binary form; any front end will do. A shader passes if no problem was found and it has one entry
point, for compute work. A shader whose buffer has no fields is not looked at: the language has no
empty structs.
-/

namespace StateBuffer

namespace Wgsl

inductive EntryStage where
  | vertex
  | fragment
  | compute
  deriving DecidableEq, Repr, Inhabited

end Wgsl

inductive ShaderFault where
  | noFields
  /-- The front end refused it in these words. -/
  | rejected (words : Bytes)
  | problems (found : List Bytes)
  | notCompute (entryPoint : Bytes)
  | entryPointCount (count : Nat)
  deriving DecidableEq, Repr

def ShaderFault.message (f : ShaderFault) : Bytes :=
  "invalid init shader: " ++ match f with
    | .noFields => ("buffer has no fields" : Bytes)
    | .rejected words => words
    | .problems found => Bytes.join "; " found
    | .notCompute name => "entry point " ++ Bytes.quote name ++ " is not a compute shader"
    | .entryPointCount count => "expected one entry point, found " ++ Bytes.ofNat count

namespace Shader

/-- What a front end finds in a shader that it understands. -/
structure Inspection where
  problems : List Bytes
  entryPoints : List (Bytes × Wgsl.EntryStage)
  globals : Nat
  deriving DecidableEq, Repr, Inhabited

/-- A front end of the shader language. What it cannot read has no tree; otherwise it refuses a
shader in words of its own. -/
structure FrontEnd where
  read : Bytes → Option Wgsl.ModuleTree
  inspect : Bytes → Except Bytes Inspection
  translate : Bytes → Except Bytes Bytes

/-- What is said of an accepted shader. -/
structure Summary where
  skipped : Bool
  entryPoints : List Bytes
  globals : Nat
  deriving DecidableEq, Repr, Inhabited

/-- Does the shader declare a buffer without fields? -/
def isEmpty (source : Bytes) : Bool := Bytes.startsWith source "struct Buffer \x7b \x7d"

namespace FrontEnd

def verify (f : FrontEnd) (source : Bytes) : Except ShaderFault Summary :=
  if isEmpty source then .ok ⟨true, [], 0⟩
  else match f.inspect source with
    | .error words => .error (.rejected words)
    | .ok found =>
      if !found.problems.isEmpty then .error (.problems found.problems)
      else match found.entryPoints.find? fun e => e.2 ≠ .compute with
        | some e => .error (.notCompute e.1)
        | none =>
          let names := found.entryPoints.map Prod.fst
          if names.length = 1 then .ok ⟨false, names, found.globals⟩
          else .error (.entryPointCount names.length)

def compile (f : FrontEnd) (source : Bytes) : Except ShaderFault Bytes :=
  if isEmpty source then .error .noFields else (f.translate source).mapError .rejected

end FrontEnd

end Shader

end StateBuffer
