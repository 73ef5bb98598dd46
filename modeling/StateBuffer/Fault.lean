import StateBuffer.Source.Span
import StateBuffer.Text.Quoted

/-!
Broken promises of a caller: the requests that an operation refuses because its conditions of use
do not hold. A compilation that passed validation runs into none of them.
-/

namespace StateBuffer

/-- Why an operation refused to work. -/
inductive Fault where
  | fileTooLarge (path : Bytes)
  | tooManyFiles
  | noSuchFile (file : FileId)
  | noSuchName (name : Nat)
  | offsetTooLarge
  | importAfterConsolidation
  | notAnImport
  | notADefinition
  | notConsolidated
  | edgeOutOfRange (source target size : Nat)
  | tooManyNodes
  | circularGlobal (key : Bytes)
  | cyclicOrder (nodes : List Nat)
  | unresolvedReference (span : Span)
  | initializerNotConstant (span : Span)
  | unknownValueKind
  | indexOutOfRange
  deriving DecidableEq, Repr

/-- The sentence that names the broken condition. -/
def Fault.message : Fault → Bytes
  | .fileTooLarge path => "file " ++ Bytes.quote path ++ " is too large: out of range"
  | .tooManyFiles => "len files overflow: out of range"
  | .noSuchFile file => "source: invalid file id " ++ Bytes.ofNat file
  | .noSuchName name => "source: invalid string id " ++ Bytes.ofNat name
  | .offsetTooLarge => "error offset overflow: out of range"
  | .importAfterConsolidation => "symbols: import registered after consolidation"
  | .notAnImport => "symbols: not an import item"
  | .notADefinition => "symbols: not a definition item"
  | .notConsolidated => "symbols: reachable list requested before consolidation"
  | .edgeOutOfRange source target size =>
    "dag: edge " ++ Bytes.ofNat source ++ " -> " ++ Bytes.ofNat target ++ " out of range ("
      ++ Bytes.ofNat size ++ " nodes)"
  | .tooManyNodes => "node id overflow: out of range"
  | .circularGlobal key => "backend: " ++ key ++ " has circular dependencies"
  | .cyclicOrder nodes =>
    "backend: init order is cyclic: [" ++ Bytes.join " " (nodes.map Bytes.ofNat) ++ "]"
  | .unresolvedReference span => "backend: unresolved reference at " ++ span.text
  | .initializerNotConstant span => "backend: initializer at " ++ span.text ++ " is not constant"
  | .unknownValueKind => "wgsl: unknown value kind"
  | .indexOutOfRange => "runtime error"

end StateBuffer
