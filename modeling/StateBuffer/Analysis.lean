import StateBuffer.Diagnostic.Bag
import StateBuffer.Resolution.Basic
import StateBuffer.Syntax.Grammar

/-!
From source files to a resolved program: all files are read into one tree with one count of nodes,
and then all names are resolved.
-/

namespace StateBuffer

def SyntaxError.diagnostics (e : SyntaxError) : List Diagnostic :=
  match e.span with
  | .ok span => [Diagnostic.error Code.unexpectedToken span e.message]
  | .error _ => []

/-- All files of a set read into one tree: what each of them gave, and the next free node. -/
structure ParsedSources where
  tree : Tree
  results : List (FileId × Tree.FileResult)
  nextId : NodeId

namespace ParsedSources

def empty : ParsedSources := ⟨Tree.empty, [], 0⟩

def add (p : ParsedSources) (f : SourceFile) : ParsedSources :=
  let (result, tree) := p.tree.addFile f.id f.content p.nextId
  ⟨tree, p.results ++ [(f.id, result)], result.nextId⟩

def diagnostics (p : ParsedSources) : List Diagnostic :=
  p.results.flatMap fun r => (r.2.error.map SyntaxError.diagnostics).getD []

def failures (p : ParsedSources) : Nat := (p.results.filter fun r => r.2.error.isSome).length

end ParsedSources

def SourceSet.parse (s : SourceSet) : ParsedSources :=
  s.files.toList.foldl ParsedSources.add ParsedSources.empty

def Resolution.ofTree (sources : SourceSet) (tree : Tree) (root : Bytes) :
    Except Fault Resolution := do
  let r ← Resolution.index sources tree root
  return r.bindAll

end StateBuffer
