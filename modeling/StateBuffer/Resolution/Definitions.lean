import StateBuffer.Resolution.Imports

/-!
Looking up names. A definition is visible from later definitions of its own file, and from other
files if it is public. Among the visible files the first that has a match wins, and within a file
the latest definition.
-/

namespace StateBuffer

/-- The place a name is looked up from. -/
structure Query where
  file : FileId
  node : NodeId
  scope : Scope
  name : Bytes
  deriving DecidableEq, Repr, Inhabited

/-- Whether definitions of other files must be public to be found. -/
inductive Visibility where
  | publicOnly
  | any
  deriving DecidableEq, Repr, Inhabited

/-- A definition that was found, and the import it came through. -/
structure Binding where
  target : Declared
  via : Option ItemId
  deriving DecidableEq, Repr, Inhabited

def Query.sees (q : Query) (v : Visibility) (d : Declared) : Bool :=
  if d.definition.scope = q.scope then false
  else if d.file = q.file then d.definition.node < q.node
  else d.definition.isPublic || v = .any

/-- All definitions in source order. -/
structure DefinitionIndex where
  definitions : List Declared
  deriving Inhabited

namespace DefinitionIndex

def empty : DefinitionIndex := ⟨[]⟩

def register (x : DefinitionIndex) (tree : Tree) (item : ItemId) : Except Fault DefinitionIndex :=
  match tree.definition? item with
  | none => .error .notADefinition
  | some d => .ok ⟨x.definitions ++ [d]⟩

/-- The definitions of a name in a file, in order. -/
def lookup (x : DefinitionIndex) (file : FileId) (name : Bytes) : List Declared :=
  x.definitions.filter fun d => d.file = file ∧ d.definition.name = name

/-- The best match of a query among the files of a list. -/
def search (x : DefinitionIndex) (reached : List Reach) (q : Query) (v : Visibility) :
    Option Binding :=
  reached.findSome? fun r =>
    ((x.lookup r.file q.name).reverse.find? (q.sees v)).map fun d => ⟨d, r.via⟩

end DefinitionIndex

end StateBuffer
