import StateBuffer.Resolution.Definitions
import StateBuffer.Syntax.Literal

/-!
Name resolution of a whole compilation: every reference is bound to a definition if one is visible,
and it is recorded which definitions and imports were used.
-/

namespace StateBuffer

/-- The indexes of a compilation, the bindings of its references by node, and the first reference
to each definition. -/
structure Resolution where
  tree : Tree
  imports : ImportIndex
  definitions : DefinitionIndex
  bindings : List (NodeId × Binding)
  firstUses : List (ItemId × Span)
  deriving Inhabited

namespace Resolution

def registerItem (sources : SourceSet) (root : Bytes) (file : FileId) (r : Resolution)
    (item : ItemId) : Except Fault Resolution :=
  match (r.tree.item? item).map Item.body with
  | some (.imports _) => do
    let (_, imports) ← r.imports.register sources r.tree root file item
    return { r with imports }
  | some (.definition _) => do
    let definitions ← r.definitions.register r.tree item
    return { r with definitions }
  | none => .error .indexOutOfRange

/-- Takes up all items of a tree and works out what every file can see. -/
def index (sources : SourceSet) (tree : Tree) (root : Bytes) : Except Fault Resolution := do
  let start : Resolution := ⟨tree, ImportIndex.empty, DefinitionIndex.empty, [], []⟩
  let r ← tree.modules.toList.foldlM
    (fun r m => m.items.foldlM (registerItem sources root m.file) r) start
  return { r with imports := r.imports.consolidate sources }

def queryOf (file : FileId) (e : Expr) (name : Bytes) : Query := ⟨file, e.node, e.scope, name⟩

def bind (r : Resolution) (file : FileId) (e : Expr) (name : Bytes) : Resolution :=
  match r.definitions.search (r.imports.visible file) (queryOf file e name) .publicOnly with
  | none => r
  | some b =>
    let seen := r.firstUses.any fun u => u.1 = b.target.item
    { r with
      bindings := r.bindings ++ [(e.node, b)]
      firstUses := if seen then r.firstUses else r.firstUses ++ [(b.target.item, e.span)]
      imports := match b.via with
        | none => r.imports
        | some via => r.imports.markUsed via }

def bindItem (file : FileId) (r : Resolution) (item : ItemId) : Resolution :=
  match r.tree.definition? item with
  | none => r
  | some d => match r.tree.reference? d.definition with
    | none => r
    | some (e, name) => r.bind file e name

def bindAll (r : Resolution) : Resolution :=
  r.tree.modules.toList.foldl (fun r m => m.items.foldl (bindItem m.file) r) r

def binding? (r : Resolution) (node : NodeId) : Option Binding :=
  (r.bindings.find? fun b => b.1 = node).map Prod.snd

def firstUse? (r : Resolution) (item : ItemId) : Option Span :=
  (r.firstUses.find? fun u => u.1 = item).map Prod.snd

/-- Looks a reference up once more without the demand that definitions be public. -/
def searchPrivate (r : Resolution) (file : FileId) (e : Expr) (name : Bytes) : Option Binding :=
  r.definitions.search (r.imports.visible file) (queryOf file e name) .any

/-- An earlier definition of the same name in the same file. -/
def duplicate? (r : Resolution) (d : Declared) : Option Declared :=
  let q : Query := ⟨d.file, d.definition.node, d.definition.scope, d.definition.name⟩
  match r.definitions.search (r.imports.visible d.file) q .publicOnly with
  | some b => if b.target.file = d.file then some b.target else none
  | none => none

/-- The reference in the initializer of an item and the definition it is bound to. -/
def follow? (r : Resolution) (item : ItemId) : Option (Span × Declared) := do
  let d ← r.tree.definition? item
  let (e, _) ← r.tree.reference? d.definition
  let b ← r.binding? e.node
  return (e.span, b.target)

end Resolution

end StateBuffer
