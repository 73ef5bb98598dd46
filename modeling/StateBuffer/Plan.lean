import StateBuffer.Graph
import StateBuffer.Program.Basic
import StateBuffer.Resolution.Constants
import StateBuffer.Resolution.Dependencies

/-!
The plan of a program: where each variable lies in the state buffer, and in which order and with
which values the variables are set. A variable is set after all variables it depends on.
-/

namespace StateBuffer

structure Global where
  item : ItemId
  node : NodeId
  file : FileId
  key : Bytes
  offset : UInt32
  deriving DecidableEq, Repr, Inhabited

inductive InitValue where
  /-- A literal or the value of a constant. -/
  | const (value : Int32)
  /-- The value of another variable. -/
  | global (node : NodeId)
  deriving DecidableEq, Repr, Inhabited

structure Init where
  target : NodeId
  value : InitValue
  deriving DecidableEq, Repr, Inhabited

/-- Variables in ascending order of their nodes, the order of setting them, and the size of the
buffer in bytes. -/
structure Plan where
  globals : List Global
  inits : List Init
  size : UInt32
  deriving DecidableEq, Repr, Inhabited

namespace Plan

def cellSize : UInt32 := 4

/-- The first place between `low` and `high` whose variable has at least the given node, by
halving. -/
def searchNode (globals : List Global) (node : NodeId) (low high : Nat) : Nat :=
  if low < high then
    let middle := (low + high) / 2
    match globals[middle]? with
    | none => low
    | some g =>
      if g.node < node then searchNode globals node (middle + 1) high
      else searchNode globals node low middle
  else low
termination_by high - low

def global? (p : Plan) (node : NodeId) : Option Global :=
  (p.globals[searchNode p.globals node 0 p.globals.length]?).filter fun g => g.node = node

def buffer (p : Plan) : Buffer :=
  ⟨p.size, FieldMap.ofList (p.globals.map fun g => (g.key, ⟨cellSize, g.offset⟩))⟩

/-- The key of a variable: the dot path of its file and its name. -/
def key (dotPath name : Bytes) : Bytes := dotPath ++ ":" ++ name

/-- The variables of a file, not yet placed. -/
def globalsOf (sources : SourceSet) (t : Tree) (m : Module) : Except Fault (List Global) :=
  (m.items.filterMap t.var?).mapM fun d => do
    let file ← sources.get m.file
    return ⟨d.item, d.definition.node, m.file, key file.dotPath d.definition.name, 0⟩

/-- The variables of all files in ascending order of their nodes, placed one after the other. -/
def placed (sources : SourceSet) (t : Tree) : Except Fault (List Global) := do
  let all ← t.modules.toList.mapM (globalsOf sources t)
  let sorted := all.flatten.mergeSort fun a b => a.node ≤ b.node
  return sorted.zipIdx.map fun (g, i) => { g with offset := cellSize * i.toUInt32 }

/-- The number of a variable among those placed. -/
def indexOf? (globals : List Global) (item : ItemId) : Option Nat :=
  globals.findIdx? fun g => g.item = item

/-- The edges from the variables that one variable depends on. -/
def addDependencies (r : Resolution) (globals : List Global) (g : Graph) (i : Nat)
    (global : Global) : Except Fault Graph :=
  match r.dependencies global.item with
  | .error _ => .error (.circularGlobal global.key)
  | .ok deps =>
    (deps.items.filterMap (indexOf? globals)).foldlM (fun g source => g.addEdge source i) g

/-- The order in which variables are set: dependencies first, then by node. As every variable has a
node of its own, the numbers of variables fit into 32 bits too. -/
def initOrder (r : Resolution) (globals : List Global) : Except Fault (List Nat) := do
  let g ← globals.zipIdx.foldlM (fun g (global, i) => addDependencies r globals g i global)
    (Graph.empty globals.length)
  let layering := g.layering
  if layering.isCyclic then .error (.cyclicOrder layering.stuck) else .ok layering.order

def initValue (r : Resolution) (item : ItemId) (cache : ConstantCache) :
    Except Fault (InitValue × ConstantCache) :=
  match (r.tree.definition? item).bind fun d => r.tree.expr? d.definition.value with
  | none => .error .indexOutOfRange
  | some e =>
    let constant : Except Fault (InitValue × ConstantCache) :=
      match r.exprValue e cache with
      | (some value, cache) => .ok (.const value, cache)
      | (none, _) => .error (.initializerNotConstant e.span)
    match e.body with
    | .literal _ => constant
    | .name _ =>
      match r.binding? e.node with
      | none => .error (.unresolvedReference e.span)
      | some b =>
        match b.target.definition.kind with
        | .var => .ok (.global b.target.definition.node, cache)
        | .const => constant

def initsOf (r : Resolution) : List Global → ConstantCache → Except Fault (List Init)
  | [], _ => .ok []
  | g :: rest, cache => do
    let (value, cache) ← initValue r g.item cache
    let inits ← initsOf r rest cache
    return ⟨g.node, value⟩ :: inits

def lower (sources : SourceSet) (r : Resolution) : Except Fault Plan := do
  let globals ← placed sources r.tree
  let order ← initOrder r globals
  let inits ← initsOf r (order.filterMap fun i => globals[i]?) []
  return ⟨globals, inits, cellSize * globals.length.toUInt32⟩

end Plan

end StateBuffer
