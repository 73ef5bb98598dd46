import StateBuffer.Plan
import StateBuffer.Shader.Tree

/-!
The initialization shader of a plan, in WGSL on one line: a struct with one member for each
variable, the storage buffer that holds it, and an entry point that sets the variables in order.
-/

namespace StateBuffer

namespace Shader

def bufferName : Bytes := "b"

def structName : Bytes := "Buffer"

def entryPoint : Bytes := "main"

def memberName (node : NodeId) : Bytes := "v" ++ Bytes.ofNat node

/-- A variable as it is written in the shader. -/
def place (node : NodeId) : Bytes := bufferName ++ "." ++ memberName node

/-- The right-hand side of an assignment. -/
def valueText : InitValue → Bytes
  | .const value => "i32(" ++ Bytes.ofInt value.toInt ++ ")"
  | .global node => place node

def initText (i : Init) : Bytes := place i.target ++ " = " ++ valueText i.value ++ "; "

def memberText (g : Global) : Bytes := memberName g.node ++ ": i32, "

def emit (p : Plan) : Bytes :=
  "struct " ++ structName ++ " \x7b "
    ++ p.globals.flatMap memberText
    ++ "\x7d @group(0) @binding(0) var<storage, read_write> " ++ bufferName ++ ": " ++ structName
    ++ "; @compute @workgroup_size(1, 1, 1) fn " ++ entryPoint ++ "() \x7b "
    ++ p.inits.flatMap initText ++ "\x7d"

def placeTree (node : NodeId) : Wgsl.ExprTree := .member (.ident bufferName) (memberName node)

def numberTree (value : Int) : Wgsl.ExprTree :=
  let digits := Wgsl.ExprTree.literal .integer (Bytes.ofNat value.natAbs)
  if value < 0 then .unary "-" digits else digits

/-- The syntax tree of a right-hand side. -/
def valueTree : InitValue → Wgsl.ExprTree
  | .const value => .construct (.named "i32" []) [numberTree value.toInt]
  | .global node => placeTree node

def initTree (i : Init) : Wgsl.Stmt := .assign (placeTree i.target) "=" (valueTree i.value)

/-- The syntax tree of an attribute with numbers for its arguments. -/
def attributeTree (name : Bytes) (values : List Int) : Wgsl.AttributeTree :=
  ⟨name, values.map numberTree⟩

/-- The syntax tree that the shader of a plan denotes. -/
def tree (p : Plan) : Wgsl.ModuleTree where
  declarations :=
    [.struct ⟨structName, p.globals.map fun g => ⟨[], memberName g.node, .named "i32" []⟩⟩,
      .variable ⟨[attributeTree "group" [0], attributeTree "binding" [0]], bufferName,
        some (.named structName []), none⟩,
      .function ⟨[attributeTree "compute" [], attributeTree "workgroup_size" [1, 1, 1]],
        entryPoint, [], none, p.inits.map initTree⟩]

end Shader

def Plan.program (p : Plan) : Program := ⟨p.buffer, Shader.emit p⟩

end StateBuffer
