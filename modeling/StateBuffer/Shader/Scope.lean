import StateBuffer.Shader.Tree
import StateBuffer.Shader.Type

/-!
What names stand for in a shader, and the types of its values, as the front end `Wgsl.frontEnd`
looks at them before it accepts a shader. Structs are known from their declaration on, functions and
module variables everywhere; a local name is known from its declaration to the end of its function,
whatever blocks end between. Constants and aliases of the module give no names to functions. The
type of an expression is needed only where a local name has no type of its own, so an expression
without one may stand anywhere else.
-/

namespace StateBuffer

namespace Wgsl

/-- Why a declaration cannot be understood. -/
inductive Trouble where
  /-- Something in it stands for nothing. -/
  | unknown
  /-- A built-in name is used in a way that has no meaning at all. -/
  | breakdown
  deriving DecidableEq, Repr

/-- Of two troubles the one that is told. -/
def Trouble.worse (t : Trouble) : Option Trouble → Trouble
  | some .breakdown => .breakdown
  | _ => t

/-- What is found while a module is understood: whether all of it is sound, and whether all of it
has a binary form. -/
structure Findings where
  sound : Bool
  writable : Bool
  deriving DecidableEq, Repr, Inhabited

abbrev Look (α : Type) := StateT Findings (Except Trouble) α

namespace Look

/-- Takes note of a condition for soundness. -/
def demand (condition : Bool) : Look Unit :=
  modify fun f => { f with sound := f.sound && condition }

/-- Takes note of a condition for a binary form. -/
def demandWritable (condition : Bool) : Look Unit :=
  modify fun f => { f with writable := f.writable && condition }

end Look

/-- The compound that a name says: the sides of vectors and matrices are digits in it. A name that
is too short for them has no meaning at all. -/
def Compound.ofName (name : Bytes) : Except Trouble Compound :=
  if Bytes.startsWith name "vec" then
    match name.drop 3 with
    | b :: _ => .ok (.vector (digit b))
    | [] => .error .breakdown
  else if Bytes.startsWith name "mat" then
    match name.drop 3 with
    | b :: _ :: c :: _ => .ok (.matrix (digit b) (digit c))
    | _ => .error .breakdown
  else if name = "atomic" then .ok .atomic
  else if Bytes.startsWith name "texture" then .ok .texture
  else .error .unknown

inductive Callee where
  /-- A constructor by the name of a matrix type without its scalar type. -/
  | matrix
  | barrier
  | math
  | atomic
  | textureSample
  | textureLoad
  | textureStore
  | textureSize
  | textureCount
  | function
  deriving DecidableEq, Repr

namespace Callee

def builtIns : List (Callee × List Bytes) :=
  [(.barrier, ["workgroupBarrier", "storageBarrier", "textureBarrier"]),
    (.math, ["abs", "min", "max", "sin", "cos", "tan", "sqrt", "length", "normalize", "dot",
      "cross"]),
    (.atomic, ["atomicAdd", "atomicSub", "atomicAnd", "atomicOr", "atomicXor", "atomicMin",
      "atomicMax", "atomicExchange", "atomicCompareExchangeWeak"]),
    (.textureSample, ["textureSample", "textureSampleBias", "textureSampleLevel",
      "textureSampleGrad"]),
    (.textureLoad, ["textureLoad"]), (.textureStore, ["textureStore"]),
    (.textureSize, ["textureDimensions"]),
    (.textureCount, ["textureNumLevels", "textureNumLayers"])]

def builtIn? (name : Bytes) : Option Callee :=
  if Bytes.startsWith name "mat" then some .matrix
  else (builtIns.find? fun b => b.2.contains name).map Prod.fst

def least : Callee → Nat
  | .matrix | .barrier | .function => 0
  | .math => 1
  | .atomic | .textureSample | .textureLoad | .textureSize | .textureCount => 2
  | .textureStore => 3

/-- How many of the arguments are looked at. -/
def looked (given : Nat) : Callee → Nat
  | .barrier => 0
  | .textureCount => 1
  | .atomic => 2
  | .math => 4
  | _ => given

/-- The type of the result, given the types of the arguments that were looked at. -/
def result? (name : Bytes) (types : List (Option Ty)) : Callee → Option Ty
  | .matrix => some (.matrix 4 4 .single)
  | .barrier | .textureStore | .function => none
  | .math => do
    let t ← types.head?.join
    if name = "length" ∨ name = "dot" then t.scalar?.map .scalar
    else if t.isNumeric then some t
    else none
  | .atomic => some (.scalar .signed)
  | .textureSample | .textureLoad => some (.vector 4 .single)
  | .textureSize => some (.vector 2 .unsigned)
  | .textureCount => some (.scalar .unsigned)

end Callee

/-- The type of an operation on two values, given that of the left one: comparisons give truth
values. -/
def operationType (operator : Bytes) (left : Option Ty) : Option Ty :=
  let comparisons : List Bytes := ["==", "!=", "<", ">", "<=", ">=", "&&", "||"]
  if comparisons.contains operator then left.map fun _ => .scalar .bool else left

/-- The type of a literal; truth values are none. -/
def LiteralKind.type? (text : Bytes) : LiteralKind → Option Ty
  | .bool => none
  | .integer => some (.scalar (if Bytes.endsWith text "u" then .unsigned else .signed))
  | .float => some (.scalar (if Bytes.endsWith text "h" then .half else .single))

/-- The names in reach: types, functions, the results of the functions before this one, and
values. -/
structure Scope where
  types : List (Bytes × Ty)
  functions : List Bytes
  results : List (Bytes × Option Ty)
  values : List (Bytes × Ty)
  deriving Repr, Inhabited

namespace Scope

/-- What a name stands for in a list, the latest first. -/
def find? {α : Type} (entries : List (Bytes × α)) (name : Bytes) : Option α :=
  (entries.find? fun e => e.1 = name).map Prod.snd

def need {α : Type} : Option α → Look α
  | some a => return a
  | none => throw .unknown

mutual

/-- The type that a type tree stands for. Textures may be made of anything, vectors and matrices of
scalars only. -/
def type (s : Scope) : TypeTree → Look Ty
  | .named name arguments => do
    if arguments.isEmpty then
      need (((Scalar.ofName? name).map Ty.scalar).or (find? s.types name))
    else match Compound.ofName name with
      | .error e => throw e
      | .ok .texture => return .texture
      | .ok compound => match ← s.firstType arguments with
        | .scalar scalar =>
          Look.demand (compound.admits scalar)
          return compound.of scalar
        | _ => throw .breakdown
  | .array element isSized => do
    let t ← s.type element
    Look.demandWritable isSized
    return .array t
  | .pointer target => return .pointer (← s.type target)

def firstType (s : Scope) : List TypeTree → Look Ty
  | [] => throw .unknown
  | t :: _ => s.type t

end

/-- What a name calls. Names of vector types call nothing. -/
def callee (s : Scope) (name : Bytes) : Look Callee :=
  match Callee.builtIn? name with
  | some c => return c
  | none =>
    if s.functions.contains name && !Bytes.startsWith name "vec" then return .function
    else throw .unknown

/-- The type of a call of what a name calls, given the types of the arguments that were looked at.
A sample needs coordinates, or it has no meaning at all. Calls of functions and stores to textures
have no binary form. -/
def callType (s : Scope) (c : Callee) (name : Bytes) (types : List (Option Ty)) :
    Look (Option Ty) := do
  Look.demandWritable (c ≠ .function && c ≠ .textureStore)
  if c = .textureSample && types.length < 3 then throw .breakdown
  return if c = .function then (find? s.results name).join else c.result? name types

mutual

/-- The type of an expression, if it has one; everything in it must stand for something. -/
def value (s : Scope) : ExprTree → Look (Option Ty)
  | .literal kind text => some <$> need (kind.type? text)
  | .ident name => some <$> need (find? s.values name)
  | .member base name => do
    let t := (← s.value base).bind (Ty.part? (Ty.member? name))
    Look.demandWritable t.isSome
    return t
  | .index base place => do
    let t := (← s.value base).bind (Ty.part? Ty.element?)
    let _ ← s.value place
    Look.demandWritable t.isSome
    return t
  | .call name arguments => do
    let c ← s.callee name
    if arguments.length < c.least then throw .unknown
    s.callType c name (← s.valuesOf (c.looked arguments.length) arguments)
  | .construct type arguments => do
    let t ← s.type type
    let _ ← s.valuesOf arguments.length arguments
    return some t
  | .unary operator operand => do
    let t ← s.value operand
    Look.demandWritable (operator ≠ "*")
    return t.filter Ty.isNumeric
  | .binary operator left right => do
    let t ← s.value left
    let _ ← s.value right
    return operationType operator t

/-- The types of the first `count` of some expressions. -/
def valuesOf (s : Scope) : Nat → List ExprTree → Look (List (Option Ty))
  | count + 1, e :: rest => do
    let t ← s.value e
    return t :: (← s.valuesOf count rest)
  | _, _ => return []

end

/-- Looks at an expression without asking for its type. -/
def visit (s : Scope) (e : ExprTree) : Look Unit := do let _ ← s.value e

def declare (s : Scope) (name : Bytes) (t : Ty) : Scope :=
  { s with values := (name, t) :: s.values }

/-- The scope with a local name, whose type is given or that of its value. -/
def declareLocal (s : Scope) (name : Bytes) (type : Option TypeTree) (value : Option ExprTree) :
    Look Scope := do
  let found ← match value with
    | some e => s.value e
    | none => pure none
  let t ← match type with
    | some t => s.type t
    | none => need found
  return s.declare name (.pointer t)

/-- Where a statement stands: whether in a loop, and whether in the last step of one. -/
structure Place where
  inLoop : Bool
  inLast : Bool
  deriving DecidableEq, Repr

mutual

/-- The scope after a statement. Loops are left and begun anew only in loops, and no last step of a
loop leaves it. -/
def after (s : Scope) (p : Place) : Stmt → Look Scope
  | .assign left operator right => do
    s.visit left
    s.visit right
    Look.demandWritable (operator = "=")
    return s
  | .expression value => do
    s.visit value
    return s
  | .variable name type value => s.declareLocal name type value
  | .return value => do
    match value with
    | some e => s.visit e
    | none => pure ()
    Look.demand (!p.inLast)
    return s
  | .block body => s.afterAll p body
  | .conditional condition body otherwise => do
    s.visit condition
    let s ← s.afterAll p body
    s.afterAll p otherwise
  | .whileLoop condition body => do
    s.visit condition
    s.afterAll { p with inLoop := true } body
  | .loop body => s.afterAll { p with inLoop := true } body
  | .forLoop first condition last body => do
    let s ← s.afterAll p first
    match condition with
    | some e => s.visit e
    | none => pure ()
    let s ← s.afterAll { p with inLoop := true } body
    s.afterAll ⟨true, true⟩ last
  | .break => do
    Look.demand (p.inLoop && !p.inLast)
    return s
  | .continue => do
    Look.demand (p.inLoop && !p.inLast)
    return s
  | .discard => return s

def afterAll (s : Scope) (p : Place) : List Stmt → Look Scope
  | [] => return s
  | first :: rest => do
    let s ← s.after p first
    s.afterAll p rest

end

/-- The members of a struct or the parameters of a function with their types. -/
def members (s : Scope) (ms : List Member) : Look (List (Bytes × Ty)) :=
  ms.mapM fun m => do return (m.name, ← s.type m.type)

/-- The scope after a struct; no two of its members have one name. -/
def afterStruct (t : StructTree) (s : Scope) : Look Scope := do
  let ms ← s.members t.members
  Look.demand (decide (t.members.map Member.name).Nodup)
  return { s with types := (t.name, .struct ms) :: s.types }

/-- The scope after a variable of the module, which must have a type; its value is not looked at. -/
def afterGlobal (v : ValueTree) (s : Scope) : Look Scope := do
  return s.declare v.name (.pointer (← s.type (← need v.type)))

/-- The scope after a constant of the module, which must have a type too. -/
def afterConstant (v : ValueTree) (s : Scope) : Look Scope := do
  let _ ← s.type (← need v.type)
  return s

/-- The scope after a function: its result is known, the names in it are not. -/
def afterFunction (f : FunctionTree) (s : Scope) : Look Scope := do
  let ps ← s.members f.parameters
  let result ← f.result.mapM fun r => s.type r.type
  let _ ← (ps.foldl (fun s p => s.declare p.1 p.2) s).afterAll ⟨false, false⟩ f.body
  return { s with results := (f.name, result) :: s.results }

end Scope

/-- How far a module has been understood: a declaration in trouble leaves the names as they were,
and the others are still looked at. -/
structure Progress where
  scope : Scope
  findings : Findings
  trouble : Option Trouble
  deriving Inhabited

namespace Progress

def step (p : Progress) (work : Scope → Look Scope) : Progress :=
  match (work p.scope).run p.findings with
  | .ok (scope, findings) => { p with scope, findings }
  | .error e => { p with trouble := some (e.worse p.trouble) }

/-- Before the first declaration; the functions are known by name. -/
def start (m : ModuleTree) : Progress :=
  ⟨⟨[], m.functions.map FunctionTree.name, [], []⟩, ⟨true, true⟩, none⟩

end Progress

/-- What is found in a module: structs come first, then variables and constants, then functions. -/
def ModuleTree.findings (m : ModuleTree) : Except Trouble Findings :=
  let p := (m.structs.map Scope.afterStruct ++ m.globals.map Scope.afterGlobal
    ++ m.constants.map Scope.afterConstant ++ m.functions.map Scope.afterFunction).foldl
      Progress.step (Progress.start m)
  match p.trouble with
  | some e => .error e
  | none => .ok p.findings

end Wgsl

end StateBuffer
