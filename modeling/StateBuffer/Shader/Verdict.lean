import StateBuffer.Shader.FrontEnd
import StateBuffer.Shader.Reader
import StateBuffer.Shader.Scope

/-!
The verdict of the front end `Wgsl.frontEnd`, an instance of what is asked of front ends. A shader
must be in the grammar and use no name that is not defined, and names, bindings and functions must
not repeat; beyond that its entry points must keep the rules of their stages.
-/

namespace StateBuffer

namespace Wgsl

/-- The largest number that an attribute can hold. -/
def maxSlot : Nat := 4294967295

/-- The number that a literal gives to an attribute: digits up to the largest number, and nothing
else counts. -/
def slotOf (text : Bytes) : Nat := ((Bytes.toNat? text).map (min maxSlot)).getD 0

/-- The number of a value of an attribute, if the value is a literal. -/
def ExprTree.slot? : ExprTree → Option Nat
  | .literal _ text => some (slotOf text)
  | _ => none

/-- The number that an attribute gives, if it is named so and its first value is a literal. -/
def AttributeTree.slot? (name : Bytes) (a : AttributeTree) : Option Nat :=
  if a.name = name then a.arguments.head?.bind ExprTree.slot? else none

def AttributeTree.isPosition (a : AttributeTree) : Bool :=
  a.name = "builtin" && match a.arguments with
    | .ident name :: _ => name = "position"
    | _ => false

/-- The number that the attributes of a variable give; the last one counts. -/
def ValueTree.slot? (v : ValueTree) (name : Bytes) : Option Nat :=
  (v.attributes.filterMap (AttributeTree.slot? name)).getLast?

/-- Where a variable is bound: its group and its place in the group. One of the two may be left
out. -/
def ValueTree.binding? (v : ValueTree) : Option (Nat × Nat) :=
  match v.slot? "group", v.slot? "binding" with
  | none, none => none
  | group, place => some (group.getD 0, place.getD 0)

namespace EntryStage

/-- The attribute that makes a function an entry point. -/
def word : EntryStage → Bytes
  | .vertex => "vertex"
  | .fragment => "fragment"
  | .compute => "compute"

def ofWord? (name : Bytes) : Option EntryStage :=
  [vertex, fragment, compute].find? fun s => s.word = name

end EntryStage

/-- How an entry point breaks the rules of its stage. -/
inductive EntryProblem where
  | noResult
  | noPosition
  | emptyWorkgroup
  deriving DecidableEq, Repr

def EntryProblem.message : EntryProblem → Bytes
  | .noResult => "must have a return value"
  | .noPosition => "must return @builtin(position)"
  | .emptyWorkgroup => "workgroup size must be non-zero"

namespace FunctionTree

def stage? (f : FunctionTree) : Option EntryStage :=
  (f.attributes.filterMap fun a => EntryStage.ofWord? a.name).head?

/-- The sizes of the workgroups that a function asks for; what is no literal counts as one. -/
def workgroup (f : FunctionTree) : List Nat :=
  match f.attributes.find? fun a => a.name = ("workgroup_size" : Bytes) with
  | some a => (a.arguments.take 3).map fun e => e.slot?.getD 1
  | none => []

end FunctionTree

namespace ModuleTree

/-- Does a result carry the position of a vertex, itself or in a member of its struct? -/
def carriesPosition (m : ModuleTree) (r : ResultTree) : Bool :=
  r.attributes.any AttributeTree.isPosition
    || match r.type with
      | .named name [] => m.structs.any fun s =>
          s.name = name && s.members.any fun p => p.attributes.any AttributeTree.isPosition
      | _ => false

/-- The problem of an entry point for a stage, if it has one. -/
def entryProblem? (m : ModuleTree) (f : FunctionTree) : EntryStage → Option EntryProblem
  | .vertex => match f.result with
    | none => some .noResult
    | some r => if m.carriesPosition r then none else some .noPosition
  | .fragment => none
  | .compute => if f.workgroup.contains 0 then some .emptyWorkgroup else none

/-- The entry points of a module in order, each with its stage. -/
def entryPoints (m : ModuleTree) : List (Bytes × EntryStage) :=
  m.functions.filterMap fun f => f.stage?.map fun stage => (f.name, stage)

/-- The problems of the entry points in order, each with its entry point. -/
def entryProblems (m : ModuleTree) : List ((Bytes × EntryStage) × EntryProblem) :=
  m.functions.filterMap fun f => do
    let stage ← f.stage?
    let problem ← m.entryProblem? f stage
    return ((f.name, stage), problem)

/-- Does nothing repeat that must not? No two variables have one name or one binding, and no two
functions have one name. -/
def isDistinct (m : ModuleTree) : Bool :=
  (m.globals.map ValueTree.name).Nodup && (m.globals.filterMap ValueTree.binding?).Nodup
    && (m.functions.map FunctionTree.name).Nodup

end ModuleTree

end Wgsl

/-- The message about an entry point with a problem. -/
def problemText (p : (Bytes × Wgsl.EntryStage) × Wgsl.EntryProblem) : Bytes :=
  "entry point " ++ Bytes.quote p.1.1 ++ " (@" ++ p.1.2.word ++ "): " ++ p.2.message

namespace Shader

/-- The words about a shader that is out of the grammar, names what is not defined, or repeats what
must not repeat. -/
def unexpected : Bytes := "unknown name or unexpected input"

/-- The words about a built-in name that is used in a way that has no meaning at all. -/
def meaningless : Bytes := "meaningless use of a built-in name"

/-- The module of a shader, if it is in the grammar, all its names are defined, it is sound and
nothing in it repeats, and whether all of it has a binary form. -/
def accept (source : Bytes) : Except Bytes (Wgsl.ModuleTree × Bool) :=
  match Wgsl.ModuleTree.ofText? source with
  | none => .error unexpected
  | some m => match m.findings with
    | .error .breakdown => .error meaningless
    | .error .unknown => .error unexpected
    | .ok findings =>
      if findings.sound && m.isDistinct then .ok (m, findings.writable) else .error unexpected

def inspect (source : Bytes) : Except Bytes Inspection := do
  let (m, _) ← accept source
  return ⟨m.entryProblems.map problemText, m.entryPoints, m.globals.length⟩

/-- The words that open a module in binary form: the mark of the format, its version, and room for
the maker, the bound of names and the schema. -/
def binaryHeader : List UInt32 := [0x07230203, 0x00010300, 0, 1, 0]

/-- The bytes of a word, the lowest first. -/
def wordBytes (w : UInt32) : Bytes :=
  [w.toUInt8, (w >>> 8).toUInt8, (w >>> 16).toUInt8, (w >>> 24).toUInt8]

/-- The shader in binary form. Its instructions are the work of the device's own tools; what stands
here is the frame that they fill. -/
def translate (source : Bytes) : Except Bytes Bytes := do
  let (m, writable) ← accept source
  if writable && m.entryProblems.isEmpty then return binaryHeader.flatMap wordBytes
  else .error unexpected

end Shader

/-- A front end of the shader language, the one that command lines are run with. -/
def Wgsl.frontEnd : Shader.FrontEnd := ⟨Wgsl.ModuleTree.ofText?, Shader.inspect, Shader.translate⟩

end StateBuffer
