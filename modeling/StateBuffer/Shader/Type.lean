import StateBuffer.Text.Bytes

/-!
The types of values in a shader, for the front end `Wgsl.frontEnd`. A variable is a pointer to what
it holds, and a part of what a pointer leads to is again behind a pointer.
-/

namespace StateBuffer

namespace Wgsl

inductive Scalar where
  | bool
  | signed
  | unsigned
  | single
  | half
  deriving DecidableEq, Repr, Inhabited

namespace Scalar

def ofName? (name : Bytes) : Option Scalar :=
  let names : List (Bytes × Scalar) :=
    [("bool", .bool), ("i32", .signed), ("u32", .unsigned), ("f32", .single), ("f16", .half)]
  (names.find? fun n => n.1 = name).map Prod.snd

/-- Has it values between the integers? -/
def isFloat (s : Scalar) : Bool := s = .single || s = .half

end Scalar

inductive Ty where
  | scalar (s : Scalar)
  | vector (size : Nat) (s : Scalar)
  | matrix (columns rows : Nat) (s : Scalar)
  | atomic (s : Scalar)
  | texture
  | array (element : Ty)
  | struct (members : List (Bytes × Ty))
  | pointer (target : Ty)
  deriving Repr, Inhabited

namespace Ty

def isNumeric : Ty → Bool
  | .scalar _ | .vector _ _ | .matrix _ _ _ => true
  | _ => false

def scalar? : Ty → Option Scalar
  | .scalar s | .vector _ s => some s
  | _ => none

def element? : Ty → Option Ty
  | .vector _ s => some (.scalar s)
  | .matrix _ rows s => some (.vector rows s)
  | .array element => some element
  | _ => none

/-- The type of the part with a name: a member of a struct, the first if none has the name, or an
element. -/
def member? (name : Bytes) : Ty → Option Ty
  | .struct members => ((members.find? fun m => m.1 = name).or members.head?).map Prod.snd
  | t => t.element?

/-- The type of a part, also behind one pointer. -/
def part? (choose : Ty → Option Ty) : Ty → Option Ty
  | .pointer target => (choose target).map .pointer
  | t => choose t

end Ty

/-- The types that are made of others, by what their names say. -/
inductive Compound where
  | vector (size : Nat)
  | matrix (columns rows : Nat)
  | atomic
  | texture
  deriving DecidableEq, Repr

namespace Compound

/-- Does a size lie in the range of vectors and of the sides of matrices? -/
def isSide (size : Nat) : Bool := 2 ≤ size && size ≤ 4

def digit (b : UInt8) : Nat := (b - 0x30).toNat

/-- Is there such a type of these scalars? Matrices have floats only. -/
def admits (s : Scalar) : Compound → Bool
  | .vector size => isSide size
  | .matrix columns rows => isSide columns && isSide rows && s.isFloat
  | _ => true

def of (s : Scalar) : Compound → Ty
  | .vector size => .vector size s
  | .matrix columns rows => .matrix columns rows s
  | .atomic => .atomic s
  | .texture => .texture

end Compound

end Wgsl

end StateBuffer
