import StateBuffer.Text.Bytes

/-!
The value of an integer literal: a sign if any and decimal digits, within 32 bits.
-/

namespace StateBuffer

namespace Literal

/-- The integer written by an optional sign and digits. -/
def integer? : Bytes → Option Int
  | 0x2D :: digits => (Bytes.toNat? digits).map fun n => -(n : Int)
  | 0x2B :: digits => (Bytes.toNat? digits).map fun n => (n : Int)
  | digits => (Bytes.toNat? digits).map fun n => (n : Int)

/-- Does the integer fit into 32 bits with a sign? -/
def fits (i : Int) : Bool := -2147483648 ≤ i && i ≤ 2147483647

/-- The value of a literal that fits into 32 bits. -/
def value? (text : Bytes) : Option Int32 :=
  match integer? text with
  | some i => if fits i then some (Int32.ofInt i) else none
  | none => none

end Literal

end StateBuffer
