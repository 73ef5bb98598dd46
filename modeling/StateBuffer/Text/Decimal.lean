import StateBuffer.Text.Bytes

/-!
Decimal text with a fixed number of places. A quantity is taken to the nearest number with 53
significant bits, a tie going to the even neighbour, and that number is written exactly up to the
last place, where again a tie goes to the even neighbour.
-/

namespace StateBuffer

/-- The nearest integer to a quotient, a tie going to the even one. -/
def roundDiv (n d : Nat) : Nat :=
  let q := n / d
  let r := n % d
  if 2 * r < d ∨ (2 * r = d ∧ q % 2 = 0) then q else q + 1

structure Fraction where
  num : Nat
  den : Nat
  deriving DecidableEq, Repr, Inhabited

namespace Fraction

def ofNat (n : Nat) : Fraction := ⟨n, 1⟩

/-- A quotient times a power of two. -/
def scale (x : Fraction) : Int → Fraction
  | .ofNat k => ⟨x.num * Nat.pow 2 k, x.den⟩
  | .negSucc k => ⟨x.num, x.den * Nat.pow 2 (k + 1)⟩

/-- The greatest power of two, by its exponent, that a positive quotient reaches. -/
def exponent (x : Fraction) : Int :=
  let guess : Int := Nat.log2 x.num - Nat.log2 x.den
  let scaled := x.scale (-guess)
  if scaled.den ≤ scaled.num then guess else guess - 1

/-- How many significant bits a number has. -/
def precision : Nat := 53

/-- The nearest quotient with at most 53 significant bits. -/
def nearest (x : Fraction) : Fraction :=
  if x.num = 0 then ofNat 0
  else
    let shift : Int := (precision - 1 : Nat) - x.exponent
    let scaled := x.scale shift
    (ofNat (roundDiv scaled.num scaled.den)).scale (-shift)

def add (x y : Fraction) : Fraction := nearest ⟨x.num * y.den + y.num * x.den, x.den * y.den⟩

def div (x : Fraction) (n : Nat) : Fraction := nearest ⟨x.num, x.den * n⟩

def mul (x y : Fraction) : Fraction := nearest ⟨x.num * y.num, x.den * y.den⟩

/-- The greatest natural number that is no greater. -/
def floor (x : Fraction) : Nat := x.num / x.den

/-- The text with a number of places. -/
def fixed (places : Nat) (x : Fraction) : Bytes :=
  let scaled := roundDiv (x.num * Nat.pow 10 places) x.den
  let part := Bytes.ofNat (scaled % Nat.pow 10 places)
  Bytes.ofNat (scaled / Nat.pow 10 places) ++ "." ++
    List.replicate (places - part.length) (Bytes.byte '0') ++ part

end Fraction

end StateBuffer
