/-!
A finite float as the exact number it is: a sign and `mantissa * 2 ^ exponent`. Everything that
turns floats into decimal text or compares them with integers goes through this view, in exact
arithmetic.
-/

namespace Payroll.Decimal

/-- The number `mantissa * 2 ^ exponent`, negated if `negative`. -/
structure Binary where
  negative : Bool
  mantissa : Nat
  exponent : Int
deriving DecidableEq

/-- What a float holds. -/
inductive Shape where
  | nan
  | infinite (negative : Bool)
  | finite (value : Binary)
deriving DecidableEq

/-- The parts of a double: one sign bit, eleven exponent bits, fifty-two bits of mantissa. -/
def shapeOfBits (bits : Nat) : Shape :=
  let negative := bits / Nat.pow 2 63 == 1
  let exponent := bits / Nat.pow 2 52 % Nat.pow 2 11
  let fraction := bits % Nat.pow 2 52
  if exponent = 2047 then
    if fraction = 0 then .infinite negative else .nan
  else if exponent = 0 then .finite ⟨negative, fraction, -1074⟩
  else .finite ⟨negative, fraction + Nat.pow 2 52, Int.ofNat exponent - 1075⟩

/-- What the float holds. -/
def shape (x : Float) : Shape :=
  shapeOfBits x.toBits.toNat

/-- The number scaled by a power of two, as an integer, once `scale + exponent` is not negative. -/
def Binary.scaled (b : Binary) (scale : Nat) : Int :=
  let size := Int.ofNat (b.mantissa * Nat.pow 2 (Int.ofNat scale + b.exponent).toNat)
  if b.negative then -size else size

/-- Orders an integer against a float that is a number, without rounding either. -/
def compareInt (i : Int) (x : Float) : Ordering :=
  match shape x with
  | .nan => .gt
  | .infinite negative => if negative then .gt else .lt
  | .finite b => compare (i * Nat.pow 2 b.exponent.natAbs) (b.scaled b.exponent.natAbs)

end Payroll.Decimal
