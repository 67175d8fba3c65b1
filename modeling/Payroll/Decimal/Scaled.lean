/-!
Reading a decimal as a float from a whole number and a power of ten, by at most a few float
operations. Results are exact where the whole number and the power are, and may differ from the
nearest float in the last place elsewhere.
-/

namespace Payroll.Decimal

/-- The float nearest to `10 ^ n`. -/
def powerOfTen (n : Nat) : Float :=
  Float.ofScientific 1 false n

/-- Divides by powers of ten the table has, the largest first, until the exponent is used up or
nothing is left. -/
def scaleDown (x : Float) (exponent : Nat) : Float :=
  if exponent ≤ 308 then x / powerOfTen exponent
  else if x == 0 then x
  else scaleDown (x / powerOfTen 308) (exponent - 308)
termination_by exponent

/-- The float for `significand * 10 ^ exponent`; none if it is too large. -/
def ofParts (significand : Nat) (exponent : Int) : Option Float :=
  let x := (UInt64.ofNat significand).toFloat
  if exponent < 0 then some (scaleDown x exponent.natAbs)
  else if 308 < exponent then
    if x == 0 then some x else none
  else
    let y := x * powerOfTen exponent.toNat
    if y.isInf then none else some y

end Payroll.Decimal
