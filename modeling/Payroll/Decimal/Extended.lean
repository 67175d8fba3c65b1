import Payroll.Decimal.Shortest
/-!
Numbers with sixty-four significant bits, and the way between floats and decimals that goes through
them: by products with a hundredth, a tenth or a first power of ten, each of them rounded. Where more
than one product is taken the result can be off in its last place, so these functions are not the
nearest ones; they are a rule of their own.
-/

namespace Payroll.Decimal

/-- `n / 2 ^ places`, to nearest. A half goes to the even neighbour. -/
def halvedEven (n places : Nat) : Nat :=
  let unit := Nat.pow 2 places
  let rest := n % unit
  if 2 * rest < unit || (2 * rest == unit && n / unit % 2 == 0) then n / unit else n / unit + 1

/-- The number of binary digits of `n`. -/
def bitCount (n : Nat) : Nat :=
  if n = 0 then 0 else n.log2 + 1

/-- The number `mantissa * 2 ^ exponent`. -/
structure Extended where
  mantissa : Nat
  exponent : Int
deriving DecidableEq

namespace Extended

/-- `n * 2 ^ exponent` to sixty-four significant bits. -/
def rounded (n : Nat) (exponent : Int) : Extended :=
  let excess := bitCount n - 64
  ⟨halvedEven n excess, exponent + Int.ofNat excess⟩

/-- The product, rounded. -/
def mul (x y : Extended) : Extended :=
  rounded (x.mantissa * y.mantissa) (x.exponent + y.exponent)

/-- The power of ten, rounded. Below one it is a quotient, of which the bits past the sixty-four
matter only by whether there are any. -/
def tenTo (power : Int) : Extended :=
  let whole := Nat.pow 10 power.natAbs
  if 0 ≤ power then rounded whole 0
  else
    let places := bitCount whole + 66
    let rest := Nat.pow 2 places % whole
    rounded (2 * (Nat.pow 2 places / whole) + (if rest = 0 then 0 else 1))
      (-Int.ofNat (places + 1))

/-- The first number is at most the second. -/
def le (x y : Extended) : Bool :=
  let low := min x.exponent y.exponent
  x.mantissa * Nat.pow 2 (x.exponent - low).toNat ≤ y.mantissa * Nat.pow 2 (y.exponent - low).toNat

/-- The number without its fraction. -/
def floor (x : Extended) : Nat :=
  if 0 ≤ x.exponent then x.mantissa * Nat.pow 2 x.exponent.toNat
  else x.mantissa / Nat.pow 2 x.exponent.natAbs

/-- The greatest float that is a number. -/
def greatest : Extended := ⟨Nat.pow 2 53 - 1, 971⟩

/-- The nearest float, which is infinite for numbers above the greatest. -/
def toFloat (x : Extended) : Float :=
  if !x.le greatest then 1.0 / 0.0
  else
    let place := max (x.exponent + Int.ofNat (bitCount x.mantissa) - 53) (-1074)
    let n :=
      if place ≤ x.exponent then x.mantissa * Nat.pow 2 (x.exponent - place).toNat
      else halvedEven x.mantissa (place - x.exponent).toNat
    Float.ofBits (UInt64.ofNat (n + (place + 1074).toNat * Nat.pow 2 52))

/-- The product with a power of ten, by hundredth powers first, then by tenth powers, then by ten. -/
def scaled (x : Extended) (power : Int) : Extended :=
  let size := power.natAbs
  let step (count part : Nat) (x : Extended) : Extended :=
    Nat.repeat (mul (tenTo (if power < 0 then -Int.ofNat part else Int.ofNat part))) count x
  step (size % 10) 1 (step (size % 100 / 10) 10 (step (size / 100) 100 x))

end Extended

/-- A decimal as it is read: a whole number and a power of ten. -/
structure Significand where
  value : Nat
  power : Int
deriving DecidableEq

namespace Significand

/-- From here on a whole number takes no more digits. -/
def full : Nat := 1844674407370955160

/-- The digits before the point. Those that find no room only count. -/
def ofWhole (digits : List Nat) : Significand :=
  digits.foldl (fun s d =>
    if s.value < full then { s with value := s.value * 10 + d } else { s with power := s.power + 1 })
    ⟨0, 0⟩

/-- Takes in the digits after the point, as far as there is room. -/
def withFraction (s : Significand) (digits : List Nat) : Significand :=
  digits.foldl (fun s d =>
    if s.value < full then ⟨s.value * 10 + d, s.power - 1⟩ else s) s

/-- Moves as much of a power of ten into the whole number as there is room for. -/
def raised (value : Nat) : Nat → Nat × Nat
  | 0 => (value, 0)
  | power + 1 =>
    if value ≤ full then raised (value * 10) power else (value, power + 1)

/-- Moves zeros at the end of the whole number into a power of a tenth. -/
def lowered (value : Nat) : Nat → Nat × Nat
  | 0 => (value, 0)
  | power + 1 => if value % 10 = 0 then lowered (value / 10) power else (value, power + 1)

/-- The decimal with as little as possible left of its power of ten. -/
def balanced (s : Significand) : Significand :=
  if 0 ≤ s.power then
    let (value, power) := raised s.value s.power.toNat
    ⟨value, Int.ofNat power⟩
  else
    let (value, power) := lowered s.value s.power.natAbs
    ⟨value, -Int.ofNat power⟩

/-- The float for the decimal. -/
def toFloat (s : Significand) : Float :=
  if s.value = 0 then 0
  else
    let b := s.balanced
    ((Extended.rounded b.value 0).scaled b.power).toFloat

end Significand

namespace Extended

/-- Multiplies by `10 ^ -part` for as long as the number is not below the limit, and counts the tens
taken off. -/
def lower (limit : Extended) (part : Nat) : Nat → Extended × Int → Extended × Int
  | 0, x => x
  | steps + 1, (x, power) =>
    if limit.le x then
      lower limit part steps (x.mul (tenTo (-Int.ofNat part)), power + Int.ofNat part)
    else (x, power)

/-- Multiplies by `10 ^ part` for as long as the number is below the limit, and counts the tens put
on. -/
def raise (limit : Extended) (part : Nat) : Nat → Extended × Int → Extended × Int
  | 0, x => x
  | steps + 1, (x, power) =>
    if limit.le x then (x, power)
    else raise limit part steps (x.mul (tenTo (Int.ofNat part)), power - Int.ofNat part)

/-- A number of eighteen or nineteen digits and a power of ten, whose product is the number. Sixteen
steps of each kind are enough for any float. -/
def whole (x : Extended) : Nat × Int :=
  let (y, power) :=
    if (tenTo 19).le x then
      lower (tenTo 19) 1 16 (lower (tenTo 29) 10 16 (lower (tenTo 119) 100 16 (x, 0)))
    else
      raise (tenTo 17) 1 16 (raise (tenTo 7) 10 16 (raise (tenTo (-97)) 100 16 (x, 0)))
  (y.floor, power)

/-- The number to `count` significant digits, a half going up. -/
def digits (x : Extended) (count : Nat) : Digits :=
  let (n, power) := x.whole
  let excess := digitCount n - count
  let unit := Nat.pow 10 excess
  ⟨(2 * n + unit) / (2 * unit), power + Int.ofNat excess⟩

end Extended

end Payroll.Decimal
