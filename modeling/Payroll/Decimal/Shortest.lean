import Payroll.Decimal.Binary
/-!
Decimal digits for a positive float: the fewest that round back to it. The search goes through the
decimal grids around the exact value with natural numbers only.
-/

namespace Payroll.Decimal

/-- The positive reals that round to one float: from `low / den` to `high / den`, around the float
itself at `mid / den`, with the ends included if `closed`. -/
structure Cell where
  low : Nat
  mid : Nat
  high : Nat
  den : Nat
  closed : Bool
deriving DecidableEq

/-- The cell of `mantissa * 2 ^ exponent`. The gap below a power of two is half the gap above it,
and an even mantissa wins both ties. -/
def Cell.ofBinary (b : Binary) : Cell :=
  let below := if b.mantissa = Nat.pow 2 52 ∧ b.exponent ≠ -1074 then 1 else 2
  let up := Nat.pow 2 (b.exponent - 2).toNat
  { low := (4 * b.mantissa - below) * up
    mid := 4 * b.mantissa * up
    high := (4 * b.mantissa + 2) * up
    den := Nat.pow 2 (2 - b.exponent).toNat
    closed := b.mantissa % 2 = 0 }

/-- The number of decimal digits of `n`. -/
def digitCount (n : Nat) : Nat :=
  (Nat.toDigits 10 n).length

/-- The decimal exponent of the first digit of `num / den`, which is positive. -/
def leadingExponent (num den : Nat) : Int :=
  if den ≤ num then Int.ofNat (digitCount (num / den)) - 1
  else -Int.ofNat (digitCount ((den - 1) / num))

/-- The factors that bring the cell to the grid of multiples of `10 ^ grid`: a numerator times the
first is to be compared with a multiple times the second. -/
def Cell.gridFactors (c : Cell) (grid : Int) : Nat × Nat :=
  (Nat.pow 10 (-grid).toNat, c.den * Nat.pow 10 grid.toNat)

/-- The multiple `n` of the grid lies in the cell. -/
def Cell.holds (c : Cell) (grid : Int) (n : Nat) : Bool :=
  let (up, unit) := c.gridFactors grid
  if c.closed then c.low * up ≤ n * unit && n * unit ≤ c.high * up
  else c.low * up < n * unit && n * unit < c.high * up

/-- Of the two multiples of the grid next to the float, the nearer one that lies in the cell. A tie
goes to the even multiple. -/
def Cell.nearest? (c : Cell) (grid : Int) : Option Nat :=
  let (up, unit) := c.gridFactors grid
  let n := c.mid * up / unit
  let rest := c.mid * up % unit
  let downFirst := 2 * rest < unit || (2 * rest == unit && n % 2 == 0)
  let (first, second) := if downFirst then (n, n + 1) else (n + 1, n)
  if c.holds grid first then some first
  else if c.holds grid second then some second
  else none

/-- The number `digits * 10 ^ exponent`. -/
structure Digits where
  digits : Nat
  exponent : Int
deriving DecidableEq

/-- The fewest digits that lie in the cell: the coarsest decimal grid with a hit. Seventeen digits
always suffice. -/
def Cell.shortest (c : Cell) : Digits :=
  let first := leadingExponent c.mid c.den
  let hit := (List.range 18).findSome? fun k =>
    let grid := first - Int.ofNat k
    (c.nearest? grid).map fun n => Digits.mk n grid
  hit.getD ⟨0, 0⟩

end Payroll.Decimal
