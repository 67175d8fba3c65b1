import Payroll.Decimal.Scaled
import Payroll.Width
/-!
Numbers as JSON writes them, and the number each stands for: an integer of 64 bits where the text
is one, else a float.
-/

namespace Payroll.Json

/-- The value of a number: an integer between `-2 ^ 63` and `2 ^ 64 - 1`, or a float. -/
inductive Number where
  | int (value : Int)
  | real (value : Float)

/-- The parts of a number's text. The fraction and the exponent's digits are empty if the number
has none. -/
structure Numeral where
  negative : Bool
  whole : List Nat
  fraction : List Nat
  exponentNegative : Bool
  exponent : List Nat
deriving DecidableEq

/-- Takes digits into a number for as long as it stays below `2 ^ 64`; gives the number and the
digits left over. -/
def takeDigits (n : Nat) : List Nat → Nat × List Nat
  | [] => (n, [])
  | d :: ds => if n * 10 + d < UInt64.size then takeDigits (n * 10 + d) ds else (n, d :: ds)

/-- The number the digits stand for in base ten. -/
def natOfDigits (ds : List Nat) : Nat :=
  ds.foldl (fun n d => n * 10 + d) 0

namespace Numeral

/-- The power of ten the text names. -/
def exponentValue (n : Numeral) : Int :=
  if n.exponentNegative then -Int.ofNat (natOfDigits n.exponent)
  else Int.ofNat (natOfDigits n.exponent)

/-- The number as a float: as many leading digits as fit into 64 bits, scaled. -/
def realValue (n : Numeral) : Option Float :=
  let (kept, dropped) := takeDigits 0 n.whole
  let (significand, unused) := takeDigits kept n.fraction
  let places := n.fraction.length - unused.length
  let scale := Int.ofNat dropped.length - Int.ofNat places + n.exponentValue
  (Decimal.ofParts significand scale).map fun x => if n.negative then -x else x

/-- The number the text stands for; none if it is beyond the largest float. A negative zero is a
float, and so is every integer that does not fit. -/
def value (n : Numeral) : Option Number :=
  if n.fraction.isEmpty && n.exponent.isEmpty then
    let (size, dropped) := takeDigits 0 n.whole
    if !dropped.isEmpty then n.realValue.map .real
    else if !n.negative then some (.int size)
    else if size = 0 || maxInt64 + 1 < size then n.realValue.map .real
    else some (.int (-Int.ofNat size))
  else n.realValue.map .real

end Numeral

/-- The number as a signed integer of 64 bits. -/
def Number.int64? : Number → Option Int
  | .int i => if FitsInt64 i then some i else none
  | .real _ => none

/-- The number as a float; an integer goes to the nearest one. -/
def Number.toFloat : Number → Float
  | .int i => Float.ofInt i
  | .real x => x

end Payroll.Json
