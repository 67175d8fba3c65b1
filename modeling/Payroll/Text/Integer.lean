import Payroll.Width
import Payroll.Text.Blank
/-!
Integers written in decimal: an optional sign and digits, and nothing else. Other numbers are read by
the same pieces.
-/

namespace Payroll.Text

/-- The number that digits write, one digit at least. -/
def digits? (cs : List Char) : Option Nat :=
  if cs.isEmpty || !cs.all Char.isDigit then none
  else some (cs.foldl (fun n c => n * 10 + (c.toNat - '0'.toNat)) 0)

/-- The number without a sign of its own; a plus may stand before it. It has to fit 64 bits. -/
def nat64? (s : String) : Option Nat := do
  let n ← match s.toList with
    | '+' :: cs => digits? cs
    | cs => digits? cs
  if n < UInt64.size then return n else none

/-- The integer, which has to fit 64 bits with a sign. -/
def int64? (s : String) : Option Int := do
  let i ← match s.toList with
    | '+' :: cs => (digits? cs).map Int.ofNat
    | '-' :: cs => (digits? cs).map fun n => -Int.ofNat n
    | cs => (digits? cs).map Int.ofNat
  if FitsInt64 i then return i else none

/-- The digits at the front, as numbers, and the rest. -/
def spanDigits (cs : List Char) : List Nat × List Char :=
  ((cs.takeWhile Char.isDigit).map fun c => c.toNat - '0'.toNat, cs.dropWhile Char.isDigit)

/-- An optional sign at the front, and the rest; true if the sign is a minus. -/
def takeSign : List Char → Bool × List Char
  | '-' :: cs => (true, cs)
  | '+' :: cs => (false, cs)
  | cs => (false, cs)

/-- The value of a hexadecimal digit. -/
def hexDigit? (c : Char) : Option Nat :=
  if '0' ≤ c && c ≤ '9' then some (c.toNat - '0'.toNat)
  else if 'a' ≤ c && c ≤ 'f' then some (c.toNat - 'a'.toNat + 10)
  else if 'A' ≤ c && c ≤ 'F' then some (c.toNat - 'A'.toNat + 10)
  else none

end Payroll.Text
