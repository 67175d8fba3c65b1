import Payroll.Decimal.Layout
import Payroll.Text.Integer
/-!
Floats in plain notation: the fewest digits that read back, never with an exponent, and a point only
if a digit stands behind it. What is read may have an exponent, and may be a word for what is no
finite number.
-/

namespace Payroll.Decimal

/-- The number `digits * 10 ^ exponent` without an exponent. -/
def Digits.plain (n : Digits) : List Char :=
  let all := digitsOf n.digits
  if 0 ≤ n.exponent then all ++ List.replicate n.exponent.toNat '0'
  else
    let count := Int.ofNat all.length + n.exponent
    let whole := if count ≤ 0 then ['0'] else all.take count.toNat
    let fraction := List.replicate (-count).toNat '0' ++ all.drop count.toNat
    match (fraction.reverse.dropWhile (· == '0')).reverse with
    | [] => whole
    | rest => whole ++ '.' :: rest

/-- The text of a float. -/
def plainText (x : Float) : String :=
  match shape x with
  | .nan => "NaN"
  | .infinite negative => if negative then "-inf" else "inf"
  | .finite b =>
    let size := if b.mantissa = 0 then ['0'] else (Cell.ofBinary b).shortest.plain
    String.ofList (if b.negative then '-' :: size else size)

/-- The float nearest to `significand * 10 ^ exponent`. -/
def nearestFloat (significand : Nat) (exponent : Int) : Float :=
  let size := Int.ofNat (digitCount significand) + exponent
  if significand = 0 || size < -400 then 0
  else if 400 < size then 1.0 / 0.0
  else Float.ofScientific significand (exponent < 0) exponent.natAbs

/-- The exponent that is all of the text; it is zero if the text is empty. -/
def exponentOf? : List Char → Option Int
  | [] => some 0
  | e :: cs =>
    if e = 'e' || e = 'E' then
      let (negative, cs) := Text.takeSign cs
      (Text.digits? cs).map fun n => if negative then -Int.ofNat n else Int.ofNat n
    else none

/-- The float that a text without a sign is. -/
def unsignedFloat? (cs : List Char) : Option Float :=
  let word := String.ofList (cs.map Char.toLower)
  if word = "nan" then some (0.0 / 0.0)
  else if word = "inf" || word = "infinity" then some (1.0 / 0.0)
  else
    let (whole, rest) := Text.spanDigits cs
    let (fraction, rest) := match rest with
      | '.' :: cs => Text.spanDigits cs
      | cs => ([], cs)
    if whole.isEmpty && fraction.isEmpty then none
    else (exponentOf? rest).map fun exponent =>
      nearestFloat ((whole ++ fraction).foldl (fun n d => n * 10 + d) 0)
        (exponent - Int.ofNat fraction.length)

/-- The float that a text is. -/
def floatOfText? (s : String) : Option Float :=
  let (negative, cs) := Text.takeSign s.toList
  (unsignedFloat? cs).map fun x => if negative then -x else x

end Payroll.Decimal
