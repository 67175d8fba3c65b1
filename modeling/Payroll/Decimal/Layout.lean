import Payroll.Decimal.Shortest
/-!
How the digits of a number are laid out as text: which numbers are written in positional notation,
and how an exponent is written.
-/

namespace Payroll.Decimal

/-- The choices of a number format. A number whose first digit has a decimal exponent between
`lowest` and `highest` is written positionally, with at least one digit after the point. -/
structure Layout where
  lowest : Int
  highest : Int
  /-- In scientific notation a lone digit is followed by a point and a zero. -/
  pointAlways : Bool
  /-- The least number of digits of an exponent. -/
  exponentWidth : Nat

/-- The digits of `n` in base ten. -/
def digitsOf (n : Nat) : List Char :=
  Nat.toDigits 10 n

/-- The digits without the zeros that end them; a lone zero stays. -/
def dropFinalZeros (cs : List Char) : List Char :=
  match (cs.reverse.dropWhile (· == '0')).reverse with
  | [] => ['0']
  | rest => rest

/-- Digits with `count` of them before the point. -/
def positional (digits : List Char) (count : Int) : List Char :=
  if count ≤ 0 then
    '0' :: '.' :: (List.replicate (-count).toNat '0' ++ digits)
  else
    let whole := digits.take count.toNat
    let fraction := digits.drop count.toNat
    whole ++ List.replicate (count.toNat - whole.length) '0' ++ '.' ::
      (if fraction.isEmpty then ['0'] else fraction)

/-- The digits, the first of which stands for a multiple of `10 ^ first`, in scientific notation. -/
def Layout.scientific (l : Layout) (digits : List Char) (first : Int) : List Char :=
  let fraction := match digits.drop 1 with
    | [] => if l.pointAlways then ['.', '0'] else []
    | rest => '.' :: rest
  let size := digitsOf first.natAbs
  digits.take 1 ++ fraction ++ 'e' :: (if first < 0 then '-' else '+') ::
    (List.replicate (l.exponentWidth - size.length) '0' ++ size)

/-- The text of the number `digits * 10 ^ exponent`. -/
def Layout.write (l : Layout) (n : Digits) : List Char :=
  let all := digitsOf n.digits
  let first := Int.ofNat all.length - 1 + n.exponent
  let digits := dropFinalZeros all
  if l.lowest ≤ first && first ≤ l.highest then positional digits (first + 1)
  else l.scientific digits first

end Payroll.Decimal
