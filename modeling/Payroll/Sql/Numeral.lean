import Payroll.Decimal.Extended
import Payroll.Decimal.Layout
import Payroll.Text.Integer
/-!
The text of a float in the database, and the number that a text is. A text is a number if nothing but
blanks stands around one; it is an integer if it is written as one and fits sixty-four bits.
-/

namespace Payroll.Sql

open Text (spanDigits takeSign)

/-- Floats turned into text have fifteen significant digits. -/
def realLayout : Decimal.Layout :=
  { lowest := -4, highest := 14, pointAlways := true, exponentWidth := 2 }

/-- The text of a float. -/
def realText (x : Float) : String :=
  match Decimal.shape x with
  | .nan => "NaN"
  | .infinite negative => if negative then "-Inf" else "Inf"
  | .finite b =>
    if b.mantissa = 0 then "0.0"
    else
      let sign := if b.negative then ['-'] else []
      String.ofList (sign ++ realLayout.write ((Decimal.Extended.mk b.mantissa b.exponent).digits 15))

/-- A number as a text writes it. -/
inductive Numeral where
  | int (value : Int)
  | real (value : Float)

namespace Numeral

/-- A blank that may surround a number in text. -/
def isBlank (c : Char) : Bool :=
  c = ' ' || (9 ≤ c.toNat && c.toNat ≤ 13)

/-- The number that the digits of an exponent write. Above ten thousand another digit makes it ten
thousand. -/
def exponentSize (digits : List Nat) : Nat :=
  digits.foldl (fun n d => if n < 10000 then n * 10 + d else 10000) 0

/-- The exponent that is all of the text, if there is one. -/
def exponent? : List Char → Option Int
  | [] => some 0
  | e :: cs =>
    if e = 'e' || e = 'E' then
      let (negative, cs) := takeSign cs
      let (digits, rest) := spanDigits cs
      if digits.isEmpty || !rest.isEmpty then none
      else
        let size := Int.ofNat (exponentSize digits)
        some (if negative then -size else size)
    else none

/-- The number that a text is, blanks around it aside. -/
def ofText? (s : String) : Option Numeral := do
  let cs := ((s.toList.dropWhile isBlank).reverse.dropWhile isBlank).reverse
  let (negative, cs) := takeSign cs
  let (whole, rest) := spanDigits cs
  let (fraction, rest) := match rest with
    | '.' :: cs => spanDigits cs
    | cs => ([], cs)
  let exponent ← exponent? rest
  if whole.isEmpty && fraction.isEmpty then none
  let size := Int.ofNat (whole.foldl (fun n d => n * 10 + d) 0)
  let i := if negative then -size else size
  if whole.length = cs.length ∧ FitsInt64 i then return .int i
  else
    let read := (Decimal.Significand.ofWhole whole).withFraction fraction
    let x := (Decimal.Significand.mk read.value (read.power + exponent)).toFloat
    return .real (if negative then -x else x)

end Numeral

end Payroll.Sql
