import Payroll.Json.Basic
import Payroll.Decimal.Layout
/-!
The text of a JSON value: no blanks, the fewest escapes, and floats with the fewest digits that
read back, always with a fraction or an exponent.
-/

namespace Payroll.Json

/-- Floats are positional from `0.00001` up to sixteen digits before the point. -/
def realLayout : Decimal.Layout :=
  { lowest := -5, highest := 15, pointAlways := false, exponentWidth := 1 }

/-- The text of a float. What is no number is null. -/
def realText (x : Float) : List Char :=
  match Decimal.shape x with
  | .nan | .infinite _ => "null".toList
  | .finite b =>
    let digits := if b.mantissa = 0 then ⟨0, 0⟩ else (Decimal.Cell.ofBinary b).shortest
    (if b.negative then ['-'] else []) ++ realLayout.write digits

/-- The text of an integer. -/
def intText (i : Int) : List Char :=
  (if i < 0 then ['-'] else []) ++ Nat.toDigits 10 i.natAbs

/-- The hexadecimal digit of a number below sixteen. -/
def hexDigit (n : Nat) : Char :=
  if n < 10 then Char.ofNat ('0'.toNat + n) else Char.ofNat ('a'.toNat + n - 10)

/-- A character between quotes. -/
def escape (c : Char) : List Char :=
  match c with
  | '"' => ['\\', '"']
  | '\\' => ['\\', '\\']
  | '\x08' => ['\\', 'b']
  | '\x0c' => ['\\', 'f']
  | '\n' => ['\\', 'n']
  | '\r' => ['\\', 'r']
  | '\t' => ['\\', 't']
  | c =>
    if c.toNat < 0x20 then ['\\', 'u', '0', '0', hexDigit (c.toNat / 16), hexDigit (c.toNat % 16)]
    else [c]

/-- A text in quotes. -/
def quote (s : String) : List Char :=
  '"' :: (s.toList.flatMap escape ++ ['"'])

mutual

/-- The characters of a value's text. -/
def chars : Json → List Char
  | .null => "null".toList
  | .bool true => "true".toList
  | .bool false => "false".toList
  | .number (.int i) => intText i
  | .number (.real x) => realText x
  | .string s => quote s
  | .array [] => "[]".toList
  | .array (x :: xs) => '[' :: (chars x ++ itemChars xs)
  | .object [] => ['\x7b', '\x7d']
  | .object ((key, x) :: ms) => '\x7b' :: (quote key ++ ':' :: (chars x ++ memberChars ms))

/-- The characters of the items after the first, and the closing bracket. -/
def itemChars : List Json → List Char
  | [] => [']']
  | x :: xs => ',' :: (chars x ++ itemChars xs)

/-- The characters of the members after the first, and the closing brace. -/
def memberChars : List (String × Json) → List Char
  | [] => ['\x7d']
  | (key, x) :: ms => ',' :: (quote key ++ ':' :: (chars x ++ memberChars ms))

end

/-- The text of a value. -/
def render (j : Json) : String :=
  String.ofList (chars j)

end Payroll.Json
