import Payroll.Sql.Numeral
/-!
Values of the database and their order: null stands apart, numbers come before texts and texts
before bytes. A column's affinity turns numbers into text, or text that looks like a number into
one, before a value is stored or compared.
-/

namespace Payroll.Sql

/-- A value of the database. -/
inductive Value where
  | null
  | int (value : Int)
  | real (value : Float)
  | text (value : String)
  | blob (bytes : List UInt8)

/-- What a column does to the values put into it. -/
inductive Affinity where
  | none
  | text
  | integer
  | real
deriving DecidableEq

namespace Value

/-- The value that is not a number is bound as null. -/
def bound : Value → Value
  | .real x => if x.isNaN then .null else .real x
  | v => v

/-- The value is null. -/
def isNull : Value → Bool
  | .null => true
  | _ => false

end Value

namespace Value

/-- A number as text; other values as they are. -/
def asText : Value → Value
  | .int i => .text (toString i)
  | .real x => .text (realText x)
  | v => v

/-- A text that is a number as that number; other values as they are. -/
def asNumber : Value → Value
  | .text s =>
    match Numeral.ofText? s with
    | some (.int i) => .int i
    | some (.real x) => .real x
    | none => .text s
  | v => v

/-- The value is a text. -/
def isText : Value → Bool
  | .text _ => true
  | _ => false

/-- The order of byte strings. -/
def compareBytes : List UInt8 → List UInt8 → Ordering
  | [], [] => .eq
  | [], _ :: _ => .lt
  | _ :: _, [] => .gt
  | a :: as, b :: bs => if a < b then .lt else if b < a then .gt else compareBytes as bs

/-- The order of texts, by code points. -/
def compareText (a b : String) : Ordering :=
  if a < b then .lt else if a = b then .eq else .gt

/-- The order of floats that are numbers. -/
def compareReal (x y : Float) : Ordering :=
  if x < y then .lt else if x == y then .eq else .gt

/-- The order of all values: nulls, numbers, texts, bytes. -/
def order : Value → Value → Ordering
  | .null, .null => .eq
  | .null, _ => .lt
  | _, .null => .gt
  | .int a, .int b => compare a b
  | .int a, .real b => Decimal.compareInt a b
  | .real a, .int b => (Decimal.compareInt b a).swap
  | .real a, .real b => compareReal a b
  | .int _, _ | .real _, _ => .lt
  | _, .int _ | _, .real _ => .gt
  | .text a, .text b => compareText a b
  | .text _, .blob _ => .lt
  | .blob _, .text _ => .gt
  | .blob a, .blob b => compareBytes a b

end Value

/-- The affinity under which two operands are compared. Between columns a numeric one wins and
texts are left alone; against a plain value the column's affinity decides. -/
def comparisonAffinity : Affinity → Affinity → Affinity
  | .none, a => a
  | a, .none => a
  | .text, .text => .none
  | .text, a => a
  | a, _ => a

/-- The order of two values under an affinity; none if either is null. -/
def compareUnder (a : Affinity) (x y : Value) : Option Ordering :=
  if x.isNull || y.isNull then none
  else match a with
    | .none => some (x.order y)
    | .text => if x.isText || y.isText then some (x.asText.order y.asText) else some (x.order y)
    | .integer | .real => some (x.asNumber.order y.asNumber)

end Payroll.Sql
