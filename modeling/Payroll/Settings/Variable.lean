import Payroll.Settings.Basic
import Payroll.Settings.Fault
import Payroll.Text.Integer
import Payroll.Text.Lowercase
import Payroll.Text.Split
/-!
Values written as the text of a variable. Blanks around a text do not count, and neither does the
case of a word.
-/

namespace Payroll

open Text (trim lowercase)

/-- The environment a text names. -/
def Environment.ofText (s : String) : Except BadSetting Environment :=
  let word := lowercase (trim s)
  match ofName? word with
  | some e => .ok e
  | none => .error (.environment word)

/-- The format a text names. Text is also called pretty. -/
def LogFormat.ofText? (s : String) : Option LogFormat :=
  match lowercase (trim s) with
  | "pretty" => some .text
  | word => ofName? word

namespace Settings.Variable

/-- The truth value a text names. -/
def flag? (s : String) : Option Bool :=
  match lowercase (trim s) with
  | "true" | "1" | "yes" | "on" => some true
  | "false" | "0" | "no" | "off" => some false
  | _ => none

/-- The number a text writes, from `least` to `most`. -/
def natWithin? (least most : Nat) (s : String) : Option Nat := do
  let n ← Text.nat64? (trim s)
  if least ≤ n ∧ n ≤ most then return n else none

/-- The items of a text, which commas separate. Empty ones are left away. -/
def items (s : String) : List String :=
  ((Text.splitAll ',' s.toList).map fun piece => trim (String.ofList piece)).filter (· != "")

end Settings.Variable

end Payroll
