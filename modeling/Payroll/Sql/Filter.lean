import Payroll.Sql.Name
import Payroll.Sql.Value
/-!
Filters, which pick rows by the values of columns, and changes, which give columns new values.
Both check their columns against a list before they touch a table, and both have a text in which
every value is a placeholder. Main statements: what passes the check names none but columns of the
list, and changes that pass it are not empty.
-/

namespace Payroll.Sql

/-- Why a filter or a change is refused. -/
inductive FilterFault where
  | unknownColumn (name : String)
  | fixedColumn (name : String)
  | noColumns
  | unfiltered (table : String)
  | other (reason : String)
deriving DecidableEq

/-- The fault in words. -/
def FilterFault.message : FilterFault → String
  | .unknownColumn name => "unknown filter column: " ++ name
  | .fixedColumn name => "column cannot be updated: " ++ name
  | .noColumns => "no columns to update"
  | .unfiltered table => "refusing to modify every row of " ++ table ++ " without a filter"
  | .other reason => reason

/-- No column that is not allowed is found if all of them are. -/
theorem find?_strange_eq_none {terms : List (String × Value)} {allowed : List String} :
    (terms.find? fun t => !allowed.contains t.1) = none ↔ ∀ t ∈ terms, t.1 ∈ allowed := by
  simp [List.find?_eq_none]

/-- Columns that must have given values, all of them. A null asks for null. -/
structure Filter where
  terms : List (String × Value)

namespace Filter

/-- Every row passes. -/
def all : Filter := ⟨[]⟩

/-- The rows with this value in this column. -/
def one (column : String) (value : Value) : Filter := ⟨[(column, value)]⟩

/-- Refuses the first column that is not among the allowed ones. -/
def validate (f : Filter) (allowed : List String) : Except FilterFault Unit :=
  match f.terms.find? fun t => !allowed.contains t.1 with
  | some (name, _) => .error (.unknownColumn name)
  | none => .ok ()

theorem validate_eq_ok_iff {f : Filter} {allowed : List String} :
    f.validate allowed = .ok () ↔ ∀ t ∈ f.terms, t.1 ∈ allowed := by
  rw [validate, ← find?_strange_eq_none]
  cases f.terms.find? fun t => !allowed.contains t.1 with
  | none => simp
  | some t => simp

/-- The conditions in words of SQL. -/
def conditions (f : Filter) (table : String) : List String :=
  f.terms.map fun (column, value) =>
    if value.isNull then qualified table column ++ " IS NULL"
    else qualified table column ++ " = ?"

/-- The values for the placeholders of the conditions, in order. -/
def params (f : Filter) : List Value :=
  (f.terms.map (·.2)).filter fun v => !v.isNull

end Filter

/-- Columns and the values they are to get. -/
structure Changes where
  terms : List (String × Value)

namespace Changes

/-- Refuses an empty list of changes and the first column that is not among the allowed ones. -/
def validate (c : Changes) (allowed : List String) : Except FilterFault Unit :=
  if c.terms.isEmpty then .error .noColumns
  else match c.terms.find? fun t => !allowed.contains t.1 with
    | some (name, _) => .error (.fixedColumn name)
    | none => .ok ()

theorem validate_eq_ok_iff {c : Changes} {allowed : List String} :
    c.validate allowed = .ok () ↔ c.terms ≠ [] ∧ ∀ t ∈ c.terms, t.1 ∈ allowed := by
  rw [validate, ← find?_strange_eq_none, ← List.isEmpty_eq_false_iff]
  cases c.terms.isEmpty with
  | true => simp
  | false => cases c.terms.find? fun t => !allowed.contains t.1 <;> simp

/-- The assignments in words of SQL. -/
def assignments (c : Changes) : List String :=
  c.terms.map fun (column, _) => quoted column ++ " = ?"

/-- The values for the placeholders of the assignments, in order. -/
def params (c : Changes) : List Value :=
  c.terms.map (·.2)

/-- The value a column is to get, the last one if there are several. -/
def value? (c : Changes) (column : String) : Option Value :=
  c.terms.reverse.lookup column

end Changes

end Payroll.Sql
