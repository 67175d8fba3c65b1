import Payroll.Text.Integer
/-!
The levels of what is logged. Each takes in the ones before it.
-/

namespace Payroll.Log

/-- How much is logged; each level takes in the ones before it. -/
inductive Level where
  | off
  | error
  | warn
  | info
  | debug
  | trace
deriving DecidableEq

namespace Level

/-- The level's name. -/
def name : Level → String
  | .off => "off"
  | .error => "error"
  | .warn => "warn"
  | .info => "info"
  | .debug => "debug"
  | .trace => "trace"

/-- The level's place in their order. -/
def rank : Level → Nat
  | .off => 0
  | .error => 1
  | .warn => 2
  | .info => 3
  | .debug => 4
  | .trace => 5

/-- The level of a rank. -/
def ofRank? : Nat → Option Level
  | 0 => some .off
  | 1 => some .error
  | 2 => some .warn
  | 3 => some .info
  | 4 => some .debug
  | 5 => some .trace
  | _ => none

/-- The level of a name. -/
def ofName? : String → Option Level
  | "off" => some .off
  | "error" => some .error
  | "warn" => some .warn
  | "info" => some .info
  | "debug" => some .debug
  | "trace" => some .trace
  | _ => none

/-- The level that a text writes, by its name in any case or by its rank. -/
def ofText? (s : String) : Option Level :=
  match Text.nat64? s with
  | some rank => ofRank? rank
  | none => ofName? (s.map Char.toLower)

@[simp] theorem ofRank?_rank (l : Level) : ofRank? l.rank = some l := by
  cases l <;> rfl

@[simp] theorem ofName?_name (l : Level) : ofName? l.name = some l := by
  cases l <;> rfl

end Level

end Payroll.Log
