import Payroll.Json.Numeral
/-!
JSON values. The members of an object keep the order in which their keys first came, and a key that
comes again replaces the value it had. Main statements: what the members hold under a key after one
of them has been put there.
-/

namespace Payroll

open Json (Number)

/-- A JSON value. -/
inductive Json where
  | null
  | bool (value : Bool)
  | number (value : Number)
  | string (value : String)
  | array (items : List Json)
  | object (members : List (String × Json))

namespace Json

/-- An integer as a JSON value. -/
def int (i : Int) : Json :=
  .number (.int i)

/-- A float as a JSON value. -/
def real (x : Float) : Json :=
  .number (.real x)

/-- The members of an object. -/
abbrev Members := List (String × Json)

/-- The value under a key. -/
def Members.get? (ms : Members) (key : String) : Option Json :=
  List.lookup key ms

/-- Puts a value under a key, in the key's place or else at the end. -/
def Members.put (key : String) (value : Json) : Members → Members
  | [] => [(key, value)]
  | (k, v) :: ms => if k = key then (k, value) :: ms else (k, v) :: Members.put key value ms

/-- The members that a list of pairs gives, later pairs winning. -/
def Members.ofList (pairs : List (String × Json)) : Members :=
  pairs.foldl (fun ms (key, value) => Members.put key value ms) []

namespace Members

@[simp] theorem get?_nil (key : String) : get? [] key = none := rfl

theorem get?_cons (key k : String) (v : Json) (ms : Members) :
    get? ((k, v) :: ms) key = if key = k then some v else get? ms key := by
  by_cases h : key = k
  · simp [get?, h]
  · simp [get?, h, List.lookup_cons, beq_eq_false_iff_ne.mpr h]

/-- A key holds what was put there last. -/
@[simp] theorem get?_put_self (key : String) (v : Json) (ms : Members) :
    get? (put key v ms) key = some v := by
  induction ms with
  | nil => simp [put, get?_cons]
  | cons m ms ih =>
    obtain ⟨k, old⟩ := m
    by_cases h : k = key
    · simp [put, h, get?_cons]
    · simp [put, h, get?_cons, Ne.symm h, ih]

/-- Other keys are not touched. -/
theorem get?_put_of_ne {key other : String} (v : Json) (ms : Members) (h : other ≠ key) :
    get? (put key v ms) other = get? ms other := by
  induction ms with
  | nil => simp [put, get?_cons, h]
  | cons m ms ih =>
    obtain ⟨k, old⟩ := m
    by_cases hk : k = key
    · simp [put, hk, get?_cons, h]
    · simp [put, hk, get?_cons, ih]

end Members

/-- The value under a key of an object. -/
def get? (j : Json) (key : String) : Option Json :=
  match j with
  | .object ms => Members.get? ms key
  | _ => none

/-- The string, if the value is one. -/
def string? : Json → Option String
  | .string s => some s
  | _ => none

/-- The truth value, if the value is one. -/
def bool? : Json → Option Bool
  | .bool b => some b
  | _ => none

/-- The integer, if the value is one. -/
def int? : Json → Option Int
  | .number (.int i) => some i
  | _ => none

/-- The items, if the value is an array. -/
def array? : Json → Option (List Json)
  | .array xs => some xs
  | _ => none

end Json

end Payroll
