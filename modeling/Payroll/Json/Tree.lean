import Payroll.Json.Basic
import Payroll.Json.Token
/-!
The tree of a JSON text: brackets, commas and colons are matched up and the leaves are still
tokens. A text may have a tree and yet no value, for a number beyond every float, a text without
content or too many levels. A value that is passed over needs only its tree.
-/

namespace Payroll.Json

open Payroll.Text (Source)

/-- A value whose leaves are tokens. A key without content has none. -/
inductive Tree where
  | leaf (token : Token)
  | array (items : List Tree)
  | object (members : List (Option String × Tree))

mutual

/-- The tree at the front of the tokens, and the rest. The first argument bounds the steps. -/
def tree? : Nat → List Token → Option (Tree × List Token)
  | 0, _ => none
  | _ + 1, [] => none
  | fuel + 1, t :: rest =>
    match t with
    | .null | .bool _ | .number _ | .text _ => some (.leaf t, rest)
    | .openArray =>
      match rest with
      | .closeArray :: r => some (.array [], r)
      | _ => (items? fuel rest).map fun (xs, r) => (.array xs, r)
    | .openObject =>
      match rest with
      | .closeObject :: r => some (.object [], r)
      | _ => (members? fuel rest).map fun (ms, r) => (.object ms, r)
    | _ => none

/-- The items up to the bracket that closes their array, of which there is at least one. -/
def items? : Nat → List Token → Option (List Tree × List Token)
  | 0, _ => none
  | fuel + 1, ts =>
    match tree? fuel ts with
    | some (x, .closeArray :: r) => some ([x], r)
    | some (x, .comma :: r) => (items? fuel r).map fun (xs, r) => (x :: xs, r)
    | _ => none

/-- The members up to the brace that closes their object, of which there is at least one. -/
def members? : Nat → List Token → Option (List (Option String × Tree) × List Token)
  | 0, _ => none
  | fuel + 1, ts =>
    match ts with
    | .text key :: .colon :: r =>
      match tree? fuel r with
      | some (x, .closeObject :: r) => some ([(key, x)], r)
      | some (x, .comma :: r) => (members? fuel r).map fun (ms, r) => ((key, x) :: ms, r)
      | _ => none
    | _ => none

end

/-- The tree at the front of the tokens, and the rest. A token opens at most one level and starts
at most one item, so twice their number of steps is enough. -/
def frontTree? (ts : List Token) : Option (Tree × List Token) :=
  tree? (2 * ts.length + 1) ts

/-- The value of a token that is a value by itself. -/
def Token.value? : Token → Option Json
  | .null => some .null
  | .bool b => some (.bool b)
  | .number n => n.value.map .number
  | .text s => s.map .string
  | _ => none

mutual

/-- The value of a tree of at most `depth` levels. -/
def Tree.value? (depth : Nat) : Tree → Option Json
  | .leaf t => t.value?
  | .array xs => if depth = 0 then none else (itemValues? (depth - 1) xs).map .array
  | .object ms =>
    if depth = 0 then none
    else (memberValues? (depth - 1) ms).map fun pairs => .object (Members.ofList pairs)

/-- The values of the items. -/
def itemValues? (depth : Nat) : List Tree → Option (List Json)
  | [] => some []
  | x :: xs => do
    let v ← x.value? depth
    let vs ← itemValues? depth xs
    return v :: vs

/-- The members, each key with its value. -/
def memberValues? (depth : Nat) : List (Option String × Tree) → Option (List (String × Json))
  | [] => some []
  | (key, x) :: ms => do
    let key ← key
    let v ← x.value? depth
    let vs ← memberValues? depth ms
    return (key, v) :: vs

end

/-- An array has the values of its items, if a level is left for them. -/
theorem Tree.value?_array_eq_some_iff {depth : Nat} {xs : List Tree} {j : Json} :
    (Tree.array xs).value? depth = some j ↔
      depth ≠ 0 ∧ ∃ vs, itemValues? (depth - 1) xs = some vs ∧ Json.array vs = j := by
  rw [Tree.value?]
  by_cases h : depth = 0
  · simp [h]
  · simp [h, Option.map_eq_some_iff]

/-- An object has the values of its members, if a level is left for them. -/
theorem Tree.value?_object_eq_some_iff {depth : Nat} {ms : List (Option String × Tree)} {j : Json} :
    (Tree.object ms).value? depth = some j ↔
      depth ≠ 0 ∧ ∃ vs, memberValues? (depth - 1) ms = some vs ∧
        Json.object (Members.ofList vs) = j := by
  rw [Tree.value?]
  by_cases h : depth = 0
  · simp [h]
  · simp [h, Option.map_eq_some_iff]

/-- The most levels that a value may nest. -/
def maxDepth : Nat := 127

/-- The value a text writes. -/
def parse? (s : Source) : Option Json :=
  match frontTree? (tokens s) with
  | some (x, []) => x.value? maxDepth
  | _ => none

end Payroll.Json
