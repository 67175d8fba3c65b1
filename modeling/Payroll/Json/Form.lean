import Payroll.Json.Basic
/-!
Types whose values have a JSON form. Main statement: each value is read back from its own form, a
law that every such type brings along. An integer is read only where its type has room for it, and
a number with a fraction or an exponent is none.
-/

namespace Payroll

/-- A type whose values are written as JSON and read back. -/
class JsonForm (α : Type) where
  toJson : α → Json
  ofJson? : Json → Option α
  ofJson?_toJson (a : α) : ofJson? (toJson a) = some a

attribute [simp] JsonForm.ofJson?_toJson

namespace JsonForm

/-- The value of a fixed width, made by `wrap`, whose number the JSON value is. What does not fit
is changed by wrapping, and so is no value. -/
def word? {ω : Type} (wrap : Int → ω) (number : ω → Int) (j : Json) : Option ω := do
  let i ← j.int?
  if number (wrap i) = i then return wrap i else none

theorem word?_int {ω : Type} {wrap : Int → ω} {number : ω → Int}
    (h : ∀ w, wrap (number w) = w) (w : ω) : word? wrap number (.int (number w)) = some w := by
  simp [word?, Json.int?, Json.int, h]

instance : JsonForm Bool where
  toJson := .bool
  ofJson? := Json.bool?
  ofJson?_toJson _ := rfl

instance : JsonForm String where
  toJson := .string
  ofJson? := Json.string?
  ofJson?_toJson _ := rfl

instance : JsonForm UInt16 where
  toJson n := .int n.toNat
  ofJson? := word? (fun i => .ofNat i.toNat) (fun n => n.toNat)
  ofJson?_toJson := word?_int fun n => by simp

instance : JsonForm UInt32 where
  toJson n := .int n.toNat
  ofJson? := word? (fun i => .ofNat i.toNat) (fun n => n.toNat)
  ofJson?_toJson := word?_int fun n => by simp

instance : JsonForm UInt64 where
  toJson n := .int n.toNat
  ofJson? := word? (fun i => .ofNat i.toNat) (fun n => n.toNat)
  ofJson?_toJson := word?_int fun n => by simp

instance : JsonForm Int64 where
  toJson i := .int i.toInt
  ofJson? := word? .ofInt Int64.toInt
  ofJson?_toJson := word?_int fun i => by simp

variable {α : Type} [JsonForm α]

/-- The items of an array, each of which has to be in form. -/
def items? : List Json → Option (List α)
  | [] => some []
  | j :: js => do
    let a ← ofJson? j
    let as ← items? js
    return a :: as

theorem items?_map_toJson (as : List α) : items? (as.map toJson) = some as := by
  induction as with
  | nil => rfl
  | cons a as ih => simp [items?, ih]

instance : JsonForm (List α) where
  toJson as := .array (as.map toJson)
  ofJson? j := j.array?.bind items?
  ofJson?_toJson as := by simp [Json.array?, items?_map_toJson]

end JsonForm

end Payroll
