import Payroll.Json.Basic
/-!
Merging one JSON value over another. Objects merge key by key and anything else is replaced as a
whole; a null member of the value on top leaves what is below it.
-/

namespace Payroll.Json

/-- The value is null. -/
def isNull : Json → Bool
  | .null => true
  | _ => false

mutual

/-- The value on top merged over the value below. -/
def merge (below : Json) : Json → Json
  | .object top =>
    match below with
    | .object ms => .object (mergeMembers ms top)
    | _ => .object top
  | top => top

/-- The members on top, merged one after the other over the members below. -/
def mergeMembers (below : Members) : List (String × Json) → Members
  | [] => below
  | (key, value) :: top =>
    let merged := match below.get? key with
      | some old => merge old value
      | none => value
    mergeMembers (if value.isNull then below else below.put key merged) top

end

end Payroll.Json
