import Payroll.Http.Media
import Payroll.Http.Route
import Payroll.Store.Cluster
import Payroll.Text.Source
/-!
Calls: a method, a target, headers and a body.
-/

namespace Payroll.Http

/-- A call of the interface. -/
structure Call where
  method : Method
  target : Target
  headers : List (String × String)
  body : Text.Source

/-- A text with its ASCII letters small. -/
def asciiLower (s : String) : String :=
  String.ofList (s.toList.map Char.toLower)

/-- The consistency that the value of a header asks for. -/
def consistencyOf (value : Option String) : Consistency :=
  match value with
  | some v =>
    if v.toList.all isShown && asciiLower (Text.trim v) == "strong" then .strong else .eventual
  | none => .eventual

namespace Call

/-- The value of the first header of a name, which is given in small letters. -/
def header? (c : Call) (name : String) : Option String :=
  (c.headers.find? fun h => asciiLower h.1 == name).map (·.2)

/-- How fresh the caller wants to have what is read. -/
def consistency (c : Call) : Consistency :=
  consistencyOf (c.header? "x-consistency")

end Call

end Payroll.Http
