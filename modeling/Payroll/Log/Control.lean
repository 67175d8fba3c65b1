import Payroll.Log.Filter
import Payroll.Text.Blank
/-!
The filter in use. It is chosen once, when logging is set up: by a variable if that holds a filter,
which then stays, and else by the settings, which may change it later.
-/

namespace Payroll.Log

/-- Why logging is not set up or the filter not changed. -/
inductive Fault where
  | badFilter (text : String)
  | alreadySetUp
deriving DecidableEq

/-- The filter in use, and whether it stays as it is. -/
structure Control where
  filter : Filter
  pinned : Bool

namespace Control

/-- The filter that a text writes. -/
def filterOf (text : String) : Except Fault Filter :=
  match Filter.ofText? text with
  | some f => .ok f
  | none => .error (.badFilter text)

/-- The filter to start with, by the variable's text and the level in the settings. A blank variable
is none, and so is one that holds no filter. -/
def choose (wanted : Option String) (level : String) : Except Fault Control :=
  match (wanted.filter fun text => !Text.isBlankText text).bind Filter.ofText? with
  | some f => .ok ⟨f, true⟩
  | none => (filterOf level).map (⟨·, false⟩)

/-- Sets logging up, which can be done once. -/
def setUp (running : Option Control) (wanted : Option String) (level : String) :
    Except Fault Control := do
  let c ← choose wanted level
  if running.isSome then throw .alreadySetUp else return c

/-- Changes the filter, unless it is pinned, and says whether it did. -/
def setLevel (c : Control) (level : String) : Except Fault (Bool × Control) :=
  if c.pinned then .ok (false, c)
  else (filterOf level).map fun f => (true, { c with filter := f })

end Control

end Payroll.Log
