import Payroll.Http.Interface
import Payroll.Json.Printer
import Payroll.Program.Run
/-!
Calls and answers as lines of text. A line with a call is an object with its method, target, headers
and body, and the time at which it is made; the answer is an object too. A line that is no call is
answered by null.
-/

namespace Payroll

/-- The hexadecimal digits of the number's last places. -/
def hexPlaces : Nat → Nat → List Char
  | 0, _ => []
  | places + 1, n => hexPlaces places (n / 16) ++ [Json.hexDigit (n % 16)]

/-- Ids that begin with the digits of a seed and end with their own number, all made at one time. -/
def Supply.seeded (seed : Nat) (time : String) (drawn : Nat) : Supply :=
  { ids := fun n => String.ofList (hexPlaces 16 seed ++ '-' :: hexPlaces 16 n)
    times := fun _ => time
    drawn }

namespace Http

/-- The headers in an object. -/
def headersOf : Json → List (String × String)
  | .object ms => ms.filterMap fun (name, value) => value.string?.map (name, ·)
  | _ => []

/-- The call in an object. Without a body its body is empty. -/
def Call.ofJson? (j : Json) : Option Call := do
  let method ← (j.get? "method").bind Json.string?
  let target ← (j.get? "target").bind Json.string?
  let headers := ((j.get? "headers").map headersOf).getD []
  let body := ((j.get? "body").bind Json.string?).getD ""
  return { method := .ofName method, target := .ofString target, headers, body := .ofString body }

/-- The answer as an object. -/
def Answer.toJson (a : Answer) : Json :=
  let text (s : Option String) : Json := (s.map Json.string).getD .null
  .object [("status", .int a.status), ("allow", text a.allow),
    ("content_type", text a.contentType), ("request_id", .string a.requestId),
    ("body", a.body.getD .null)]

end Http

namespace Program

/-- A server whose calls come as lines. -/
structure Exchange where
  limits : Http.Limits
  seed : Nat
  ledger : Ledger

namespace Exchange

/-- The time of a call that does not say when it is made. -/
def epoch : String := "1970-01-01T00:00:00.000Z"

/-- The exchange of a running program. -/
def ofRunning (r : Running) (seed : Nat) : Exchange :=
  { limits := { maxBodyBytes := r.config.maxBodyBytes, uptimeSecs := 0 }
    seed
    ledger := { cluster := r.cluster, supply := .seeded seed epoch 0 } }

/-- Answers a line. -/
def answer (e : Exchange) (line : String) : String × Exchange :=
  match Json.parse? (.ofString line) with
  | none => (Json.render .null, e)
  | some j =>
    match Http.Call.ofJson? j with
    | none => (Json.render .null, e)
    | some call =>
      let time := ((j.get? "time").bind Json.string?).getD epoch
      let supply := Supply.seeded e.seed time e.ledger.supply.drawn
      let (a, ledger) := Http.answer e.limits call { e.ledger with supply }
      (Json.render a.toJson, { e with ledger })

end Exchange

end Program

end Payroll
