import Payroll.Json.Basic
/-!
What the server says of its health: it is well as long as the primary database answers.
-/

namespace Payroll.Http

/-- The health of a server. -/
structure Health where
  database : Bool
  replicas : Nat
  uptimeSecs : Nat
deriving DecidableEq

/-- The health in one word. -/
def Health.status (h : Health) : String :=
  if h.database then "ok" else "degraded"

/-- The health as JSON. -/
def Health.toJson (h : Health) : Json :=
  .object [("status", .string h.status), ("uptime_secs", .int h.uptimeSecs),
    ("database", .bool h.database), ("replicas", .int h.replicas)]

end Payroll.Http
