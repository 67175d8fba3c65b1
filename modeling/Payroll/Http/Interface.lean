import Payroll.Http.Call
import Payroll.Http.Fault
import Payroll.Http.Health
import Payroll.Record.Form
import Payroll.Service.Operations
/-!
The interface: how a call is answered. A call is first taken apart, its path before its query or
body; then the service does the work, and its outcome is written down.
-/

namespace Payroll.Http

/-- What an answer depends on beside the call and the ledger. -/
structure Limits where
  maxBodyBytes : Nat
  uptimeSecs : Nat
deriving DecidableEq

/-- An answer. One without a body has no content type, unless its body was left away. -/
structure Answer where
  status : Nat
  allow : Option String
  contentType : Option String
  requestId : String
  body : Option Json

/-- Work on behalf of a caller. -/
abbrev Work := ExceptT Fault (StateM Ledger)

namespace Work

variable {β : Type}

/-- The service's work on behalf of a caller. -/
def ofService (s : Service β) : Work β :=
  ExceptT.mk fun l =>
    let (outcome, l) := s.perform l
    (outcome.mapError .service, l)

/-- A part of the call, or what is wrong with it. -/
def ofCall (r : Except BadCall β) : Work β :=
  ExceptT.mk (pure (r.mapError .badCall))

end Work

namespace Call

/-- The id that a segment of the path stands for. -/
def id (segment : String) : Except BadCall String :=
  match Text.percentDecoded? segment with
  | some id => .ok id
  | none => .error .target

/-- The value of a key of the query, which may come once. -/
def queryValue? (c : Call) (key : String) : Except BadCall (Option String) :=
  match c.target.query.filter (·.1 == key) with
  | [] => .ok none
  | [(_, value)] => .ok (some value)
  | _ => .error .query

/-- The integer that is the value of a key of the query. -/
def queryInt (c : Call) (key : String) : Except BadCall Int := do
  match (← c.queryValue? key).bind Text.int64? with
  | some i => return i
  | none => throw .query

/-- The request in the body. -/
def request (ρ : Type) [Request ρ] (c : Call) (limits : Limits) : Except BadCall ρ :=
  if !((c.header? "content-type").map isJson).getD false then .error .mediaType
  else if limits.maxBodyBytes < c.body.byteSize then .error .tooLarge
  else match Request.read ρ c.body with
    | .ok r => .ok r
    | .error .malformed => .error .malformed
    | .error .mismatch => .error .mismatch

end Call

/-- The status of jobs that are asked for without one. -/
def extendedStatus : String := "extended"

/-- The versions of a list as JSON. -/
def versionsJson {α : Type} [VersionedData α] (vs : List (Version α)) : Json :=
  .array (vs.map Version.toJson)

/-- Creates the record that a body asks for. -/
def creating {ρ β : Type} [Request ρ] (limits : Limits) (c : Call) (create : ρ → Service β)
    (write : β → Json) : Work (Nat × Json) := do
  let r ← .ofCall (c.request ρ limits)
  let b ← .ofService (create r)
  return (201, write b)

/-- Adds the version that a body asks for to the record of an id. -/
def updating {ρ β : Type} [Request ρ] (limits : Limits) (c : Call) (segment : String)
    (update : String → ρ → Service β) (write : β → Json) : Work (Nat × Json) := do
  let id ← .ofCall (Call.id segment)
  let r ← .ofCall (c.request ρ limits)
  let b ← .ofService (update id r)
  return (200, write b)

/-- Reads what an id asks for. -/
def reading {β : Type} (segment : String) (read : String → Service β) (write : β → Json) :
    Work (Nat × Json) := do
  let id ← .ofCall (Call.id segment)
  let b ← .ofService (read id)
  return (200, write b)

/-- Reads what an id and a period ask for. -/
def readingPeriod {α : Type} [VersionedData α] (c : Call) (segment : String)
    (read : String → Int → Int → Service (List (Version α))) : Work (Nat × Json) := do
  let id ← .ofCall (Call.id segment)
  let start ← .ofCall (c.queryInt "time_start")
  let stop ← .ofCall (c.queryInt "time_end")
  let vs ← .ofService (read id start stop)
  return (200, versionsJson vs)

/-- Reads the jobs with the status that the query asks for. -/
def readingStatus (c : Call) : Work (Nat × Json) := do
  let given ← .ofCall (c.queryValue? "status")
  let status := match given with
    | some s => if Text.isBlankText s then extendedStatus else s
    | none => extendedStatus
  let vs ← .ofService (Service.jobsWithStatus c.consistency status)
  return (200, versionsJson vs)

/-- Says how the server is. -/
def readingHealth (limits : Limits) : Work (Nat × Json) :=
  ExceptT.mk fun l =>
    let (outcome, l) := l.ping
    let database := match outcome with
      | .ok () => true
      | .error _ => false
    let h : Health :=
      { database, replicas := l.cluster.replicas.length, uptimeSecs := limits.uptimeSecs }
    (.ok (200, h.toJson), l)

/-- Does what a call asks of a resource that knows its method: the status and the body of the
answer. -/
def work (limits : Limits) (c : Call) : Resource → Work (Nat × Json)
  | .health => readingHealth limits
  | .companies => creating limits c Service.createCompany StaticData.toJson
  | .company id => reading id (Service.company c.consistency) StaticData.toJson
  | .contractors => creating limits c Service.createContractor StaticData.toJson
  | .contractor id => reading id (Service.contractor c.consistency) StaticData.toJson
  | .timelogsOf id => readingPeriod c id Service.timelogsIn
  | .paymentsOf id => readingPeriod c id Service.paymentsIn
  | .jobs => creating limits c Service.createJob Version.toJson
  | .extendedJobs => readingStatus c
  | .activeJobs id => reading id (Service.activeJobs c.consistency) versionsJson
  | .job id =>
    if c.method = .put then updating limits c id Service.updateJob Version.toJson
    else reading id (Service.job c.consistency) Version.toJson
  | .jobVersions id => reading id (Service.jobVersions c.consistency) versionsJson
  | .timelogs => creating limits c Service.createTimelog Version.toJson
  | .payments => creating limits c Service.createPayment Version.toJson
  | .payment id => updating limits c id Service.updatePayment Version.toJson

/-- The id of a call: the one it brings, or else a new one. -/
def requestId (c : Call) (l : Ledger) : String × Ledger :=
  match c.header? "x-request-id" with
  | some id => (id, l)
  | none =>
    let (id, supply) := l.supply.id
    (id, { l with supply })

/-- Answers a call. -/
def answer (limits : Limits) (c : Call) (l : Ledger) : Answer × Ledger :=
  let (requestId, l) := requestId c l
  let empty (status : Nat) (allow : Option String) : Answer :=
    { status, allow, contentType := none, requestId, body := none }
  let resource := Resource.ofPath? c.target.path
  if c.method = .options then (empty 200 (resource.map Resource.allow), l)
  else match resource with
    | none => (empty 404 none, l)
    | some r =>
      if c.method ∈ r.methods then
        let (outcome, l) := (work limits c r).run l
        let (status, json) := match outcome with
          | .ok found => found
          | .error fault => (fault.status, fault.toJson)
        let body := if c.method = .head then none else some json
        ({ status, allow := none, contentType := some "application/json", requestId, body }, l)
      else (empty 405 (some r.allow), l)

end Payroll.Http
