import Payroll.Json.Flat
import Payroll.Record.Meta
import Payroll.Sql.Value
/-!
Records of the ledger. Jobs, timelogs and payment line items are kept in versions; companies and
contractors are changed in place. Each kind says what its table and columns are called and how its
data becomes a row of values.
-/

namespace Payroll

open Sql (Value Affinity)

/-- A column of a table. -/
structure Column where
  name : String
  affinity : Affinity
deriving DecidableEq

/-- The kind of field in which a column's value is written as JSON. -/
def Column.kind (c : Column) : Json.Kind :=
  match c.affinity with
  | .integer => .int
  | .real => .real
  | _ => .text

/-- A kind of data that is kept in versions. -/
class VersionedData (α : Type) where
  table : String
  columns : List Column
  /-- The values of the columns, in their order. -/
  cells : α → List Value
  /-- The data with these values. -/
  ofCells? : List Value → Option α
  /-- The data as it is read back once it is stored. -/
  stored : α → α

/-- A kind of data that is changed in place. All its columns hold text. -/
class StaticData (α : Type) where
  table : String
  /-- The columns beside the id. -/
  columns : List String
  id : α → String
  withId : String → α → α
  /-- The texts of the columns, in their order. -/
  texts : α → List String
  /-- The data with this id and these texts. -/
  ofTexts? : String → List String → Option α

/-- A float as a value; what is not a number is null. -/
def realCell (x : Float) : Value :=
  (Value.real x).bound

/-- A float as it is read back: zero has no sign. -/
def storedReal (x : Float) : Float :=
  if x == 0 then 0 else x

/-- A piece of work that a contractor does for a company. -/
structure Job where
  status : String
  rate : Float
  title : String
  companyId : String
  contractorId : String
deriving BEq

instance : VersionedData Job where
  table := "job"
  columns := [⟨"status", .text⟩, ⟨"rate", .real⟩, ⟨"title", .text⟩, ⟨"company_id", .text⟩,
    ⟨"contractor_id", .text⟩]
  cells j := [.text j.status, realCell j.rate, .text j.title, .text j.companyId,
    .text j.contractorId]
  ofCells?
    | [.text status, .real rate, .text title, .text companyId, .text contractorId] =>
      some { status, rate, title, companyId, contractorId }
    | _ => none
  stored j := { j with rate := storedReal j.rate }

/-- A stretch of time worked on one version of a job. Times are in milliseconds. -/
structure Timelog where
  duration : Int
  timeStart : Int
  timeEnd : Int
  type : String
  jobUid : String
deriving DecidableEq

instance : VersionedData Timelog where
  table := "timelog"
  columns := [⟨"duration", .integer⟩, ⟨"time_start", .integer⟩, ⟨"time_end", .integer⟩,
    ⟨"type", .text⟩, ⟨"job_uid", .text⟩]
  cells t := [.int t.duration, .int t.timeStart, .int t.timeEnd, .text t.type, .text t.jobUid]
  ofCells?
    | [.int duration, .int timeStart, .int timeEnd, .text type, .text jobUid] =>
      some { duration, timeStart, timeEnd, type, jobUid }
    | _ => none
  stored t := t

/-- What is owed for one version of a timelog. -/
structure Payment where
  jobUid : String
  timelogUid : String
  amount : Float
  status : String
deriving BEq

instance : VersionedData Payment where
  table := "payment_line_items"
  columns := [⟨"job_uid", .text⟩, ⟨"timelog_uid", .text⟩, ⟨"amount", .real⟩, ⟨"status", .text⟩]
  cells p := [.text p.jobUid, .text p.timelogUid, realCell p.amount, .text p.status]
  ofCells?
    | [.text jobUid, .text timelogUid, .real amount, .text status] =>
      some { jobUid, timelogUid, amount, status }
    | _ => none
  stored p := { p with amount := storedReal p.amount }

/-- A company that has work done. -/
structure Company where
  id : String
  name : String
  createdAt : String
  updatedAt : String
deriving DecidableEq

instance : StaticData Company where
  table := "company"
  columns := ["name", "created_at", "updated_at"]
  id := Company.id
  withId id c := { c with id }
  texts c := [c.name, c.createdAt, c.updatedAt]
  ofTexts?
    | id, [name, createdAt, updatedAt] => some { id, name, createdAt, updatedAt }
    | _, _ => none

/-- A person who does the work. -/
structure Contractor where
  id : String
  name : String
  email : String
  phone : String
  createdAt : String
  updatedAt : String
deriving DecidableEq

instance : StaticData Contractor where
  table := "contractor"
  columns := ["name", "email", "phone", "created_at", "updated_at"]
  id := Contractor.id
  withId id c := { c with id }
  texts c := [c.name, c.email, c.phone, c.createdAt, c.updatedAt]
  ofTexts?
    | id, [name, email, phone, createdAt, updatedAt] =>
      some { id, name, email, phone, createdAt, updatedAt }
    | _, _ => none

end Payroll
