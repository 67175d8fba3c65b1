import Payroll.Record.Data
/-!
Rows that are read by the names of their columns. A statement that inserts a version binds a value for
each column, and the version is read back from the row by name.
-/

namespace Payroll

open Sql (Value)

/-- A row, whose values are found by the names of their columns. -/
structure NamedRow where
  value? : String → Option Value

namespace NamedRow

/-- The row with these values under these names. -/
def ofPairs (pairs : List (String × Value)) : NamedRow :=
  ⟨fun name => pairs.lookup name⟩

/-- The text under a name. -/
def text? (r : NamedRow) (name : String) : Option String :=
  match r.value? name with
  | some (.text s) => some s
  | _ => none

/-- The integer under a name. -/
def int? (r : NamedRow) (name : String) : Option Int :=
  match r.value? name with
  | some (.int i) => some i
  | _ => none

/-- The float under a name. -/
def real? (r : NamedRow) (name : String) : Option Float :=
  match r.value? name with
  | some (.real x) => some x
  | _ => none

/-- The flag under a name, which is an integer. -/
def flag? (r : NamedRow) (name : String) : Option Bool :=
  (r.int? name).map (· != 0)

end NamedRow

/-- The meta data in a row. -/
def Meta.ofRow? (r : NamedRow) : Option Meta := do
  let id ← r.text? "id"
  let version ← r.int? "version"
  let uid ← r.text? "uid"
  let isLatest ← r.flag? "is_latest"
  return { id, version, uid, isLatest }

/-- A kind of data that is read from a row by name. -/
class NamedData (α : Type) where
  /-- The data in a row. -/
  ofRow? : NamedRow → Option α

instance : NamedData Job where
  ofRow? r := do
    let status ← r.text? "status"
    let rate ← r.real? "rate"
    let title ← r.text? "title"
    let companyId ← r.text? "company_id"
    let contractorId ← r.text? "contractor_id"
    return { status, rate, title, companyId, contractorId }

instance : NamedData Timelog where
  ofRow? r := do
    let duration ← r.int? "duration"
    let timeStart ← r.int? "time_start"
    let timeEnd ← r.int? "time_end"
    let type ← r.text? "type"
    let jobUid ← r.text? "job_uid"
    return { duration, timeStart, timeEnd, type, jobUid }

instance : NamedData Payment where
  ofRow? r := do
    let jobUid ← r.text? "job_uid"
    let timelogUid ← r.text? "timelog_uid"
    let amount ← r.real? "amount"
    let status ← r.text? "status"
    return { jobUid, timelogUid, amount, status }

/-- The value as a column keeps it: a zero among floats has no sign. -/
def Column.kept (c : Column) : Value → Value
  | .real x => if c.affinity = .real then .real (storedReal x) else .real x
  | v => v

namespace Version

/-- The values that a statement binds to insert a version, each with its column. -/
def bindings {α : Type} [VersionedData α] (v : Version α) : List (Column × Value) :=
  [(⟨"id", .text⟩, .text v.id), (⟨"version", .integer⟩, .int v.version), (⟨"uid", .text⟩, .text v.uid),
    (⟨"is_latest", .integer⟩, .int (if v.isLatest then 1 else 0))] ++
    (VersionedData.columns α).zip (VersionedData.cells v.data)

/-- The row that a statement makes of the values that it binds. -/
def namedRow {α : Type} [VersionedData α] (v : Version α) : NamedRow :=
  .ofPairs (v.bindings.map fun (column, value) => (column.name, column.kept value))

/-- The version in a row. -/
def ofRow? (α : Type) [NamedData α] (r : NamedRow) : Option (Version α) := do
  let m ← Meta.ofRow? r
  let data ← NamedData.ofRow? r
  return { m with data }

end Version

end Payroll
