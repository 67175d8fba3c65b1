import Payroll.Database.Limits
import Payroll.Database.Row
/-!
Statements on the tables that keep versions. A row goes in exactly as given, if its values are
there, its version is at least one and its keys are new; after that only its claim to be the latest
can be withdrawn.
-/

namespace Payroll.Database

open Sql (Value Filter)

variable {α : Type} [VersionedTable α]

/-- The rows of a table of versions. -/
def versions (α : Type) [VersionedTable α] (d : Database) :
    Except DatabaseFault (List (Version α)) :=
  match VersionedTable.rows? d with
  | some rows => .ok rows
  | none => .error (.noTable (VersionedData.table α))

/-- The first column whose value is null. -/
def nullColumn? (columns : List Column) (cells : List Value) : Option String :=
  ((columns.zip cells).find? fun (_, v) => v.isNull).map fun (c, _) => c.name

/-- The table allows one row for each pair of id and version. -/
def uniqueVersions (d : Database) (table : String) : Bool :=
  d.indexes.any fun i => i.unique && i.table == table

/-- What keeps a version out of the table, if anything does. -/
def obstacle? (d : Database) (rows : List (Version α)) (v : Version α) : Option DatabaseFault :=
  let table := VersionedData.table α
  match nullColumn? (VersionedData.columns α) (VersionedData.cells v.data) with
  | some column => some (.isNull table column)
  | none =>
    if v.version < 1 then some .versionBelowOne
    else if d.uniqueVersions table && rows.any (fun r => r.id == v.id && r.version == v.version) then
      some (.notUnique table ["id", "version"])
    else if rows.any (·.uid == v.uid) then some (.notUnique table ["uid"])
    else none

/-- Inserts a version. -/
def insert (d : Database) (v : Version α) : Except DatabaseFault Database := do
  let rows ← versions α d
  match obstacle? d rows v with
  | some fault => throw fault
  | none => return VersionedTable.setRows (some (rows ++ [v.stored])) d

/-- The first row of the id that is its latest. -/
def latest? (α : Type) [VersionedTable α] (d : Database) (id : String) :
    Except DatabaseFault (Option (Version α)) := do
  let rows ← versions α d
  return rows.find? fun r => r.id == id && r.isLatest

/-- The row of the uid. -/
def ofUid? (α : Type) [VersionedTable α] (d : Database) (uid : String) :
    Except DatabaseFault (Option (Version α)) := do
  let rows ← versions α d
  return rows.find? (·.uid == uid)

/-- All versions of an id, by number. -/
def history (α : Type) [VersionedTable α] (d : Database) (id : String) :
    Except DatabaseFault (List (Version α)) := do
  let rows ← versions α d
  return (rows.filter (·.id == id)).mergeSort fun a b => a.version ≤ b.version

/-- The latest versions that pass the filter. That they are the latest is asked for by one more term. -/
def latestWhere (α : Type) [VersionedTable α] (d : Database) (f : Filter) :
    Except DatabaseFault (List (Version α)) := do
  let _ ← depthAfter 0 (.term 0 :: f.parts)
  let rows ← versions α d
  return rows.filter fun r => r.isLatest && f.holds (versionColumns α) r.values

/-- The number of rows of an id, and of those that claim to be the latest. -/
def countVersions (α : Type) [VersionedTable α] (d : Database) (id : String) :
    Except DatabaseFault (Nat × Nat) := do
  let rows ← versions α d
  let rows := rows.filter (·.id == id)
  return (rows.length, (rows.filter (·.isLatest)).length)

/-- What triggers say against retiring a row of the table, if one decides about it: a reason, or
nothing at all. The latest trigger decides. -/
def retiringObjection? (d : Database) (table : Table) : Option (Option String) :=
  d.triggers.findSome? fun t =>
    if t.table = table then
      match t.reaction with
      | .refuseRetiring reason => some (some reason)
      | .ignoreRetiring => some none
      | .refuseInserting .. => none
    else none

/-- Withdraws the claim of a row to be the latest, and counts the rows changed. -/
def retire (α : Type) [VersionedTable α] (d : Database) (uid : String) :
    Except DatabaseFault (Nat × Database) := do
  let rows ← versions α d
  let claims (r : Version α) := r.uid == uid && r.isLatest
  let count := (rows.filter claims).length
  if count = 0 then return (0, d)
  match d.retiringObjection? (VersionedTable.tableId α) with
  | some (some reason) => throw (.refused reason)
  | some none => return (0, d)
  | none =>
    let rows := rows.map fun r => if claims r then r.retired else r
    return (count, VersionedTable.setRows (some rows) d)

end Payroll.Database
