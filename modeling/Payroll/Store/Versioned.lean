import Payroll.Store.Step
import Payroll.Database.Query
/-!
The chains of versions in one database. A new version copies the id of the latest one, takes the
next number and an id of its own, and retires the one before it, all in one transaction.
-/

namespace Payroll.Versioned

open Sql (Filter Refinement)

variable {α : Type} [VersionedTable α]

/-- The columns that a filter may name. -/
def filterable (α : Type) [VersionedData α] : List String :=
  ["id", "version", "uid"] ++ (VersionedData.columns α).map (·.name)

/-- Inserts a version as it is given. -/
def insert (v : Version α) : Step Unit :=
  .transaction fun d => do
    let d ← StoreFault.ofDatabase (d.insert v)
    return ((), d)

/-- The latest version of an id. -/
def latest? (α : Type) [VersionedTable α] (id : String) : Reading (Option (Version α)) := fun d =>
  StoreFault.ofDatabase (d.latest? α id)

/-- The version with this id of its own. -/
def ofUid? (α : Type) [VersionedTable α] (uid : String) : Reading (Option (Version α)) := fun d =>
  StoreFault.ofDatabase (d.ofUid? α uid)

/-- All versions of an id, by number. -/
def history (α : Type) [VersionedTable α] (id : String) : Reading (List (Version α)) := fun d =>
  StoreFault.ofDatabase (d.history α id)

/-- The latest versions that pass a filter. -/
def latestWhere (α : Type) [VersionedTable α] (f : Filter) : Reading (List (Version α)) := fun d => do
  StoreFault.ofFilter (f.validate (filterable α))
  StoreFault.ofDatabase (d.latestWhere α f)

/-- The latest versions as a refinement asks for them. -/
def query (α : Type) [VersionedTable α] (r : Refinement) : Reading (List (Version α)) := fun d =>
  StoreFault.ofDatabase (d.query α r)

/-- Withdraws a version's claim to be the latest, and counts the rows changed. -/
def retire (α : Type) [VersionedTable α] (uid : String) : Step Nat :=
  .transaction fun d => StoreFault.ofDatabase (d.retire α uid)

/-- Inserts a version that follows the latest one of its id. That its key is taken means that
another one came first. -/
def insertNext (d : Database) (v : Version α) : Except StoreFault Database :=
  match d.insert v with
  | .ok d => .ok d
  | .error cause =>
    if cause.isDuplicate then .error (.conflict (VersionedData.table α) v.id (.taken cause))
    else .error (.database cause)

/-- Adds a version with the given data after the latest one of an id. -/
def append (id uid : String) (a : α) : Step (Version α) :=
  .transaction fun d => do
    let table := VersionedData.table α
    match ← latest? α id d with
    | none => throw (.notFound table id)
    | some current =>
      let next : Version α := { current.toMeta.successor uid with data := a }
      let d ← insertNext d next
      let (retired, d) ← StoreFault.ofDatabase (d.retire α current.uid)
      if retired ≠ 1 then throw (.conflict table id (.superseded current.version))
      return (next, d)

end Payroll.Versioned
