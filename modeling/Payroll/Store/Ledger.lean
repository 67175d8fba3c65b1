import Payroll.Store.Cluster
import Payroll.Store.Static
import Payroll.Store.Versioned
import Payroll.Store.Period
/-!
The ledger: a cluster of databases and the supply of ids and times. All writes and all refined
queries run on the primary database; other reads run where their consistency asks for.
-/

namespace Payroll

open Sql (Filter Changes Refinement)

/-- The databases and what is drawn from outside. -/
structure Ledger where
  cluster : Cluster
  supply : Supply

namespace Ledger

variable {α β : Type}

/-- Runs a step on the primary. -/
def onPrimary (l : Ledger) (f : Step β) : Except StoreFault β × Ledger :=
  let (outcome, cluster) := l.cluster.onPrimary f
  (outcome, { l with cluster })

/-- Reads at the site that the consistency asks for. -/
def onRead (l : Ledger) (k : Consistency) (f : Reading β) : Except StoreFault β × Ledger :=
  let (outcome, cluster) := l.cluster.onRead k f
  (outcome, { l with cluster })

/-- Checks that the primary answers. -/
def ping (l : Ledger) : Except StoreFault Unit × Ledger :=
  l.onPrimary (.ofReading fun _ => .ok ())

/-- Brings the primary to the present schema. -/
def migrate (l : Ledger) : Except StoreFault Nat × Ledger :=
  l.onPrimary .migrate

section Versioned

variable [VersionedTable α]

/-- Inserts the first version of a new record. -/
def create (l : Ledger) (a : α) : Except StoreFault (Version α) × Ledger :=
  let (m, supply) := l.supply.firstMeta
  let v : Version α := { m with data := a }
  let (outcome, l) := { l with supply }.onPrimary (Versioned.insert v)
  (outcome.map fun _ => v, l)

/-- Adds a version to a record. -/
def append (l : Ledger) (id : String) (a : α) : Except StoreFault (Version α) × Ledger :=
  let (uid, supply) := l.supply.id
  { l with supply }.onPrimary (Versioned.append id uid a)

/-- The latest version of a record. -/
def latest? (α : Type) [VersionedTable α] (l : Ledger) (k : Consistency) (id : String) :
    Except StoreFault (Option (Version α)) × Ledger :=
  l.onRead k (Versioned.latest? α id)

/-- The version with this id of its own. -/
def ofUid? (α : Type) [VersionedTable α] (l : Ledger) (k : Consistency) (uid : String) :
    Except StoreFault (Option (Version α)) × Ledger :=
  l.onRead k (Versioned.ofUid? α uid)

/-- The latest versions that pass a filter. -/
def latestWhere (α : Type) [VersionedTable α] (l : Ledger) (k : Consistency) (f : Filter) :
    Except StoreFault (List (Version α)) × Ledger :=
  l.onRead k (Versioned.latestWhere α f)

/-- The latest versions of all records. -/
def allLatest (α : Type) [VersionedTable α] (l : Ledger) (k : Consistency) :
    Except StoreFault (List (Version α)) × Ledger :=
  l.latestWhere α k .all

/-- All versions of a record, by number. -/
def history (α : Type) [VersionedTable α] (l : Ledger) (k : Consistency) (id : String) :
    Except StoreFault (List (Version α)) × Ledger :=
  l.onRead k (Versioned.history α id)

/-- The latest versions as a refinement asks for them. -/
def query (α : Type) [VersionedTable α] (l : Ledger) (r : Refinement) :
    Except StoreFault (List (Version α)) × Ledger :=
  l.onPrimary (.ofReading (Versioned.query α r))

end Versioned

/-- The timelogs of a contractor within a period. -/
def timelogsIn (l : Ledger) (contractor : String) (start stop : Int) :
    Except StoreFault (List (Version Timelog)) × Ledger :=
  l.query Timelog (Period.timelogs contractor start stop)

/-- The payment line items of a contractor for timelogs within a period. -/
def paymentsIn (l : Ledger) (contractor : String) (start stop : Int) :
    Except StoreFault (List (Version Payment)) × Ledger :=
  l.query Payment (Period.payments contractor start stop)

section Static

variable [StaticTable α]

/-- Gives every record an id of its own. -/
def withIds : Supply → List α → List α × Supply
  | s, [] => ([], s)
  | s, a :: rest =>
    let (id, s) := s.id
    let (rest, s) := withIds s rest
    (StaticData.withId id a :: rest, s)

/-- Inserts a record under a new id. -/
def add (l : Ledger) (a : α) : Except StoreFault α × Ledger :=
  let (id, supply) := l.supply.id
  let a := StaticData.withId id a
  let (outcome, l) := { l with supply }.onPrimary (Static.insertMany [a])
  (outcome.map fun _ => a, l)

/-- Inserts records under new ids, all of them or none. -/
def addBatch (l : Ledger) (size : Nat) (records : List α) : Except StoreFault (List α) × Ledger :=
  let (records, supply) := withIds l.supply records
  let (outcome, l) := { l with supply }.onPrimary (Static.insertBatch size records)
  (outcome.map fun _ => records, l)

/-- Overwrites the records that pass a filter, ids aside, and counts them. -/
def overwriteWhere (l : Ledger) (f : Filter) (a : α) : Except StoreFault Nat × Ledger :=
  l.onPrimary (Static.overwriteWhere f a)

/-- Changes the records that pass a filter, and counts them. -/
def updateWhere (α : Type) [StaticTable α] (l : Ledger) (f : Filter) (c : Changes) :
    Except StoreFault Nat × Ledger :=
  l.onPrimary (Static.updateWhere α f c)

/-- Deletes a record; true if it was there. -/
def delete (α : Type) [StaticTable α] (l : Ledger) (id : String) :
    Except StoreFault Bool × Ledger :=
  let (outcome, l) := l.onPrimary (Static.delete α id)
  (outcome.map fun n => 0 < n, l)

/-- Deletes the records that pass a filter, and counts them. -/
def deleteWhere (α : Type) [StaticTable α] (l : Ledger) (f : Filter) :
    Except StoreFault Nat × Ledger :=
  l.onPrimary (Static.deleteWhere α f)

/-- The first record that passes a filter. -/
def first? (α : Type) [StaticTable α] (l : Ledger) (k : Consistency) (f : Filter) :
    Except StoreFault (Option α) × Ledger :=
  l.onRead k (Static.first? α f)

/-- All records that pass a filter. -/
def allWhere (α : Type) [StaticTable α] (l : Ledger) (k : Consistency) (f : Filter) :
    Except StoreFault (List α) × Ledger :=
  l.onRead k (Static.allWhere α f)

/-- The record of an id. -/
def get? (α : Type) [StaticTable α] (l : Ledger) (k : Consistency) (id : String) :
    Except StoreFault (Option α) × Ledger :=
  l.first? α k (.one "id" (.text id))

end Static

end Ledger

end Payroll
