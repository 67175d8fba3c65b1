import Payroll.Store.Fault
/-!
Steps on one database. A reading leaves the database alone, and a transaction changes it only if it
succeeds.
-/

namespace Payroll

/-- What is read from a database. -/
abbrev Reading (β : Type) := Database → Except StoreFault β

/-- What is done to a database: the outcome, and the database after it. -/
abbrev Step (β : Type) := Database → Except StoreFault β × Database

namespace Step

/-- The step that only reads. -/
def ofReading {β : Type} (f : Reading β) : Step β := fun d =>
  (f d, d)

/-- The step that takes effect if it succeeds, and else leaves no trace. -/
def transaction {β : Type} (f : Database → Except StoreFault (β × Database)) : Step β := fun d =>
  match f d with
  | .ok (b, d') => (.ok b, d')
  | .error fault => (.error fault, d)

/-- The step that brings the database to the present schema. -/
def migrate : Step Nat := fun d =>
  let (outcome, d) := d.migrate
  (outcome.mapError .migration, d)

/-- The version of the schema. -/
def schemaVersion : Reading Nat := fun d =>
  d.schemaVersion.mapError .migration

end Step

end Payroll
