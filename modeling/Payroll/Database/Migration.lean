import Payroll.Database.Schema
/-!
Migrations bring a database to the present schema. Each is applied once, in the order of their
versions, and either takes effect as a whole and is recorded, or leaves no trace.
-/

namespace Payroll

/-- A statement of a migration. What is there already is left as it is. -/
inductive SchemaStatement where
  | table (table : Table)
  | index (name : String) (table : Table) (columns : List String) (unique latestOnly : Bool)
deriving DecidableEq

/-- Runs a statement of a migration. -/
def SchemaStatement.run (d : Database) : SchemaStatement → Except DatabaseFault Database
  | .table t => d.createTable t
  | .index name t columns unique latestOnly =>
    d.createIndex t { name, table := t.name, columns, unique, latestOnly }

/-- A migration to a version of the schema. -/
structure Migration where
  version : Nat
  description : String
  statements : List SchemaStatement
deriving DecidableEq

/-- All migrations, by version. -/
def migrations : List Migration :=
  [{ version := 1
     description := "company, contractor, job, timelog and payment_line_items tables"
     statements :=
      [.table .company,
       .table .contractor,
       .table .job,
       .index "idx_job_latest" .job ["id"] false true,
       .index "idx_job_latest_status" .job ["status"] false true,
       .index "idx_job_latest_contractor" .job ["contractor_id", "status"] false true,
       .table .timelog,
       .index "idx_timelog_latest" .timelog ["id"] false true,
       .index "idx_timelog_job_uid" .timelog ["job_uid"] false false,
       .table .payment,
       .index "idx_payment_line_items_latest" .payment ["id"] false true,
       .index "idx_payment_line_items_job_uid" .payment ["job_uid"] false false,
       .index "idx_payment_line_items_timelog_uid" .payment ["timelog_uid"] false false] },
   { version := 2
     description := "unique (id, version) per versioned table"
     statements :=
      [.index "idx_job_id_version" .job ["id", "version"] true false,
       .index "idx_timelog_id_version" .timelog ["id", "version"] true false,
       .index "idx_payment_line_items_id_version" .payment ["id", "version"] true false] }]

/-- Why a database is not brought to the present schema. -/
inductive MigrationFault where
  | noLog (cause : DatabaseFault)
  | unreadableLog (cause : DatabaseFault)
  | failed (version : Nat) (description : String) (cause : DatabaseFault)
  | unrecorded (version : Nat) (cause : DatabaseFault)
  | other (reason : String)
deriving DecidableEq

/-- The fault in words. -/
def MigrationFault.message : MigrationFault → String
  | .noLog cause => "cannot create schema_version: " ++ cause.message
  | .unreadableLog cause => "cannot read schema_version: " ++ cause.message
  | .failed version description cause =>
    "v" ++ toString version ++ " (" ++ description ++ "): " ++ cause.message
  | .unrecorded version cause => "v" ++ toString version ++ ": cannot record: " ++ cause.message
  | .other reason => reason

/-- The greatest of the versions, or zero. -/
def greatest : List Int → Int
  | [] => 0
  | v :: vs => vs.foldl max v

namespace Database

/-- The version of the schema, which has to fit 32 bits. -/
def schemaVersion (d : Database) : Except MigrationFault Nat :=
  match d.recorded with
  | .error cause => .error (.unreadableLog cause)
  | .ok vs =>
    let v := greatest vs
    if 0 ≤ v ∧ v < UInt32.size then .ok v.toNat else .error (.unreadableLog (.outOfRange v))

/-- Applies a migration as a whole. -/
def apply (d : Database) (m : Migration) : Except MigrationFault Database :=
  match m.statements.foldlM SchemaStatement.run d with
  | .error cause => .error (.failed m.version m.description cause)
  | .ok d =>
    match d.record ⟨m.version, m.description⟩ with
    | .error cause => .error (.unrecorded m.version cause)
    | .ok d => .ok d

/-- Applies migrations up to the first that fails, and counts them. -/
def applyAll : Database → List Migration → Except MigrationFault Nat × Database
  | d, [] => (.ok 0, d)
  | d, m :: ms =>
    match d.apply m with
    | .error fault => (.error fault, d)
    | .ok d =>
      let (outcome, d) := d.applyAll ms
      (outcome.map (· + 1), d)

/-- Brings a database to the present schema, and counts the migrations this took. -/
def migrate (d : Database) : Except MigrationFault Nat × Database :=
  match d.createLog with
  | .error cause => (.error (.noLog cause), d)
  | .ok d =>
    match d.schemaVersion with
    | .error fault => (.error fault, d)
    | .ok current => d.applyAll (migrations.filter (current < ·.version))

/-- An empty database with the present schema, with what is left to an engine. -/
def freshOn (engine : Engine) : Database :=
  ({ empty with engine } : Database).migrate.2

/-- An empty database with the present schema. -/
def fresh : Database :=
  freshOn .plain

end Database

end Payroll
