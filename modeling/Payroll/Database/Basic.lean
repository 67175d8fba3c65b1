import Payroll.Database.Fault
import Payroll.Record.Data
/-!
A database: the tables of the ledger, each of which may be missing, the log of schema versions, the
indexes and the triggers, and what is left to the engine that keeps it. Tables keep their rows in the
order in which they were inserted. Main statements: a table that has been set is read back, and setting
one leaves the others alone.

Assumed of SQLite, which keeps the tables: it compares names without regard to the case of ASCII letters,
a trigger that refuses a row before it goes in undoes the statement or only stops it, no trigger leaves a
new row out without a word, and of two rows that no sort key tells apart either may come first, always the
same one in the same query.
-/

namespace Payroll

open Sql (Value)

/-- Names are the same if they differ at most in the case of their ASCII letters. -/
def sameName (a b : String) : Bool :=
  a.toList.map Char.toLower == b.toList.map Char.toLower

/-- The tables of the ledger. -/
inductive Table where
  | company
  | contractor
  | job
  | timelog
  | payment
deriving DecidableEq

namespace Table

/-- The table's name. -/
def name : Table → String
  | .company => "company"
  | .contractor => "contractor"
  | .job => "job"
  | .timelog => "timelog"
  | .payment => "payment_line_items"

/-- All tables. -/
def all : List Table :=
  [.company, .contractor, .job, .timelog, .payment]

/-- The table of this name. -/
def ofName? (name : String) : Option Table :=
  all.find? fun t => sameName t.name name

end Table

/-- A row of a table whose rows are changed in place. Its place is the number by which the table
knows it, counted from one; a row that is in no table yet has place zero. Its cells hold texts or
bytes. -/
structure StaticRow where
  place : Nat
  id : String
  cells : List Value

/-- An index. A unique one allows one row for each combination of its columns; one for the latest
rows leaves the others out. -/
structure Index where
  name : String
  table : String
  columns : List String
  unique : Bool
  latestOnly : Bool
deriving DecidableEq

/-- How a trigger refuses a row: it undoes the statement that brings it, or only stops the statement, so
that the rows before it stay. -/
inductive Raise where
  | abort
  | fail
deriving DecidableEq

/-- What a trigger does: it refuses rows before they go in, for what they are and what is in the table by
then; it refuses to retire a version; or it keeps a version from being retired without a word. No trigger
leaves a new row out without a word. -/
inductive Reaction where
  | refuseInserting (condition : String) (refuses : List StaticRow → StaticRow → Bool) (raise : Raise)
      (reason : String)
  | refuseRetiring (reason : String)
  | ignoreRetiring

/-- Refuses rows by their name. -/
def Reaction.refuseNamed (name reason : String) : Reaction :=
  .refuseInserting ("NEW.name = '" ++ name ++ "'")
    (fun _ r => match r.cells.head? with
      | some (.text s) => s == name
      | _ => false)
    .abort reason

/-- A trigger, with the table that it watches. -/
structure Trigger where
  name : String
  table : Table
  reaction : Reaction

/-- A schema version that has been recorded, and what it brought. -/
structure LogEntry where
  version : Int
  description : String
deriving DecidableEq

/-- The log of schema versions: missing, a table of another shape, or the versions recorded. -/
inductive SchemaLog where
  | absent
  | foreign
  | versions (recorded : List LogEntry)
deriving DecidableEq

/-- What is left to the engine: which of two rows of a query comes first where the order that it asks for
leaves this open, which can depend on the indexes and on all that is asked for, and the time that is
written down for a version of the schema. -/
structure Engine where
  precedes : List Index → String → Sql.Refinement → List Value → List Value → Bool
  recordedAt : LogEntry → String

/-- The engine that leaves rows as they stand in their tables, and knows one time only. -/
def Engine.plain : Engine :=
  { precedes := fun _ _ _ _ _ => true, recordedAt := fun _ => "2000-01-01 00:00:00" }

/-- A database. The latest trigger comes first. -/
structure Database where
  companies : Option (List StaticRow)
  contractors : Option (List StaticRow)
  jobs : Option (List (Version Job))
  timelogs : Option (List (Version Timelog))
  payments : Option (List (Version Payment))
  log : SchemaLog
  indexes : List Index
  triggers : List Trigger
  engine : Engine

namespace Database

/-- A database with nothing in it. -/
def empty : Database :=
  { companies := none, contractors := none, jobs := none, timelogs := none, payments := none,
    log := .absent, indexes := [], triggers := [], engine := .plain }

/-- The table is there. -/
def hasTable (d : Database) : Table → Bool
  | .company => d.companies.isSome
  | .contractor => d.contractors.isSome
  | .job => d.jobs.isSome
  | .timelog => d.timelogs.isSome
  | .payment => d.payments.isSome

end Database

/-- A kind of data whose versions have a table. -/
class VersionedTable (α : Type) extends VersionedData α where
  tableId : Table
  /-- The rows of the table, if it is there. -/
  rows? : Database → Option (List (Version α))
  /-- Puts rows into the place of the table's. -/
  setRows : Option (List (Version α)) → Database → Database
  rows?_setRows : ∀ rows d, rows? (setRows rows d) = rows
  setRows_rows? : ∀ d, setRows (rows? d) d = d
  setRows_setRows : ∀ rows rows' d, setRows rows (setRows rows' d) = setRows rows d

instance : VersionedTable Job where
  tableId := .job
  rows? := Database.jobs
  setRows rows d := { d with jobs := rows }
  rows?_setRows _ _ := rfl
  setRows_rows? _ := rfl
  setRows_setRows _ _ _ := rfl

instance : VersionedTable Timelog where
  tableId := .timelog
  rows? := Database.timelogs
  setRows rows d := { d with timelogs := rows }
  rows?_setRows _ _ := rfl
  setRows_rows? _ := rfl
  setRows_setRows _ _ _ := rfl

instance : VersionedTable Payment where
  tableId := .payment
  rows? := Database.payments
  setRows rows d := { d with payments := rows }
  rows?_setRows _ _ := rfl
  setRows_rows? _ := rfl
  setRows_setRows _ _ _ := rfl

/-- A kind of data that is changed in place and has a table. -/
class StaticTable (α : Type) extends StaticData α where
  tableId : Table
  /-- The rows of the table, if it is there. -/
  rows? : Database → Option (List StaticRow)
  /-- Puts rows into the place of the table's. -/
  setRows : Option (List StaticRow) → Database → Database
  rows?_setRows : ∀ rows d, rows? (setRows rows d) = rows
  setRows_rows? : ∀ d, setRows (rows? d) d = d
  setRows_setRows : ∀ rows rows' d, setRows rows (setRows rows' d) = setRows rows d

instance : StaticTable Company where
  tableId := .company
  rows? := Database.companies
  setRows rows d := { d with companies := rows }
  rows?_setRows _ _ := rfl
  setRows_rows? _ := rfl
  setRows_setRows _ _ _ := rfl

instance : StaticTable Contractor where
  tableId := .contractor
  rows? := Database.contractors
  setRows rows d := { d with contractors := rows }
  rows?_setRows _ _ := rfl
  setRows_rows? _ := rfl
  setRows_setRows _ _ _ := rfl

end Payroll
