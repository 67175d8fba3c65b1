import Payroll.Database.Migration
/-!
The catalog of a database: its tables, indexes and triggers with the statements that make them. Every
table of the ledger brings an index of its own, made without a statement, for its primary key.
-/

namespace Payroll

/-- The kinds of entries of a catalog. -/
inductive CatalogKind where
  | table
  | index
  | trigger
deriving DecidableEq

/-- The word for the kind. -/
def CatalogKind.name : CatalogKind → String
  | .table => "table"
  | .index => "index"
  | .trigger => "trigger"

/-- An entry of a catalog. Only what is made without a statement has none. -/
structure CatalogEntry where
  kind : CatalogKind
  name : String
  table : String
  statement : Option String
deriving DecidableEq

/-- How a column is declared: its name, its type and what holds of its values. -/
structure Declaration where
  name : String
  type : String
  constraint : String
deriving DecidableEq

namespace Declaration

/-- The text with blanks up to a width. -/
def padded (width : Nat) (s : String) : String :=
  s ++ String.ofList (List.replicate (width - s.length) ' ')

/-- The statement that makes a table of declared columns. Each has a line of its own, and types and
constraints stand below each other, `gap` blanks after the longest name. -/
def statement (table : String) (indent gap : Nat) (ds : List Declaration) : String :=
  let width (f : Declaration → String) := ds.foldl (fun n d => max n (f d).length) 0
  let line (d : Declaration) := padded indent "" ++ padded (width name + gap) d.name ++
    padded (width type + 1) d.type ++ d.constraint
  "CREATE TABLE " ++ table ++ " (\n" ++ ",\n".intercalate (ds.map line) ++ "\n" ++
    padded (indent - 2) "" ++ ")"

/-- The name of a column's type. -/
def typeName : Sql.Affinity → String
  | .integer => "INTEGER"
  | .real => "REAL"
  | _ => "TEXT"

/-- A column that is never null. -/
def present (c : Column) : Declaration :=
  ⟨c.name, typeName c.affinity, "NOT NULL"⟩

/-- The columns of a table of versions. -/
def ofVersions (α : Type) [VersionedData α] : List Declaration :=
  [⟨"uid", "TEXT", "PRIMARY KEY"⟩,
   ⟨"id", "TEXT", "NOT NULL"⟩,
   ⟨"version", "INTEGER", "NOT NULL CHECK (version >= 1)"⟩,
   ⟨"is_latest", "INTEGER", "NOT NULL CHECK (is_latest IN (0, 1))"⟩] ++
    (VersionedData.columns α).map present

/-- The columns of a table that is changed in place. -/
def ofStatics (α : Type) [StaticData α] : List Declaration :=
  ⟨"id", "TEXT", "PRIMARY KEY"⟩ :: (StaticData.columns α).map fun c => present ⟨c, .text⟩

end Declaration

/-- The columns of a table of the ledger. -/
def Table.declarations : Table → List Declaration
  | .company => Declaration.ofStatics Company
  | .contractor => Declaration.ofStatics Contractor
  | .job => Declaration.ofVersions Job
  | .timelog => Declaration.ofVersions Timelog
  | .payment => Declaration.ofVersions Payment

/-- The columns of the log of schema versions. -/
def logDeclarations : List Declaration :=
  [⟨"version", "INTEGER", "PRIMARY KEY"⟩,
   ⟨"applied_at", "TEXT", "NOT NULL"⟩,
   ⟨"description", "TEXT", "NOT NULL"⟩]

/-- The statement that makes an index. -/
def Index.statement (i : Index) : String :=
  "CREATE " ++ (if i.unique then "UNIQUE " else "") ++ "INDEX " ++ i.name ++ "\n  ON " ++ i.table ++
    "(" ++ ", ".intercalate i.columns ++ ")" ++ if i.latestOnly then " WHERE is_latest = 1" else ""

/-- The word for how a trigger refuses a row. -/
def Raise.name : Raise → String
  | .abort => "ABORT"
  | .fail => "FAIL"

/-- The statement that makes a trigger. -/
def Trigger.statement (t : Trigger) : String :=
  "CREATE TRIGGER " ++ t.name ++ match t.reaction with
    | .refuseInserting condition _ raise reason =>
      " BEFORE INSERT ON " ++ t.table.name ++ " WHEN " ++ condition ++ " BEGIN SELECT RAISE(" ++
        raise.name ++ ", '" ++ reason ++ "'); END"
    | .refuseRetiring reason =>
      " BEFORE UPDATE OF is_latest ON " ++ t.table.name ++ " BEGIN SELECT RAISE(ABORT, '" ++ reason ++
        "'); END"
    | .ignoreRetiring =>
      " BEFORE UPDATE OF is_latest ON " ++ t.table.name ++ " BEGIN SELECT RAISE(IGNORE); END"

/-- The entry of an index. -/
def Index.entry (i : Index) : CatalogEntry :=
  ⟨.index, i.name, i.table, some i.statement⟩

/-- The entry of a trigger. -/
def Trigger.entry (t : Trigger) : CatalogEntry :=
  ⟨.trigger, t.name, t.table.name, some t.statement⟩

namespace Database

/-- The entry of the log of schema versions, if it is there. -/
def logCatalog (d : Database) : List CatalogEntry :=
  match d.log with
  | .absent => []
  | .foreign => [⟨.table, logName, logName, some ("CREATE TABLE " ++ logName ++ " (x)")⟩]
  | .versions _ =>
    [⟨.table, logName, logName, some (Declaration.statement logName 11 1 logDeclarations)⟩]

/-- The entries of a table of the ledger and of its indexes, if it is there. The indexes that keep
its versions apart come later. -/
def tableCatalog (d : Database) (t : Table) : List CatalogEntry :=
  if d.hasTable t then
    [⟨.table, t.name, t.name, some (Declaration.statement t.name 2 2 t.declarations)⟩,
     ⟨.index, "sqlite_autoindex_" ++ t.name ++ "_1", t.name, none⟩] ++
      (d.indexes.filter fun i => i.table == t.name && !i.unique).map Index.entry
  else []

/-- The catalog, in the order in which migrations make its entries. Triggers come last, the oldest
first. -/
def catalog (d : Database) : List CatalogEntry :=
  d.logCatalog ++ Table.all.flatMap d.tableCatalog ++
    (d.indexes.filter (·.unique)).map Index.entry ++ d.triggers.reverse.map Trigger.entry

/-- The names of all tables, indexes and triggers made by statements, each after the word for what it
is, in order. -/
def objects (d : Database) : List String :=
  let names := (d.catalog.filter (·.statement.isSome)).map fun e => e.kind.name ++ " " ++ e.name
  names.mergeSort fun a b => !(b < a)

end Database

end Payroll
