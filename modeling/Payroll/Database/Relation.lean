import Payroll.Database.Catalog
import Payroll.Database.Versions
/-!
What a query sees of the database: relations, each of which is a table with its columns under the
names it goes by. Names are compared without regard to the case of ASCII letters. Every table has a
column more than it shows, the place of a row, which is found only under a few names of its own and
only where no other column is meant.
-/

namespace Payroll

open Sql (Value Affinity ColumnRef)

/-- A column as a query sees it, under each of the names its table goes by. A hidden one is the place
of a row. -/
structure Heading where
  tables : List String
  column : Column
  hidden : Bool
deriving DecidableEq

/-- The names of the place of a row. -/
def placeNames : List String := ["rowid", "_rowid_", "oid"]

namespace Heading

/-- The columns of a table that goes by a name. -/
def named (name : String) (columns : List Column) : List Heading :=
  columns.map fun c => ⟨[name], c, false⟩

/-- The place of a row of a table with these names. -/
def place (tables : List String) : Heading :=
  ⟨tables, ⟨"rowid", .integer⟩, true⟩

/-- The heading is of a table that goes by the name. -/
def ofTable (h : Heading) (table : String) : Bool :=
  h.tables.any (sameName table)

/-- The column is meant by a reference that names it. -/
def isNamed (h : Heading) (r : ColumnRef) : Bool :=
  !h.hidden && h.ofTable r.table && sameName h.column.name r.column

/-- The column is meant by a reference to the place of a row. -/
def isPlace (h : Heading) (r : ColumnRef) : Bool :=
  h.hidden && h.ofTable r.table && placeNames.any (sameName r.column)

end Heading

/-- A table as a query sees it: headings and rows of values under them. -/
structure Relation where
  headings : List Heading
  rows : List (List Value)

/-- A column's place in a row, and its affinity. -/
structure Cell where
  place : Nat
  affinity : Affinity

namespace Cell

/-- The value in the cell. -/
def value (c : Cell) (row : List Value) : Value :=
  row.getD c.place .null

/-- The cells of the columns that a test picks. -/
def among (headings : List Heading) (p : Heading → Bool) : List Cell :=
  (headings.zipIdx.filter fun (h, _) => p h).map fun (h, place) => ⟨place, h.column.affinity⟩

/-- The cell of a column, which only one table may have. Where no column has the name it may be that
of the place of a row. -/
def find (headings : List Heading) (r : ColumnRef) : Except DatabaseFault Cell :=
  let named := among headings (·.isNamed r)
  match if named.isEmpty then among headings (·.isPlace r) else named with
  | [cell] => .ok cell
  | [] => .error (.noColumn (r.table ++ "." ++ r.column))
  | _ => .error (.ambiguousColumn (r.table ++ "." ++ r.column))

end Cell

namespace Database

/-- A version's place in its table and its values. Versions are never taken out of a table. -/
def placedVersions {α : Type} [VersionedData α] (rows : List (Version α)) : List (List Value) :=
  rows.zipIdx.map fun (v, before) => .int (Int.ofNat before + 1) :: v.values

/-- All rows of a table of versions. -/
def versionRelation (α : Type) [VersionedTable α] (name : String) (d : Database) :
    Except DatabaseFault Relation :=
  match VersionedTable.rows? (α := α) d with
  | some rows =>
    .ok ⟨.place [name] :: Heading.named name (versionColumns α), placedVersions rows⟩
  | none => .error (.noTable name)

/-- All rows of a table that is changed in place. -/
def staticRelation (α : Type) [StaticTable α] (name : String) (d : Database) :
    Except DatabaseFault Relation :=
  match StaticTable.rows? α d with
  | some rows =>
    .ok ⟨.place [name] :: Heading.named name (staticColumns α),
      rows.map fun r => .int r.place :: r.values⟩
  | none => .error (.noTable name)

/-- The log of schema versions, by version. The version is the place of its row. When a version was
recorded is for the engine to say. -/
def logRelation (d : Database) (name : String) : Except DatabaseFault Relation :=
  match d.log with
  | .absent => .error (.noTable name)
  | .foreign => .ok ⟨.place [name] :: Heading.named name [⟨"x", .none⟩], []⟩
  | .versions entries =>
    let row (e : LogEntry) : List Value :=
      [.int e.version, .int e.version, .text (d.engine.recordedAt e), .text e.description]
    .ok ⟨.place [name] :: Heading.named name
        [⟨"version", .integer⟩, ⟨"applied_at", .text⟩, ⟨"description", .text⟩],
      (entries.mergeSort fun a b => a.version ≤ b.version).map row⟩

/-- A catalog as a table. Tables and indexes have pages of the file, one after the other from the
second. -/
def catalogRelation (names : List String) (entries : List CatalogEntry) : Relation :=
  let columns : List Column :=
    [⟨"type", .text⟩, ⟨"name", .text⟩, ⟨"tbl_name", .text⟩, ⟨"rootpage", .integer⟩, ⟨"sql", .text⟩]
  let row (e : CatalogEntry) (before : Nat) : List Value :=
    [.int (Int.ofNat before + 1), .text e.kind.name, .text e.name, .text e.table,
      .int (if e.kind = .trigger then 0 else Int.ofNat before + 2),
      (e.statement.map Value.text).getD .null]
  ⟨.place names :: columns.map (⟨names, ·, false⟩), entries.zipIdx.map fun (e, before) => row e before⟩

/-- The table that goes by a name. -/
def relation (d : Database) (name : String) : Except DatabaseFault Relation :=
  match Table.ofName? name with
  | some .company => d.staticRelation Company name
  | some .contractor => d.staticRelation Contractor name
  | some .job => d.versionRelation Job name
  | some .timelog => d.versionRelation Timelog name
  | some .payment => d.versionRelation Payment name
  | none =>
    if sameName name logName then d.logRelation name
    else if catalogNames.any (sameName name) then .ok (catalogRelation catalogNames d.catalog)
    else if temporaryCatalogNames.any (sameName name) then
      .ok (catalogRelation temporaryCatalogNames [])
    else .error (.noTable name)

end Database

end Payroll
