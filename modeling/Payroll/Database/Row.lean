import Payroll.Database.Basic
/-!
Rows as lists of values under their columns, which is how filters and queries see them.
-/

namespace Payroll

open Sql (Value Filter)

/-- The columns of a table of versions, in the table's order. -/
def versionColumns (α : Type) [VersionedData α] : List Column :=
  [⟨"uid", .text⟩, ⟨"id", .text⟩, ⟨"version", .integer⟩, ⟨"is_latest", .integer⟩] ++
    VersionedData.columns α

/-- The values of a version under the columns of its table. -/
def Version.values {α : Type} [VersionedData α] (v : Version α) : List Value :=
  [.text v.uid, .text v.id, .int v.version, .int (if v.isLatest then 1 else 0)] ++
    VersionedData.cells v.data

/-- The version as it is read back once it is in its table. -/
def Version.stored {α : Type} [VersionedData α] (v : Version α) : Version α :=
  { v with data := VersionedData.stored v.data }

/-- The columns of a table that is changed in place, in the table's order. -/
def staticColumns (α : Type) [StaticData α] : List Column :=
  ("id" :: StaticData.columns α).map fun c => ⟨c, .text⟩

namespace StaticRow

/-- The values of a row under the columns of its table. -/
def values (r : StaticRow) : List Value :=
  .text r.id :: r.cells

/-- The row that holds a record, not yet in its table. -/
def ofData {α : Type} [StaticData α] (a : α) : StaticRow :=
  { place := 0, id := StaticData.id a, cells := (StaticData.texts a).map .text }

end StaticRow

/-- The texts in a row's cells. The first cell that holds something else is at fault. -/
def cellTexts : Nat → List String → List Value → Except DatabaseFault (List String)
  | place, column :: columns, cell :: cells =>
    match cell with
    | .text s => (cellTexts (place + 1) columns cells).map (s :: ·)
    | _ => .error (.isBytes place column)
  | _, _, _ => .ok []

/-- The record in a row. -/
def StaticRow.decode (α : Type) [StaticData α] (r : StaticRow) : Except DatabaseFault α := do
  let texts ← cellTexts 1 (StaticData.columns α) r.cells
  match StaticData.ofTexts? r.id texts with
  | some a => return a
  | none => throw .noRows

/-- The column of this name and the value in it. -/
def cell? (columns : List Column) (values : List Value) (name : String) : Option (Column × Value) :=
  (columns.zip values).find? fun (c, _) => c.name == name

/-- The row has the value that the term asks for. -/
def termHolds (columns : List Column) (values : List Value) (term : String × Value) : Bool :=
  match cell? columns values term.1 with
  | some (column, cell) =>
    if term.2.isNull then cell.isNull
    else Sql.compareUnder column.affinity cell term.2.bound == some .eq
  | none => false

/-- The row passes the filter. -/
def Sql.Filter.holds (f : Filter) (columns : List Column) (values : List Value) : Bool :=
  f.terms.all (termHolds columns values)

end Payroll
