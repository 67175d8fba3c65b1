import Payroll.Sql.Statement
import Payroll.Store.Step
import Payroll.Database.Statics
/-!
The records of one database that are changed in place. Changes and deletions refuse a filter that
names no column, so no one changes every row by leaving the filter out.
-/

namespace Payroll.Static

open Sql (Value Filter Changes)

variable {α : Type} [StaticTable α]

/-- The columns that a filter may name. -/
def filterable (α : Type) [StaticData α] : List String :=
  "id" :: StaticData.columns α

/-- Refuses a filter that lets every row pass, and one that names another column. -/
def guarded (α : Type) [StaticData α] (f : Filter) : Except StoreFault Unit := do
  if f.terms.isEmpty then throw (.invalidFilter (.unfiltered (StaticData.table α)))
  StoreFault.ofFilter (f.validate (filterable α))

/-- The statement that inserts rows. -/
def insertion (α : Type) [StaticData α] (rows : List StaticRow) : Sql.Statement :=
  .insert (StaticData.table α) (filterable α) (rows.map StaticRow.values)

/-- The statements that insert records, each with as many rows as it may have. -/
def insertions (records : List α) : List Sql.Statement :=
  (Database.pieces (Database.rowsPerStatement α) (records.map StaticRow.ofData)).map (insertion α)

/-- Inserts records one statement after the other. -/
def insertMany (records : List α) : Step Unit := fun d =>
  match d.insertMany records with
  | (none, d) => (.ok (), d)
  | (some cause, d) => (.error (.database cause), d)

/-- Inserts records in pieces, all of them or none. -/
def insertBatch (size : Nat) (records : List α) : Step Unit :=
  .transaction fun d => do
    let size := if size = 0 then records.length else size
    let d ← (Database.pieces size records).foldlM (fun d piece =>
      match insertMany piece d with
      | (.ok (), d) => Except.ok d
      | (.error fault, _) => Except.error fault) d
    return ((), d)

/-- The first record that passes a filter. -/
def first? (α : Type) [StaticTable α] (f : Filter) : Reading (Option α) := fun d => do
  StoreFault.ofFilter (f.validate (filterable α))
  StoreFault.ofDatabase (d.first? α f)

/-- All records that pass a filter. -/
def allWhere (α : Type) [StaticTable α] (f : Filter) : Reading (List α) := fun d => do
  StoreFault.ofFilter (f.validate (filterable α))
  StoreFault.ofDatabase (d.allWhere α f)

/-- Changes the records that pass a filter, and counts them. -/
def updateWhere (α : Type) [StaticTable α] (f : Filter) (c : Changes) : Step Nat :=
  .transaction fun d => do
    StoreFault.ofFilter (c.validate (StaticData.columns α))
    guarded α f
    StoreFault.ofDatabase (d.updateWhere α f c)

/-- The changes that give every column the value it has in a record. -/
def changesOf (a : α) : Changes :=
  ⟨(StaticData.columns α).zip ((StaticData.texts a).map Value.text)⟩

/-- Overwrites the records that pass a filter, ids aside, and counts them. -/
def overwriteWhere (f : Filter) (a : α) : Step Nat :=
  updateWhere α f (changesOf a)

/-- Deletes the records that pass a filter, and counts them. -/
def deleteWhere (α : Type) [StaticTable α] (f : Filter) : Step Nat :=
  .transaction fun d => do
    guarded α f
    StoreFault.ofDatabase (d.deleteWhere α f)

/-- Deletes the record of an id, and counts it. -/
def delete (α : Type) [StaticTable α] (id : String) : Step Nat :=
  .transaction fun d => StoreFault.ofDatabase (d.deleteWhere α (.one "id" (.text id)))

end Payroll.Static
