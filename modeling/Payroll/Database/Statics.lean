import Payroll.Database.Limits
import Payroll.Database.Row
/-!
Statements on the tables that are changed in place. A statement that inserts takes all of its rows
or none, unless a trigger stops it on the way; many records take several statements, and the ones
before the first that fails keep their rows. Main statements: the pieces in which records are
inserted are all of them in their order, and no statement binds more values than a statement may.
-/

namespace Payroll.Database

open Sql (Filter Changes)

variable {α : Type} [StaticTable α]

/-- The rows of a table that is changed in place. -/
def statics (α : Type) [StaticTable α] (d : Database) : Except DatabaseFault (List StaticRow) :=
  match StaticTable.rows? α d with
  | some rows => .ok rows
  | none => .error (.noTable (StaticData.table α))

/-- The most rows of the table that one statement inserts. -/
def rowsPerStatement (α : Type) [StaticData α] : Nat :=
  max 1 (maxParameters / ((StaticData.columns α).length + 1))

/-- The place of the last row, or zero. -/
def lastPlace (rows : List StaticRow) : Nat :=
  (rows.getLast?.map (·.place)).getD 0

/-- The rows at the places that follow one that is taken. -/
def placedAfter (place : Nat) : List StaticRow → List StaticRow
  | [] => []
  | r :: rs => { r with place := place + 1 } :: placedAfter (place + 1) rs

/-- The rows of a table with new ones behind them. -/
def withNew (rows new : List StaticRow) : List StaticRow :=
  rows ++ placedAfter (lastPlace rows) new

/-- How and why a trigger refuses a row of a table with these rows, if one does. The latest trigger
decides. -/
def refusal? (d : Database) (table : Table) (rows : List StaticRow) (r : StaticRow) :
    Option (Raise × String) :=
  d.triggers.findSome? fun t =>
    match t.reaction with
    | .refuseInserting _ refuses raise reason =>
      if t.table = table && refuses rows r then some (raise, reason) else none
    | .refuseRetiring _ | .ignoreRetiring => none

/-- How and why a row is kept out of a table with these rows, if it is. Triggers look at it first. -/
def rejection? (α : Type) [StaticTable α] (d : Database) (rows : List StaticRow) (r : StaticRow) :
    Option (Raise × DatabaseFault) :=
  match d.refusal? (StaticTable.tableId α) rows r with
  | some (raise, reason) => some (raise, .refused reason)
  | none =>
    if rows.any (·.id == r.id) then some (.abort, .notUnique (StaticData.table α) ["id"]) else none

/-- How and why the first of new rows is kept out that is, after those before it. -/
def rejectionAmong? (α : Type) [StaticTable α] (d : Database) :
    List StaticRow → List StaticRow → Option (Raise × DatabaseFault)
  | _, [] => none
  | rows, r :: rs => (rejection? α d rows r).or (rejectionAmong? α d (withNew rows [r]) rs)

/-- The new rows before the first that is kept out. -/
def accepted (α : Type) [StaticTable α] (d : Database) : List StaticRow → List StaticRow → List StaticRow
  | _, [] => []
  | rows, r :: rs =>
    if (rejection? α d rows r).isSome then [] else r :: accepted α d (withNew rows [r]) rs

/-- Inserts rows by one statement. -/
def insertRows (α : Type) [StaticTable α] (d : Database) (new : List StaticRow) :
    Except DatabaseFault Database := do
  let rows ← statics α d
  match rejectionAmong? α d rows new with
  | some (_, fault) => throw fault
  | none => return StaticTable.setRows α (some (withNew rows new)) d

/-- What a statement leaves that could not insert its rows: nothing new, or what it had inserted when it
was stopped. -/
def leftBy (α : Type) [StaticTable α] (d : Database) (new : List StaticRow) : Database :=
  match StaticTable.rows? α d with
  | some rows =>
    match rejectionAmong? α d rows new with
    | some (.fail, _) => StaticTable.setRows α (some (withNew rows (accepted α d rows new))) d
    | some (.abort, _) | none => d
  | none => d

/-- The list in pieces of a length of at least one, the last one as long as it comes. -/
def pieces {β : Type} (size : Nat) (xs : List β) : List (List β) :=
  match xs with
  | [] => []
  | x :: xs => (x :: xs.take (size - 1)) :: pieces size (xs.drop (size - 1))
termination_by xs.length
decreasing_by simp only [List.length_drop, List.length_cons]; omega

theorem flatten_pieces {β : Type} (size : Nat) (xs : List β) : (pieces size xs).flatten = xs := by
  fun_induction pieces size xs with
  | case1 => rfl
  | case2 x xs ih => simp [ih]

/-- Inserts the pieces one after the other, up to the first that fails. -/
def insertPieces (α : Type) [StaticTable α] :
    Database → List (List StaticRow) → Option DatabaseFault × Database
  | d, [] => (none, d)
  | d, rows :: rest =>
    match insertRows α d rows with
    | .error fault => (some fault, leftBy α d rows)
    | .ok d => insertPieces α d rest

/-- Inserts records by as few statements as possible. -/
def insertMany (d : Database) (records : List α) : Option DatabaseFault × Database :=
  insertPieces α d (pieces (rowsPerStatement α) (records.map StaticRow.ofData))

/-- The rows that pass a filter. -/
def rowsWhere (α : Type) [StaticTable α] (d : Database) (f : Filter) :
    Except DatabaseFault (List StaticRow) := do
  let _ ← depthAfter 0 f.parts
  let rows ← statics α d
  return rows.filter fun r => f.holds (staticColumns α) r.values

/-- The first record that passes a filter. -/
def first? (α : Type) [StaticTable α] (d : Database) (f : Filter) :
    Except DatabaseFault (Option α) := do
  match ← rowsWhere α d f with
  | [] => return none
  | r :: _ => return some (← r.decode α)

/-- All records that pass a filter. -/
def allWhere (α : Type) [StaticTable α] (d : Database) (f : Filter) :
    Except DatabaseFault (List α) := do
  (← rowsWhere α d f).mapM (StaticRow.decode α)

/-- The row with its cells changed. Numbers become text. -/
def changed (α : Type) [StaticData α] (c : Changes) (r : StaticRow) : StaticRow :=
  { r with cells := ((StaticData.columns α).zip r.cells).map fun (column, cell) =>
      match c.value? column with
      | some v => v.bound.asText
      | none => cell }

/-- The column in which the row has no value, if there is one. -/
def emptyColumn? (α : Type) [StaticData α] (r : StaticRow) : Option String :=
  (((StaticData.columns α).zip r.cells).find? fun (_, v) => v.isNull).map (·.1)

/-- Changes the rows that pass a filter, and counts them. -/
def updateWhere (α : Type) [StaticTable α] (d : Database) (f : Filter) (c : Changes) :
    Except DatabaseFault (Nat × Database) := do
  checkUpdate c f
  let rows ← statics α d
  let passes (r : StaticRow) := f.holds (staticColumns α) r.values
  let new := (rows.filter passes).map (changed α c)
  match new.findSome? (emptyColumn? α) with
  | some column => throw (.isNull (StaticData.table α) column)
  | none =>
    let rows := rows.map fun r => if passes r then changed α c r else r
    return (new.length, StaticTable.setRows α (some rows) d)

/-- Deletes the rows that pass a filter, and counts them. -/
def deleteWhere (α : Type) [StaticTable α] (d : Database) (f : Filter) :
    Except DatabaseFault (Nat × Database) := do
  let _ ← depthAfter 0 f.parts
  let rows ← statics α d
  let (gone, left) := rows.partition fun r => f.holds (staticColumns α) r.values
  return (gone.length, StaticTable.setRows α (some left) d)

end Payroll.Database
