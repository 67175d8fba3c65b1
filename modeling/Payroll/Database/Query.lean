import Payroll.Database.Limits
import Payroll.Database.Relation
/-!
Refined queries for the latest rows of a table. The table is read as its latest rows only, each with
its place, the joined tables as all their rows; conditions are conjunctions with alternatives
between them, since the text of a condition can close its parenthesis and go on with `OR`.
-/

namespace Payroll

open Sql (Value Comparison Condition Refinement)

/-- A condition that a row can be tested for. -/
inductive Test where
  | constant (holds : Bool)
  | compare (cell : Cell) (comparison : Comparison) (value : Value)
  | equal (left right : Cell)

namespace Test

/-- The row passes. A comparison with null does not hold. -/
def passes (row : List Value) : Test → Bool
  | .constant holds => holds
  | .compare cell comparison value =>
    match Sql.compareUnder cell.affinity (cell.value row) value.bound with
    | some o => comparison.holds o
    | none => false
  | .equal left right =>
    Sql.compareUnder (Sql.comparisonAffinity left.affinity right.affinity)
      (left.value row) (right.value row) == some .eq

end Test

/-- What a condition adds to the ones before it: one more test, or an alternative to them all. -/
inductive Clause where
  | test (test : Test)
  | alternative

/-- The clause of a condition. -/
def clause (headings : List Heading) : Condition → Except DatabaseFault Clause
  | .compare column comparison value => do
    return .test (.compare (← Cell.find headings column) comparison value)
  | .raw "1 = 1" _ => .ok (.test (.constant true))
  | .raw "1 = 0" _ => .ok (.test (.constant false))
  | .raw "1) OR (1" _ => .ok .alternative
  | .raw text _ => .error (.unreadable text)

/-- The alternatives that a list of clauses gives, each a list of tests. -/
def alternatives : List Clause → List (List Test)
  | [] => [[]]
  | .alternative :: rest => [] :: alternatives rest
  | .test t :: rest =>
    match alternatives rest with
    | ts :: others => (t :: ts) :: others
    | [] => [[t]]

/-- Some alternative has only tests that the row passes. -/
def passesSome (row : List Value) (alternatives : List (List Test)) : Bool :=
  alternatives.any fun tests => tests.all (Test.passes row)

/-- The order of two rows by cells, the first cell that differs deciding. -/
def compareBy : List (Cell × Bool) → List Value → List Value → Ordering
  | [], _, _ => .eq
  | (cell, descending) :: keys, a, b =>
    match (cell.value a).order (cell.value b) with
    | .eq => compareBy keys a b
    | o => if descending then o.swap else o

namespace Database

variable {α : Type}

/-- The headings of the latest rows, with their place in the table before the others, where it is a
column like any. -/
def latestHeadings (α : Type) [VersionedTable α] : List Heading :=
  Heading.named (VersionedData.table α) (⟨Refinement.placeColumn, .integer⟩ :: versionColumns α)

/-- The latest rows of a table, with their place in the table before their values. -/
def latestRows [VersionedData α] (rows : List (Version α)) : List (Version α × List Value) :=
  (rows.zipIdx.filter (·.1.isLatest)).map fun (v, place) =>
    (v, .int (Int.ofNat place + 1) :: v.values)

/-- Every pairing of a row with a row of the relation. -/
def joinRows (rows : List (Version α × List Value)) (r : Relation) :
    List (Version α × List Value) :=
  rows.flatMap fun (v, left) => r.rows.map fun right => (v, left ++ right)

/-- The columns that a query for versions reads. -/
def selected (α : Type) [VersionedData α] : List String :=
  ["id", "version", "uid", "is_latest"] ++ (VersionedData.columns α).map (·.name)

/-- A refined query with its names made out. -/
structure Plan where
  alternatives : List (List Test)
  joins : List Test
  keys : List (Cell × Bool)
  limit : Option Nat

/-- Makes out the names of a query, in the order in which a missing one is reported: the table's own
columns, the conditions, the joins, the order. -/
def plan (α : Type) [VersionedTable α] (headings : List Heading) (r : Refinement) :
    Except DatabaseFault Plan := do
  let table := VersionedData.table α
  let _ ← (selected α).mapM fun c => Cell.find headings ⟨table, c⟩
  let clauses ← r.conditions.mapM (clause headings)
  let joins ← r.joins.mapM fun j => do
    return Test.equal (← Cell.find headings j.left) (← Cell.find headings j.right)
  let keys ← r.order.mapM fun k => do return (← Cell.find headings k.column, k.descending)
  let keys ← if keys.isEmpty then
      do pure [(← Cell.find headings ⟨table, Refinement.placeColumn⟩, false)]
    else pure keys
  return { alternatives := alternatives clauses, joins, keys, limit := r.limit }

/-- The rows that a plan keeps, in its order. Where this leaves open which of two rows comes first, it is
as the engine has it. -/
def Plan.run (p : Plan) (precedes : List Value → List Value → Bool)
    (rows : List (Version α × List Value)) : List (Version α) :=
  let kept := rows.filter fun (_, row) =>
    passesSome row p.alternatives && p.joins.all (Test.passes row)
  let found := kept.mergeSort fun a b => precedes a.2 b.2
  let sorted := found.mergeSort fun a b => compareBy p.keys a.2 b.2 != .gt
  let versions := sorted.map (·.1)
  match p.limit with
  | some n => versions.take n
  | none => versions

/-- How deep the conditions of a query are with those of its joins. -/
def depthJoined (depth : Nat) (joins : List Sql.Join) : Except DatabaseFault Nat :=
  joins.foldlM (fun depth _ => nested (joinedDepth depth 3)) depth

/-- The latest rows of a table as a refinement asks for them. That they are the latest is one more
condition, which comes before the others once all names have been made out. -/
def query (α : Type) [VersionedTable α] (d : Database) (r : Refinement) :
    Except DatabaseFault (List (Version α)) := do
  if maxSources < r.joins.length + 1 then throw .tooManySources
  let depth ← depthAfter 0 (r.conditions.map Condition.part)
  let rows ← versions α d
  let joined ← r.joins.mapM fun j => d.relation j.table
  let depth ← depthJoined depth r.joins
  let headings := latestHeadings α ++ joined.flatMap (·.headings)
  let p ← plan α headings r
  if maxColumns < r.order.length then throw .tooManyKeys
  let _ ← nested (joinedDepth 2 depth)
  if maxTables < r.joins.length + 1 then throw .tooManyTables
  let given := r.params.length
  let needed := r.conditions.foldl (fun n c => n + c.places) 0
  if given ≠ needed then throw (.parameterCount given needed)
  if maxInt64 < r.limit.getD 0 then throw .limitTooLarge
  let precedes := d.engine.precedes d.indexes (VersionedData.table α) r
  return p.run precedes (joined.foldl joinRows (latestRows rows))

end Database

end Payroll
