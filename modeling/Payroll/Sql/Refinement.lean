import Payroll.Sql.Statement
/-!
Refinements of the query for the latest rows of a table: joins with other tables, conditions, an
order and a limit. The table itself is always read through a subquery that holds only its latest
rows, so nothing a refinement says can reach the others.
-/

namespace Payroll.Sql

/-- A column of a table. -/
structure ColumnRef where
  table : String
  column : String
deriving DecidableEq

/-- The column in SQL text. -/
def ColumnRef.text (c : ColumnRef) : String :=
  "\"" ++ c.table ++ "\".\"" ++ c.column ++ "\""

/-- The comparisons of SQL. -/
inductive Comparison where
  | eq
  | ne
  | lt
  | le
  | gt
  | ge
deriving DecidableEq

/-- The comparison's sign. -/
def Comparison.text : Comparison → String
  | .eq => "="
  | .ne => "!="
  | .lt => "<"
  | .le => "<="
  | .gt => ">"
  | .ge => ">="

/-- The comparison holds of two values in this order. -/
def Comparison.holds : Comparison → Ordering → Bool
  | .eq, o => o == .eq
  | .ne, o => o != .eq
  | .lt, o => o == .lt
  | .le, o => o != .gt
  | .gt, o => o == .gt
  | .ge, o => o != .lt

/-- A table to be joined where two columns are equal. -/
structure Join where
  table : String
  left : ColumnRef
  right : ColumnRef
deriving DecidableEq

/-- A condition: a column compared with a value, or a text of SQL with its own values. -/
inductive Condition where
  | compare (column : ColumnRef) (comparison : Comparison) (value : Value)
  | raw (text : String) (values : List Value)

namespace Condition

/-- The condition in SQL text, as it is put between parentheses. -/
def text : Condition → String
  | .compare column comparison _ => column.text ++ " " ++ comparison.text ++ " ?"
  | .raw text _ => text

/-- The values for the condition's placeholders. -/
def params : Condition → List Value
  | .compare _ _ value => [value]
  | .raw _ values => values

end Condition

/-- A column to sort by. -/
structure SortKey where
  column : ColumnRef
  descending : Bool
deriving DecidableEq

/-- The sort key in SQL text. -/
def SortKey.text (k : SortKey) : String :=
  k.column.text ++ if k.descending then " DESC" else ""

/-- What a query adds to the latest rows of a table, in SQL text: the tables to be joined with what stands
behind `ON`, conditions with the values for their placeholders, what to sort by, and a limit. -/
structure Clauses where
  joins : List (String × String)
  conditions : List Statement
  order : List String
  limit : Option Nat

/-- The name under which the subquery gives the place of a row in its table. -/
def Refinement.placeColumn : String := "_row_order"

/-- The query with these clauses. -/
def Clauses.query (c : Clauses) (table select : String) : Statement :=
  let source := "SELECT " ++ select ++ " FROM (SELECT rowid AS " ++ quoted Refinement.placeColumn ++
    ", * FROM " ++ quoted table ++ " WHERE " ++ quoted "is_latest" ++ " = 1) AS " ++ quoted table
  let joins := c.joins.map fun (other, on) => " INNER JOIN " ++ quoted other ++ " ON " ++ on
  let filtered := withWhere (source ++ String.join joins)
    (c.conditions.map fun condition => "(" ++ condition.text ++ ")")
  let keys := if c.order.isEmpty then [qualified table Refinement.placeColumn] else c.order
  let ordered := filtered ++ " ORDER BY " ++ ", ".intercalate keys
  { text := match c.limit with
      | some n => ordered ++ " LIMIT " ++ toString n
      | none => ordered
    values := c.conditions.flatMap (·.values) }

/-- What a query adds to the latest rows of a table. -/
structure Refinement where
  joins : List Join
  conditions : List Condition
  order : List SortKey
  limit : Option Nat

namespace Refinement

/-- The query for all latest rows. -/
def none : Refinement := ⟨[], [], [], Option.none⟩

/-- The refinement in SQL text. -/
def clauses (r : Refinement) : Clauses :=
  { joins := r.joins.map fun j => (j.table, j.left.text ++ " = " ++ j.right.text)
    conditions := r.conditions.map fun c => ⟨c.text, c.params⟩
    order := r.order.map SortKey.text
    limit := r.limit }

/-- The whole query in SQL text. -/
def render (r : Refinement) (table select : String) : String :=
  (r.clauses.query table select).text

/-- The values for the query's placeholders, in order. -/
def params (r : Refinement) : List Value :=
  r.conditions.flatMap Condition.params

/-- They are the values of its statement. -/
theorem values_query_clauses (r : Refinement) (table select : String) :
    (r.clauses.query table select).values = r.params := by
  simp [Clauses.query, clauses, params, List.flatMap_map]

end Refinement

end Payroll.Sql
