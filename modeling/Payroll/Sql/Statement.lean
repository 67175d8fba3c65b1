import Payroll.Sql.Filter
/-!
Statements as they are handed over: SQL text, and apart from it the values for the placeholders in the
text, the first value for the first placeholder.
-/

namespace Payroll.Sql

/-- SQL text with the values for its placeholders, in order. -/
structure Statement where
  text : String
  values : List Value

namespace Statement

/-- Gives columns new values in the rows that pass a filter. -/
def update (table : String) (c : Changes) (f : Filter) : Statement :=
  { text := withWhere ("UPDATE " ++ quoted table ++ " SET " ++ ", ".intercalate c.assignments)
      (f.conditions table)
    values := c.params ++ f.params }

/-- Inserts rows that have a value for each column. -/
def insert (table : String) (columns : List String) (rows : List (List Value)) : Statement :=
  { text := insertStatement table columns rows.length
    values := rows.flatten }

end Statement

end Payroll.Sql
