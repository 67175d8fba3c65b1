/-!
Names in SQL text and the pieces of statements built from them. A name is always quoted, so any
string can name a table or a column.
-/

namespace Payroll.Sql

/-- The characters with every double quote written twice. -/
def doubleQuotes : List Char → List Char
  | [] => []
  | c :: cs => if c = '"' then '"' :: '"' :: doubleQuotes cs else c :: doubleQuotes cs

/-- A name in quotes. -/
def quoted (name : String) : String :=
  String.ofList ('"' :: (doubleQuotes name.toList ++ ['"']))

/-- A column's name after its table's. -/
def qualified (table column : String) : String :=
  quoted table ++ "." ++ quoted column

/-- Columns of one table, in order, with commas between. -/
def columnList (table : String) (columns : List String) : String :=
  ", ".intercalate (columns.map (qualified table))

/-- One row of placeholders. -/
def placeholderRow (width : Nat) : String :=
  "(" ++ ", ".intercalate (List.replicate width "?") ++ ")"

/-- The statement that inserts a number of rows. -/
def insertStatement (table : String) (columns : List String) (rows : Nat) : String :=
  "INSERT INTO " ++ quoted table ++ " (" ++ ", ".intercalate (columns.map quoted) ++ ") VALUES " ++
    ", ".intercalate (List.replicate rows (placeholderRow columns.length))

/-- The statement limited to the rows that meet every condition. -/
def withWhere (statement : String) (conditions : List String) : String :=
  if conditions.isEmpty then statement
  else statement ++ " WHERE " ++ " AND ".intercalate conditions

end Payroll.Sql
