import Payroll.Sql.Refinement
/-!
What a database can object to in a statement, as causes with their wording.
-/

namespace Payroll

/-- Why a statement fails. -/
inductive DatabaseFault where
  | noRows
  | noTable (name : String)
  | noColumn (name : String)
  | noColumnNamed (table column : String)
  | ambiguousColumn (name : String)
  | noIndex (name : String)
  | tableExists (name : String)
  | indexNamed (name : String)
  | tableNamed (name : String)
  | triggerExists (name : String)
  | notDropped (name : String)
  | notUnique (table : String) (columns : List String)
  | isNull (table column : String)
  | versionBelowOne
  | refused (reason : String)
  | readOnly
  | isBytes (index : Nat) (column : String)
  | outOfRange (value : Int)
  | limitTooLarge
  | unreadable (text : String)
  | parameterCount (given needed : Nat)
  | tooDeep
  | tooManyParameters
  | tooManyAssignments
  | tooManyKeys
  | tooManySources
  | tooManyTables
deriving DecidableEq

namespace DatabaseFault

/-- The fault in words. -/
def message : DatabaseFault → String
  | .noRows => "Query returned no rows"
  | .noTable name => "no such table: " ++ name
  | .noColumn name => "no such column: " ++ name
  | .noColumnNamed table column => "table " ++ table ++ " has no column named " ++ column
  | .ambiguousColumn name => "ambiguous column name: " ++ name
  | .noIndex name => "no such index: " ++ name
  | .tableExists name => "table " ++ name ++ " already exists"
  | .indexNamed name => "there is already an index named " ++ name
  | .tableNamed name => "there is already a table named " ++ name
  | .triggerExists name => "trigger " ++ name ++ " already exists"
  | .notDropped name => "table " ++ name ++ " may not be dropped"
  | .notUnique table columns =>
    "UNIQUE constraint failed: " ++ ", ".intercalate (columns.map fun c => table ++ "." ++ c)
  | .isNull table column => "NOT NULL constraint failed: " ++ table ++ "." ++ column
  | .versionBelowOne => "CHECK constraint failed: version >= 1"
  | .refused reason => reason
  | .readOnly => "attempt to write a readonly database"
  | .isBytes index column =>
    "Invalid column type Blob at index: " ++ toString index ++ ", name: " ++ column
  | .outOfRange value => "Integer " ++ toString value ++ " out of range at index 0"
  | .limitTooLarge => "datatype mismatch"
  | .unreadable text => "near \"" ++ text ++ "\": syntax error"
  | .parameterCount given needed =>
    "Wrong number of parameters passed to query. Got " ++ toString given ++ ", needed " ++
      toString needed
  | .tooDeep => "Expression tree is too large (maximum depth 1000)"
  | .tooManyParameters => "too many SQL variables"
  | .tooManyAssignments => "too many columns in set list"
  | .tooManyKeys => "too many terms in ORDER BY clause"
  | .tooManySources => "too many FROM clause terms, max: 200"
  | .tooManyTables => "at most 64 tables in a join"

/-- The statement failed because a row with the same key is there. -/
def isDuplicate : DatabaseFault → Bool
  | .notUnique _ _ => true
  | _ => false

end DatabaseFault

end Payroll
