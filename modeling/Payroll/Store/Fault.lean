import Payroll.Database.Migration
/-!
Why an operation on the store fails: the database or the pool of connections let it down, or the
caller asked for something that cannot be done.
-/

namespace Payroll

open Sql (FilterFault)

/-- Why a new version does not follow the latest one: its number is taken, or the latest one could
not be retired. -/
inductive Conflict where
  | taken (cause : DatabaseFault)
  | superseded (version : Int)
  | other (reason : String)
deriving DecidableEq

/-- The conflict in words. -/
def Conflict.message : Conflict → String
  | .taken cause => cause.message
  | .superseded version => "version " ++ toString version ++ " is no longer latest"
  | .other reason => reason

/-- Why an operation on the store fails. -/
inductive StoreFault where
  | database (cause : DatabaseFault)
  | pool (reason : String)
  | migration (cause : MigrationFault)
  | notFound (table key : String)
  | conflict (table id : String) (cause : Conflict)
  | invalidFilter (cause : FilterFault)
  | timedOut
  | internal (reason : String)
deriving DecidableEq

namespace StoreFault

/-- The fault in words. -/
def message : StoreFault → String
  | .database cause => "sqlite error: " ++ cause.message
  | .pool reason => "connection pool error: " ++ reason
  | .migration cause => "migration error: " ++ cause.message
  | .notFound table key => table ++ " record not found: " ++ key
  | .conflict table id cause => "conflicting update on " ++ table ++ " " ++ id ++ ": " ++ cause.message
  | .invalidFilter cause => "invalid filter: " ++ cause.message
  | .timedOut => "query timed out"
  | .internal reason => "internal error: " ++ reason

/-- The store itself failed, not the caller. -/
def isPersistence : StoreFault → Bool
  | .database _ | .pool _ | .migration _ | .internal _ => true
  | .notFound _ _ | .conflict _ _ _ | .invalidFilter _ | .timedOut => false

/-- The database's answer, its fault being the store's. -/
def ofDatabase {β : Type} (r : Except DatabaseFault β) : Except StoreFault β :=
  r.mapError .database

/-- The check of a filter, its fault being the store's. -/
def ofFilter {β : Type} (r : Except FilterFault β) : Except StoreFault β :=
  r.mapError .invalidFilter

end StoreFault

end Payroll
