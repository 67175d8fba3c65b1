import Payroll.Service.Invalid
import Payroll.Store.Fault
/-!
Why the service does not do what it is asked: a record is not there, the request is not valid,
another writer came first, time ran out, or the store failed.
-/

namespace Payroll

/-- What a caller named that is not there. -/
inductive Missing where
  | company (id : String)
  | contractor (id : String)
  | job (id : String)
  | row (table key : String)
  | other (reason : String)
deriving DecidableEq

/-- What is missing, in words. -/
def Missing.message : Missing → String
  | .company id => "company not found: " ++ id
  | .contractor id => "contractor not found: " ++ id
  | .job id => "job not found: " ++ id
  | .row table key => (StoreFault.notFound table key).message
  | .other reason => reason

/-- What another writer did first. -/
inductive Overtaken where
  | row (table id : String) (cause : Conflict)
  | other (reason : String)
deriving DecidableEq

/-- What another writer did first, in words. -/
def Overtaken.message : Overtaken → String
  | .row table id cause => (StoreFault.conflict table id cause).message
  | .other reason => reason

/-- Why the service does not do what it is asked. -/
inductive ServiceFault where
  | notFound (what : Missing)
  | invalid (cause : Invalid)
  | conflict (what : Overtaken)
  | timeout
  | store (cause : StoreFault)
deriving DecidableEq

namespace ServiceFault

/-- The fault in words. -/
def message : ServiceFault → String
  | .notFound what => what.message
  | .invalid cause => "validation failed: " ++ cause.message
  | .conflict what => what.message
  | .timeout => "request timed out"
  | .store cause => "persistence error: " ++ cause.message

/-- The service's fault for a fault of the store. -/
def ofStore : StoreFault → ServiceFault
  | .notFound table key => .notFound (.row table key)
  | .conflict table id cause => .conflict (.row table id cause)
  | .invalidFilter cause => .invalid (.other cause.message)
  | .timedOut => .timeout
  | cause => .store cause

end ServiceFault

end Payroll
