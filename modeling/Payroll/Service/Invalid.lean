/-!
What can be wrong with a request, in its own fields or in what it refers to.
-/

namespace Payroll

/-- Why a request is not accepted. -/
inductive Invalid where
  | missing (field : String)
  | blank (field : String)
  | notNonNegative (field : String)
  | notEmail (text : String)
  | endBeforeStart
  | windowTooLarge
  | negativeDuration
  | windowReversed
  | noCompany (id : String)
  | noContractor (id : String)
  | noJobVersion (uid : String)
  | noTimelogVersion (uid : String)
  | otherJob
  | other (reason : String)
deriving DecidableEq

/-- The fault in words. -/
def Invalid.message : Invalid → String
  | .missing field => field ++ " is required"
  | .blank field => field ++ " must not be empty"
  | .notNonNegative field => field ++ " must be a non-negative number"
  | .notEmail text => "email is not valid: " ++ text
  | .endBeforeStart => "time_end must not be before time_start"
  | .windowTooLarge => "time window too large"
  | .negativeDuration => "duration must not be negative"
  | .windowReversed => "time_start must not be after time_end"
  | .noCompany id => "company does not exist: " ++ id
  | .noContractor id => "contractor does not exist: " ++ id
  | .noJobVersion uid => "job version does not exist: " ++ uid
  | .noTimelogVersion uid => "timelog version does not exist: " ++ uid
  | .otherJob => "timelog was not logged against the given job version"
  | .other reason => reason

end Payroll
