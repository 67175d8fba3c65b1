import Payroll.Json.Basic
import Payroll.Service.Fault
/-!
Why a call is not answered as it asks, and the one shape in which callers are told: a code and a
message. What went wrong inside the store is never told.
-/

namespace Payroll.Http

/-- What is wrong with a call itself. -/
inductive BadCall where
  | target
  | query
  | mediaType
  | tooLarge
  | malformed
  | mismatch
  | other (reason : String)
deriving DecidableEq

/-- What is wrong, in words. -/
def BadCall.message : BadCall → String
  | .target => "Invalid URL"
  | .query => "Failed to deserialize query string"
  | .mediaType => "Expected request with `Content-Type: application/json`"
  | .tooLarge => "Failed to buffer the request body: length limit exceeded"
  | .malformed => "Failed to parse the request body as JSON"
  | .mismatch => "Failed to deserialize the JSON body into the target type"
  | .other reason => reason

/-- Why a call is not answered as it asks. -/
inductive Fault where
  | badCall (cause : BadCall)
  | service (cause : ServiceFault)
deriving DecidableEq

namespace Fault

/-- The status of the answer. -/
def status : Fault → Nat
  | .badCall _ => 400
  | .service (.notFound _) => 404
  | .service (.invalid _) => 400
  | .service (.conflict _) => 409
  | .service .timeout => 504
  | .service (.store _) => 500

/-- The code that names the kind of fault. -/
def code : Fault → String
  | .badCall _ => "BAD_REQUEST"
  | .service (.notFound _) => "NOT_FOUND"
  | .service (.invalid _) => "VALIDATION_ERROR"
  | .service (.conflict _) => "CONFLICT"
  | .service .timeout => "TIMEOUT"
  | .service (.store _) => "INTERNAL_ERROR"

/-- What the caller is told. -/
def message : Fault → String
  | .badCall cause => cause.message
  | .service (.store _) => "internal error"
  | .service cause => cause.message

/-- The body of the answer. -/
def toJson (f : Fault) : Json :=
  .object [("error", .object [("code", .string f.code), ("message", .string f.message)])]

end Fault

end Payroll.Http
