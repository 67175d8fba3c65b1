import Payroll.Http.Target
/-!
The resources of the interface. A path names a resource by its segments as they are written; a
segment that is spelled out wins over one that may be anything, and the last segment is never empty.
-/

namespace Payroll.Http

/-- The methods of calls. -/
inductive Method where
  | get
  | head
  | post
  | put
  | options
  | other (name : String)
deriving DecidableEq

namespace Method

/-- The method of this name. -/
def ofName : String → Method
  | "GET" => .get
  | "HEAD" => .head
  | "POST" => .post
  | "PUT" => .put
  | "OPTIONS" => .options
  | name => .other name

/-- The method's name. -/
def name : Method → String
  | .get => "GET"
  | .head => "HEAD"
  | .post => "POST"
  | .put => "PUT"
  | .options => "OPTIONS"
  | .other name => name

end Method

/-- What a path can name. Ids are as they are written. -/
inductive Resource where
  | health
  | companies
  | company (id : String)
  | contractors
  | contractor (id : String)
  | timelogsOf (contractor : String)
  | paymentsOf (contractor : String)
  | jobs
  | extendedJobs
  | activeJobs (contractor : String)
  | job (id : String)
  | jobVersions (id : String)
  | timelogs
  | payments
  | payment (id : String)
deriving DecidableEq

namespace Resource

/-- The resource under `/api/v1` that segments name. -/
def ofSegments? : List String → Option Resource
  | ["companies"] => some .companies
  | ["companies", id] => if id = "" then none else some (.company id)
  | ["contractors"] => some .contractors
  | ["contractors", id] => if id = "" then none else some (.contractor id)
  | ["contractors", id, "timelogs"] => some (.timelogsOf id)
  | ["contractors", id, "payment-line-items"] => some (.paymentsOf id)
  | ["jobs"] => some .jobs
  | ["jobs", "extended"] => some .extendedJobs
  | ["jobs", id] => if id = "" then none else some (.job id)
  | ["jobs", "active", id] => if id = "" then none else some (.activeJobs id)
  | ["jobs", id, "versions"] => some (.jobVersions id)
  | ["timelogs"] => some .timelogs
  | ["payment-line-items"] => some .payments
  | ["payment-line-items", id] => if id = "" then none else some (.payment id)
  | _ => none

/-- The resource that a path names. -/
def ofPath? : List String → Option Resource
  | ["", "health"] => some .health
  | "" :: "api" :: "v1" :: segments => ofSegments? segments
  | _ => none

/-- The methods that a resource knows. -/
def methods : Resource → List Method
  | .companies | .contractors | .jobs | .timelogs | .payments => [.post]
  | .payment _ => [.put]
  | .job _ => [.get, .head, .put]
  | .health | .company _ | .contractor _ | .timelogsOf _ | .paymentsOf _ | .extendedJobs
  | .activeJobs _ | .jobVersions _ => [.get, .head]

/-- The methods in the words of a header. -/
def allow (r : Resource) : String :=
  ",".intercalate (r.methods.map Method.name)

end Resource

end Payroll.Http
