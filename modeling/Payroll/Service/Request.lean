import Payroll.Record.Data
import Payroll.Service.Invalid
import Payroll.Text.Email
/-!
The bodies of requests. Every field may be left out, so that what is missing is named; checking a
request gives the data of a record, with texts trimmed, or the first thing that is wrong with it.
-/

namespace Payroll

open Json (Field Flat Layout)
open Text (trim isBlankText isEmail)

/-- The value, which must be there. -/
def required {α : Type} (field : String) : Option α → Except Invalid α
  | some a => .ok a
  | none => .error (.missing field)

/-- The trimmed text, which must be there and not be blank. -/
def requiredText (field : String) (value : Option String) : Except Invalid String := do
  let text ← required field value
  if isBlankText text then throw (.blank field)
  return trim text

/-- The number, which must be finite and not below zero. -/
def nonNegative (field : String) (value : Float) : Except Invalid Float :=
  if value.isFinite && 0 ≤ value then .ok value else .error (.notNonNegative field)

/-- A request body that is one flat object, or an array of its fields' values in order. -/
class Request (ρ : Type) where
  fields : List Field
  ofFlat : Flat → ρ

/-- Reads a request body. -/
def Request.read (ρ : Type) [Request ρ] (s : Text.Source) : Except Json.Fault ρ :=
  Layout.read ⟨Request.fields ρ, true, false⟩ (fun o => .ok (Request.ofFlat o)) s

/-- The request for a new company. -/
structure CompanyRequest where
  name : Option String
deriving DecidableEq

instance : Request CompanyRequest where
  fields := [⟨"name", .text, true⟩]
  ofFlat o := { name := o.text? "name" }

/-- The company's name. -/
def CompanyRequest.check (r : CompanyRequest) : Except Invalid String :=
  requiredText "name" r.name

/-- The request for a new contractor. -/
structure ContractorRequest where
  name : Option String
  email : Option String
  phone : Option String
deriving DecidableEq

instance : Request ContractorRequest where
  fields := [⟨"name", .text, true⟩, ⟨"email", .text, true⟩, ⟨"phone", .text, true⟩]
  ofFlat o := { name := o.text? "name", email := o.text? "email", phone := o.text? "phone" }

/-- The contractor's name, e-mail address and phone number. -/
def ContractorRequest.check (r : ContractorRequest) : Except Invalid (String × String × String) := do
  let name ← requiredText "name" r.name
  let email ← requiredText "email" r.email
  if !isEmail email then throw (.notEmail email)
  let phone ← requiredText "phone" r.phone
  return (name, email, phone)

/-- The status of a job for which none is given. -/
def defaultJobStatus : String := "pending"

/-- The request for a new job, or for a new version of one. -/
structure JobRequest where
  status : Option String
  rate : Option Float
  title : Option String
  companyId : Option String
  contractorId : Option String

instance : Request JobRequest where
  fields := [⟨"status", .text, true⟩, ⟨"rate", .real, true⟩, ⟨"title", .text, true⟩,
    ⟨"company_id", .text, true⟩, ⟨"contractor_id", .text, true⟩]
  ofFlat o :=
    { status := o.text? "status"
      rate := o.real? "rate"
      title := o.text? "title"
      companyId := o.text? "company_id"
      contractorId := o.text? "contractor_id" }

/-- The job. -/
def JobRequest.check (r : JobRequest) : Except Invalid Job := do
  let status ← requiredText "status" (r.status.or (some defaultJobStatus))
  let rate ← required "rate" r.rate
  let rate ← nonNegative "rate" rate
  let title ← requiredText "title" r.title
  let companyId ← required "company_id" r.companyId
  let contractorId ← required "contractor_id" r.contractorId
  return { status, rate, title, companyId, contractorId }

/-- The request for a new timelog. -/
structure TimelogRequest where
  timeStart : Option Int
  timeEnd : Option Int
  duration : Option Int
  type : Option String
  jobUid : Option String
deriving DecidableEq

instance : Request TimelogRequest where
  fields := [⟨"time_start", .int, true⟩, ⟨"time_end", .int, true⟩, ⟨"duration", .int, true⟩,
    ⟨"type", .text, true⟩, ⟨"job_uid", .text, true⟩]
  ofFlat o :=
    { timeStart := o.int? "time_start"
      timeEnd := o.int? "time_end"
      duration := o.int? "duration"
      type := o.text? "type"
      jobUid := o.text? "job_uid" }

/-- The length of a window of time, if it fits 64 bits. -/
def windowLength (start stop : Int) : Except Invalid Int :=
  if stop - start ≤ maxInt64 then .ok (stop - start) else .error .windowTooLarge

/-- The timelog. A duration that is not given is the length of the window. -/
def TimelogRequest.check (r : TimelogRequest) : Except Invalid Timelog := do
  let timeStart ← required "time_start" r.timeStart
  let timeEnd ← required "time_end" r.timeEnd
  if timeEnd < timeStart then throw .endBeforeStart
  let duration ← match r.duration with
    | some duration => pure duration
    | none => windowLength timeStart timeEnd
  if duration < 0 then throw .negativeDuration
  let type ← requiredText "type" r.type
  let jobUid ← required "job_uid" r.jobUid
  return { duration, timeStart, timeEnd, type, jobUid }

/-- The request for a new payment line item, or for a new version of one. -/
structure PaymentRequest where
  jobUid : Option String
  timelogUid : Option String
  amount : Option Float
  status : Option String

instance : Request PaymentRequest where
  fields := [⟨"job_uid", .text, true⟩, ⟨"timelog_uid", .text, true⟩, ⟨"amount", .real, true⟩,
    ⟨"status", .text, true⟩]
  ofFlat o :=
    { jobUid := o.text? "job_uid"
      timelogUid := o.text? "timelog_uid"
      amount := o.real? "amount"
      status := o.text? "status" }

/-- The payment line item. -/
def PaymentRequest.check (r : PaymentRequest) : Except Invalid Payment := do
  let jobUid ← required "job_uid" r.jobUid
  let timelogUid ← required "timelog_uid" r.timelogUid
  let amount ← required "amount" r.amount
  let amount ← nonNegative "amount" amount
  let status ← requiredText "status" r.status
  return { jobUid, timelogUid, amount, status }

end Payroll
