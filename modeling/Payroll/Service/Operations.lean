import Payroll.Service.Reference
import Payroll.Service.Request
/-!
What the service does. To write a record it checks the request, looks up what the record refers to,
and then writes once.
-/

namespace Payroll.Service

/-- The present time. -/
def now : Service String :=
  .ofLedger fun l =>
    let (time, supply) := l.supply.time
    (.ok time, { l with supply })

/-- Creates a company. -/
def createCompany (r : CompanyRequest) : Service Company := do
  let name ← ofCheck r.check
  let time ← now
  .ofLedger (·.add { id := "", name, createdAt := time, updatedAt := time })

/-- The company of an id. -/
def company (k : Consistency) (id : String) : Service Company := do
  orMissing (.company id) (← .ofLedger (·.get? Company k id))

/-- Creates a contractor. -/
def createContractor (r : ContractorRequest) : Service Contractor := do
  let (name, email, phone) ← ofCheck r.check
  let time ← now
  .ofLedger (·.add { id := "", name, email, phone, createdAt := time, updatedAt := time })

/-- The contractor of an id. -/
def contractor (k : Consistency) (id : String) : Service Contractor := do
  orMissing (.contractor id) (← .ofLedger (·.get? Contractor k id))

/-- Creates a job. -/
def createJob (r : JobRequest) : Service (Version Job) := do
  let job ← ofCheck r.check
  Writing.perform ⟨job.references, (·.create job)⟩

/-- Adds a version to a job. -/
def updateJob (id : String) (r : JobRequest) : Service (Version Job) := do
  let job ← ofCheck r.check
  Writing.perform ⟨job.references, (·.append id job)⟩

/-- The latest version of a job. -/
def job (k : Consistency) (id : String) : Service (Version Job) := do
  orMissing (.job id) (← .ofLedger (·.latest? Job k id))

/-- All versions of a job, by number. -/
def jobVersions (k : Consistency) (id : String) : Service (List (Version Job)) := do
  match ← .ofLedger (·.history Job k id) with
  | [] => throw (.notFound (.job id))
  | versions => return versions

/-- The jobs with a status. -/
def jobsWithStatus (k : Consistency) (status : String) : Service (List (Version Job)) :=
  .ofLedger (·.latestWhere Job k (.one "status" (.text status)))

/-- The status of a job that is being worked on. -/
def activeStatus : String := "active"

/-- The jobs that a contractor is working on. -/
def activeJobs (k : Consistency) (contractor : String) : Service (List (Version Job)) :=
  .ofLedger (·.latestWhere Job k
    ⟨[("contractor_id", .text contractor), ("status", .text activeStatus)]⟩)

/-- Creates a timelog. -/
def createTimelog (r : TimelogRequest) : Service (Version Timelog) := do
  let timelog ← ofCheck r.check
  Writing.perform ⟨timelog.references, (·.create timelog)⟩

/-- Creates a payment line item. -/
def createPayment (r : PaymentRequest) : Service (Version Payment) := do
  let payment ← ofCheck r.check
  Writing.perform ⟨payment.references, (·.create payment)⟩

/-- Adds a version to a payment line item. -/
def updatePayment (id : String) (r : PaymentRequest) : Service (Version Payment) := do
  let payment ← ofCheck r.check
  Writing.perform ⟨payment.references, (·.append id payment)⟩

/-- Refuses a period that ends before it starts. -/
def checkPeriod (start stop : Int) : Service Unit :=
  if stop < start then throw (.invalid .windowReversed) else return

/-- The timelogs of a contractor within a period. -/
def timelogsIn (contractor : String) (start stop : Int) : Service (List (Version Timelog)) := do
  checkPeriod start stop
  .ofLedger (·.timelogsIn contractor start stop)

/-- The payment line items of a contractor for timelogs within a period. -/
def paymentsIn (contractor : String) (start stop : Int) : Service (List (Version Payment)) := do
  checkPeriod start stop
  .ofLedger (·.paymentsIn contractor start stop)

end Payroll.Service
