import Payroll.Service.Fault
import Payroll.Store.Ledger
/-!
What the data of a record refers to. Every reference is looked up on the primary database before the
record is written; which version of a job a timelog was logged against never changes, so a reference
that held when it was looked up still holds when the record is written.
-/

namespace Payroll

/-- Work of the service: it reads and changes the ledger, and may fail. -/
abbrev Service := ExceptT ServiceFault (StateM Ledger)

namespace Service

variable {β : Type}

/-- An operation of the ledger as work of the service. -/
def ofLedger (f : Ledger → Except StoreFault β × Ledger) : Service β :=
  ExceptT.mk fun l =>
    let (outcome, l) := f l
    (outcome.mapError .ofStore, l)

/-- A check that needs no ledger. -/
def ofCheck (r : Except Invalid β) : Service β :=
  ExceptT.mk (pure (r.mapError .invalid))

/-- The value, or the fault that it is missing. -/
def orMissing (what : Missing) : Option β → Service β
  | some b => return b
  | none => throw (.notFound what)

/-- The outcome of some work, and the ledger after it. -/
def perform (s : Service β) (l : Ledger) : Except ServiceFault β × Ledger :=
  s l

end Service

/-- Something that a record refers to. -/
inductive Reference where
  | company (id : String)
  | contractor (id : String)
  | job (uid : String)
  | timelog (uid jobUid : String)
deriving DecidableEq

namespace Reference

/-- Looks the reference up on the primary database. A timelog must have been logged against the
given version of a job. -/
def check : Reference → Service Unit
  | .company id => do
    match ← .ofLedger (·.get? Company .strong id) with
    | some _ => return
    | none => throw (.invalid (.noCompany id))
  | .contractor id => do
    match ← .ofLedger (·.get? Contractor .strong id) with
    | some _ => return
    | none => throw (.invalid (.noContractor id))
  | .job uid => do
    match ← .ofLedger (·.ofUid? Job .strong uid) with
    | some _ => return
    | none => throw (.invalid (.noJobVersion uid))
  | .timelog uid jobUid => do
    match ← .ofLedger (·.ofUid? Timelog .strong uid) with
    | some t => if t.data.jobUid ≠ jobUid then throw (.invalid .otherJob)
    | none => throw (.invalid (.noTimelogVersion uid))

end Reference

/-- A record to be written: what it refers to, and the one operation that writes it. -/
structure Writing (β : Type) where
  references : List Reference
  write : Ledger → Except StoreFault β × Ledger

/-- Looks the references up, one after the other, and then writes. Other work may come between any
two of these operations. -/
def Writing.perform {β : Type} (w : Writing β) : Service β := do
  w.references.forM Reference.check
  .ofLedger w.write

/-- What a job refers to. -/
def Job.references (j : Job) : List Reference :=
  [.company j.companyId, .contractor j.contractorId]

/-- What a timelog refers to. -/
def Timelog.references (t : Timelog) : List Reference :=
  [.job t.jobUid]

/-- What a payment line item refers to. -/
def Payment.references (p : Payment) : List Reference :=
  [.job p.jobUid, .timelog p.timelogUid p.jobUid]

end Payroll
