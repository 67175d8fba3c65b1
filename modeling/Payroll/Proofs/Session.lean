import Payroll.Proofs.Kind
import Payroll.Service.Operations
/-!
# Requests that are served at the same time

The service writes a record in several atomic operations on the store: it looks up what the record refers
to, one reference after the other, and then writes once. The operations of requests that are served at
the same time come in any order, and a request can be given up between any two of its own.

## Key results

- `serve_eq`: what the service does for a request is the operations of the request, one after the other
- `run_alone`: a request that no other one comes between is served as the service serves it
-/

namespace Payroll

/-! ## Work that is performed in parts -/

namespace Service

variable {β γ : Type}

/-- What follows some work is performed if the work succeeds. -/
theorem perform_bind (x : Service β) (f : β → Service γ) (l : Ledger) :
    (x >>= f).perform l =
      match x.perform l with
      | (.ok b, l) => (f b).perform l
      | (.error fault, l) => (.error fault, l) := by
  show ExceptT.bindCont f (x l).1 (x l).2 = _
  rw [perform]
  rcases x l with ⟨fault | b, l'⟩
  · rfl
  · rfl

theorem perform_ofLedger (f : Ledger → Except StoreFault β × Ledger) (l : Ledger) :
    (ofLedger f).perform l = ((f l).1.mapError .ofStore, (f l).2) := rfl

theorem perform_now (l : Ledger) :
    now.perform l = (.ok l.supply.time.1, { l with supply := l.supply.time.2 }) := rfl

@[simp] theorem perform_pure (b : β) (l : Ledger) : (pure b : Service β).perform l = (.ok b, l) := rfl

/-- Leaving the answer aside makes no difference to the ledger. -/
@[simp] theorem perform_discard (x : Service β) (l : Ledger) :
    (discard x).perform l = ((x.perform l).1.map fun _ => (), (x.perform l).2) := by
  have hbind : discard x = x >>= fun _ => pure () := by
    simp [Functor.discard, LawfulFunctor.map_const]
  rw [hbind, perform_bind]
  rcases x.perform l with ⟨fault | b, l'⟩
  · rfl
  · rfl

end Service

/-! ## Requests and what they write -/

/-- A request to write a record. -/
inductive Submission where
  | company (r : CompanyRequest)
  | contractor (r : ContractorRequest)
  | job (r : JobRequest)
  | jobVersion (id : String) (r : JobRequest)
  | timelog (r : TimelogRequest)
  | payment (r : PaymentRequest)
  | paymentVersion (id : String) (r : PaymentRequest)

/-- What the service does for a request, its answer aside. -/
def Submission.serve : Submission → Service Unit
  | .company r => discard (Service.createCompany r)
  | .contractor r => discard (Service.createContractor r)
  | .job r => discard (Service.createJob r)
  | .jobVersion id r => discard (Service.updateJob id r)
  | .timelog r => discard (Service.createTimelog r)
  | .payment r => discard (Service.createPayment r)
  | .paymentVersion id r => discard (Service.updatePayment id r)

/-- What is to be written for a request that has passed its checks. -/
inductive Draft where
  | company (name : String)
  | contractor (name email phone : String)
  | create (k : VersionKind) (a : k.Data)
  | append (k : VersionKind) (id : String) (a : k.Data)

/-- What is to be written for a request, or the first thing that is wrong with it. -/
def Submission.check : Submission → Except Invalid Draft
  | .company r => r.check.map .company
  | .contractor r => r.check.map fun (name, email, phone) => .contractor name email phone
  | .job r => r.check.map (.create .job)
  | .jobVersion id r => r.check.map (.append .job id)
  | .timelog r => r.check.map (.create .timelog)
  | .payment r => r.check.map (.create .payment)
  | .paymentVersion id r => r.check.map (.append .payment id)

/-- What data of a kind refer to. -/
def VersionKind.references : (k : VersionKind) → k.Data → List Reference
  | .job, j => Job.references j
  | .timelog, t => Timelog.references t
  | .payment, p => Payment.references p

namespace Draft

/-- The data of a version that is to be written, if it is one. -/
def data? : Draft → Option ((k : VersionKind) × k.Data)
  | .company _ | .contractor _ _ _ => none
  | .create k a | .append k _ a => some ⟨k, a⟩

/-- What has to be there before the draft is written. -/
def references : Draft → List Reference
  | .company _ | .contractor _ _ _ => []
  | .create k a | .append k _ a => k.references a

theorem references_of_data? {d : Draft} {k : VersionKind} {a : k.Data} (h : d.data? = some ⟨k, a⟩) :
    d.references = k.references a := by
  cases d with
  | company | contractor => exact nomatch h
  | create k' a' | append k' id a' =>
    cases h
    rfl

/-- Writes the draft, in one operation. -/
def write : Draft → Service Unit
  | .company name => do
    let time ← Service.now
    discard (Service.ofLedger fun l =>
      Ledger.add (α := Company) l { id := "", name, createdAt := time, updatedAt := time })
  | .contractor name email phone => do
    let time ← Service.now
    discard (Service.ofLedger fun l =>
      Ledger.add (α := Contractor) l
        { id := "", name, email, phone, createdAt := time, updatedAt := time })
  | .create _ a => discard (Service.ofLedger (·.create a))
  | .append _ id a => discard (Service.ofLedger (·.append id a))

end Draft

/-! ## Requests that are being served -/

/-- A request that is being served: the references that are still to be looked up, and what is written
after that. -/
structure Pending where
  references : List Reference
  draft : Draft

namespace Pending

/-- The next operation of the request, and what is left to be done after it, if anything. -/
def next : Pending → Service (Option Pending)
  | ⟨r :: rs, d⟩ => do
    r.check
    return some ⟨rs, d⟩
  | ⟨[], d⟩ => do
    d.write
    return none

/-- All operations that are left, one after the other. -/
def finish (p : Pending) : Service Unit := do
  p.references.forM Reference.check
  p.draft.write

theorem perform_next_cons (r : Reference) (rs : List Reference) (d : Draft) (l : Ledger) :
    (next ⟨r :: rs, d⟩).perform l =
      ((r.check.perform l).1.map fun _ => some ⟨rs, d⟩, (r.check.perform l).2) := by
  rw [next, Service.perform_bind]
  rcases r.check.perform l with ⟨fault | b, l'⟩
  · rfl
  · rfl

theorem perform_next_nil (d : Draft) (l : Ledger) :
    (next ⟨[], d⟩).perform l = ((d.write.perform l).1.map fun _ => none, (d.write.perform l).2) := by
  rw [next, Service.perform_bind]
  rcases d.write.perform l with ⟨fault | b, l'⟩
  · rfl
  · rfl

theorem finish_cons (r : Reference) (rs : List Reference) (d : Draft) :
    finish ⟨r :: rs, d⟩ = r.check >>= fun _ => finish ⟨rs, d⟩ := by
  simp [finish]

theorem finish_nil (d : Draft) : finish ⟨[], d⟩ = d.write := by
  simp [finish]

end Pending

/-- Looking up references and then writing, the answer aside. -/
private theorem discard_perform {β : Type} (w : Writing β) :
    discard w.perform =
      w.references.forM Reference.check >>= fun _ => discard (Service.ofLedger w.write) := by
  simp [Writing.perform, Functor.discard, LawfulFunctor.map_const, map_bind]

/-- What the service does for a request is to check it and then to do its operations, one after the
other. -/
theorem Submission.serve_eq (s : Submission) :
    s.serve = Service.ofCheck s.check >>= fun d => Pending.finish ⟨d.references, d⟩ := by
  cases s with
  | company r =>
    rw [serve, Service.createCompany, check]
    cases r.check with
    | error cause => rfl
    | ok name => rfl
  | contractor r =>
    rw [serve, Service.createContractor, check]
    cases r.check with
    | error cause => rfl
    | ok fields => rfl
  | job r =>
    rw [serve, Service.createJob, check]
    cases r.check with
    | error cause => rfl
    | ok j => exact discard_perform ⟨j.references, (·.create j)⟩
  | jobVersion id r =>
    rw [serve, Service.updateJob, check]
    cases r.check with
    | error cause => rfl
    | ok j => exact discard_perform ⟨j.references, (·.append id j)⟩
  | timelog r =>
    rw [serve, Service.createTimelog, check]
    cases r.check with
    | error cause => rfl
    | ok t => exact discard_perform ⟨t.references, (·.create t)⟩
  | payment r =>
    rw [serve, Service.createPayment, check]
    cases r.check with
    | error cause => rfl
    | ok p => exact discard_perform ⟨p.references, (·.create p)⟩
  | paymentVersion id r =>
    rw [serve, Service.updatePayment, check]
    cases r.check with
    | error cause => rfl
    | ok p => exact discard_perform ⟨p.references, (·.append id p)⟩

/-! ## Any number of requests -/

/-- The ledger and the requests that are being served. -/
structure Session where
  ledger : Ledger
  pending : List Pending

/-- What can happen next: a request comes in, a request does its next operation, or a request is given
up. -/
inductive Action where
  | receive (s : Submission)
  | advance (i : Nat)
  | abandon (i : Nat)

namespace Session

/-- The session after an action. A request that fails is not served any further. -/
def act (s : Session) : Action → Session
  | .receive r =>
    match r.check with
    | .ok d => { s with pending := s.pending ++ [⟨d.references, d⟩] }
    | .error _ => s
  | .advance i =>
    match s.pending[i]? with
    | none => s
    | some p =>
      match p.next.perform s.ledger with
      | (.ok (some p), ledger) => { ledger, pending := s.pending.set i p }
      | (.ok none, ledger) | (.error _, ledger) => { ledger, pending := s.pending.eraseIdx i }
  | .abandon i => { s with pending := s.pending.eraseIdx i }

/-- The session after any number of actions. -/
def run (s : Session) (actions : List Action) : Session :=
  actions.foldl act s

/-- Nothing happens to a request that is not there. -/
private theorem run_advance_nil (l : Ledger) (n : Nat) :
    (Session.mk l []).run (List.replicate n (.advance 0)) = ⟨l, []⟩ := by
  induction n with
  | zero => rfl
  | succ n ih => exact ih

/-- A request whose operations are done without others between them is served to its end. -/
private theorem run_advance (l : Ledger) (rs : List Reference) (d : Draft) :
    (Session.mk l [⟨rs, d⟩]).run (List.replicate (rs.length + 1) (.advance 0)) =
      ⟨((Pending.finish ⟨rs, d⟩).perform l).2, []⟩ := by
  induction rs generalizing l with
  | nil =>
    -- What is left is the write, after which the request is gone.
    rw [Pending.finish_nil]
    simp only [run, List.length_nil, Nat.zero_add, List.replicate_one, List.foldl_cons,
      List.foldl_nil, act, List.getElem?_cons_zero, Pending.perform_next_nil]
    rcases d.write.perform l with ⟨fault | b, l'⟩
    · rfl
    · rfl
  | cons r rs ih =>
    rw [Pending.finish_cons, Service.perform_bind, List.length_cons, List.replicate_succ, run,
      List.foldl_cons]
    simp only [act, List.getElem?_cons_zero, Pending.perform_next_cons]
    rcases r.check.perform l with ⟨fault | b, l'⟩
    · -- The request is gone, so the turns that are left are idle.
      exact run_advance_nil l' _
    · exact ih l'

/-- A request that no other one comes between is served as the service serves it. -/
theorem run_alone (l : Ledger) (s : Submission) : ∃ n,
    (Session.mk l []).run (.receive s :: List.replicate n (.advance 0)) =
      ⟨(s.serve.perform l).2, []⟩ := by
  rw [s.serve_eq]
  cases hs : s.check with
  | error cause =>
    refine ⟨0, ?_⟩
    simp only [run, List.replicate_zero, List.foldl_cons, List.foldl_nil, act, hs]
    rfl
  | ok d =>
    refine ⟨d.references.length + 1, ?_⟩
    rw [run, List.foldl_cons]
    simp only [act, hs, List.nil_append]
    exact run_advance l d.references d

end Session

end Payroll
