import Payroll.Http.Interface
import Payroll.Proofs.Effect
/-!
# What a call does to the databases

A call is taken apart before the service does anything for it, and the service looks up what a record
refers to before it writes the record, in one operation. So a call that is not answered as it asks has
changed nothing, and one that is has changed what the answer shows.

## Key results

- `quiet_work`: a call that only reads changes nothing
- `makes_work`: a call that writes a record fails, or writes the record that it shows
- `answer_cases`: what a call changes
- `allOrNothing_answer`: what an answer tells about the databases
-/

namespace Payroll.Http

open Database (Begun Continued Recorded)
open Ledger (Makes Quiet)

variable {β γ : Type} {limits : Limits} {c : Call} {l : Ledger}

/-! ## Work that is done in parts -/

/-- What the service gives, as it is written for the caller. -/
def finished (write : β → Nat × Json) (r : Except ServiceFault β × Ledger) :
    Except Fault (Nat × Json) × Ledger :=
  ((r.1.map write).mapError .service, r.2)

namespace Work

variable {f : β → Work γ} {s : Service β} {write : β → Nat × Json}
  {q : γ → Database → Database → Prop}

/-- Nothing is done for a call of which a part is wrong. -/
theorem run_ofCall (r : Except BadCall β) (f : β → Work γ) (l : Ledger) :
    (ofCall r >>= f).run l =
      match r with
      | .ok b => (f b).run l
      | .error bad => (.error (.badCall bad), l) := by
  cases r with
  | error bad => rfl
  | ok b => rfl

theorem run_ofService (s : Service β) (write : β → Nat × Json) (l : Ledger) :
    (ofService s >>= fun b => pure (write b)).run l = finished write (s.perform l) := by
  have hbind : (ofService s >>= fun b => pure (write b)).run l =
      ExceptT.bindCont (m := StateM Ledger) (fun b => (pure (write b) : Work (Nat × Json)))
        ((s.perform l).1.mapError .service) (s.perform l).2 := rfl
  rw [hbind]
  rcases s.perform l with ⟨fault | b, l'⟩
  · rfl
  · rfl

theorem quiet_ofCall {r : Except BadCall β} (hf : ∀ b, Quiet (f b).run) :
    Quiet (ofCall r >>= f).run := by
  intro l
  rw [run_ofCall]
  cases r with
  | error bad => exact ⟨rfl, rfl⟩
  | ok b => exact hf b l

theorem quiet_ofService (hs : Quiet s.perform) :
    Quiet (ofService s >>= fun b => pure (write b)).run := by
  intro l
  rw [run_ofService]
  exact hs l

theorem makes_ofCall {r : Except BadCall β} (hf : ∀ b, r = .ok b → Makes (f b).run q) :
    Makes (ofCall r >>= f).run q := by
  intro l
  rw [run_ofCall]
  cases r with
  | error bad => exact ⟨rfl, Or.inl ⟨_, rfl, rfl⟩⟩
  | ok b => exact hf b rfl l

theorem makes_ofService {q : β → Database → Database → Prop} (hs : Makes s.perform q) :
    Makes (ofService s >>= fun b => pure (write b)).run
      fun found d d' => ∃ b, found = write b ∧ q b d d' := by
  intro l
  rw [run_ofService, finished]
  obtain ⟨hreplicas, ⟨fault, hfail, hsame⟩ | ⟨b, hok, hq⟩⟩ := hs l
  · exact ⟨hreplicas, Or.inl ⟨.service fault, by rw [hfail]; rfl, hsame⟩⟩
  · exact ⟨hreplicas, Or.inr ⟨write b, by rw [hok]; rfl, b, rfl, hq⟩⟩

end Work

/-! ## Calls that only read -/

theorem quiet_reading {segment : String} {read : String → Service β} {write : β → Json}
    (hread : ∀ id, Quiet (read id).perform) : Quiet (reading segment read write).run :=
  Work.quiet_ofCall fun id => Work.quiet_ofService (hread id)

theorem quiet_readingPeriod {α : Type} [VersionedData α] {segment : String}
    {read : String → Int → Int → Service (List (Version α))}
    (hread : ∀ id start stop, Quiet (read id start stop).perform) :
    Quiet (readingPeriod c segment read).run :=
  Work.quiet_ofCall fun id => Work.quiet_ofCall fun start => Work.quiet_ofCall fun stop =>
    Work.quiet_ofService (hread id start stop)

theorem quiet_readingStatus : Quiet (readingStatus c).run :=
  Work.quiet_ofCall fun _ => Work.quiet_ofService ((Service.isRead_jobsWithStatus _).quiet _)

/-- A call whose method does not write changes nothing. -/
theorem quiet_work (limits : Limits) {r : Resource} (hr : c.method ∈ r.methods) (hpost : c.method ≠ .post)
    (hput : c.method ≠ .put) : Quiet (work limits c r).run := by
  -- A resource that only knows other methods is not asked for with this one.
  have hmem : c.method ∈ r.methods.filter fun m => m ≠ .post && m ≠ .put := by
    simp [hr, hpost, hput]
  cases r with
  | companies | contractors | jobs | timelogs | payments | payment => exact nomatch hmem
  | health => exact fun _ => ⟨rfl, rfl⟩
  | company id => exact quiet_reading fun id => (Service.isRead_company id).quiet _
  | contractor id => exact quiet_reading fun id => (Service.isRead_contractor id).quiet _
  | timelogsOf id => exact quiet_readingPeriod Service.quiet_timelogsIn
  | paymentsOf id => exact quiet_readingPeriod Service.quiet_paymentsIn
  | extendedJobs => exact quiet_readingStatus
  | activeJobs id => exact quiet_reading fun id => (Service.isRead_activeJobs id).quiet _
  | job id =>
    rw [work, if_neg hput]
    exact quiet_reading fun id => (Service.isRead_job id).quiet _
  | jobVersions id => exact quiet_reading fun id => (Service.isRead_jobVersions id).quiet _

/-! ## Calls that write -/

namespace Resource

/-- Where records of a kind that is changed in place are created. -/
def ofStatics : StaticKind → Resource
  | .company => .companies
  | .contractor => .contractors

/-- Where records that are kept in versions are created. -/
def ofVersions : VersionKind → Resource
  | .job => .jobs
  | .timelog => .timelogs
  | .payment => .payments

/-- The methods with which a resource is asked to write a record. -/
def writing (r : Resource) : List Method :=
  r.methods.filter fun m => m = .post || m = .put

theorem mem_writing {r : Resource} {m : Method} :
    m ∈ r.writing ↔ m ∈ r.methods ∧ (m = .post ∨ m = .put) := by
  simp [writing]

/-- Where versions are added to a record, if that can be asked for. The id is as it is written. -/
def ofRecord? : VersionKind → String → Option Resource
  | .job, segment => some (.job segment)
  | .timelog, _ => none
  | .payment, segment => some (.payment segment)

end Resource

/-- What a call of a resource has changed in a database, where the answer has this body. -/
inductive Shown : Resource → Method → Json → Database → Database → Prop where
  | recorded {s : StaticKind} {a : s.Data} {d d' : Database} (h : Recorded s a d d') :
    Shown (.ofStatics s) .post (StaticData.toJson a) d d'
  | begun {k : VersionKind} {v : Version k.Data} {d d' : Database} (h : Begun k v d d') :
    Shown (.ofVersions k) .post v.toJson d d'
  | continued {k : VersionKind} {segment id : String} {r : Resource} {v : Version k.Data}
    {d d' : Database} (hr : Resource.ofRecord? k segment = some r) (hid : Call.id segment = .ok id)
    (h : Continued k id v d d') : Shown r .put v.toJson d d'

/-- A status that says that the call is answered as it asks. -/
def IsSuccess (status : Nat) : Prop :=
  200 ≤ status ∧ status < 300

instance : DecidablePred IsSuccess :=
  fun status => inferInstanceAs (Decidable (200 ≤ status ∧ status < 300))

/-- No fault is told with such a status. -/
theorem Fault.not_isSuccess (fault : Fault) : ¬IsSuccess fault.status := by
  have hstatus : ∀ status ∈ [400, 404, 409, 500, 504], ¬IsSuccess status := by decide
  refine hstatus _ ?_
  cases fault with
  | badCall cause => simp [status]
  | service cause => cases cause <;> simp [status]

/-- What is found is told with a status of success, and it shows what is changed. -/
def Succeeds (r : Resource) (m : Method) (found : Nat × Json) (d d' : Database) : Prop :=
  IsSuccess found.1 ∧ Shown r m found.2 d d'

theorem makes_creating {ρ : Type} [Request ρ] {create : ρ → Service β} {write : β → Json}
    {q : β → Database → Database → Prop} {r : Resource}
    (hcreate : ∀ ρ, Makes (create ρ).perform q)
    (hq : ∀ {b d d'}, q b d d' → Shown r .post (write b) d d') :
    Makes (creating limits c create write).run (Succeeds r .post) := by
  refine Work.makes_ofCall fun request _ => .mono (Work.makes_ofService (hcreate request)) ?_
  rintro _ d d' ⟨b, rfl, h⟩
  exact ⟨(by decide : IsSuccess 201), hq h⟩

theorem makes_updating {ρ : Type} [Request ρ] {k : VersionKind} {segment : String}
    {update : String → ρ → Service (Version k.Data)} {r : Resource}
    (hr : Resource.ofRecord? k segment = some r)
    (hupdate : ∀ id ρ, Makes (update id ρ).perform (Continued k id)) :
    Makes (updating limits c segment update Version.toJson).run (Succeeds r .put) := by
  refine Work.makes_ofCall fun id hid => Work.makes_ofCall fun request _ =>
    .mono (Work.makes_ofService (hupdate id request)) ?_
  rintro _ d d' ⟨v, rfl, h⟩
  exact ⟨(by decide : IsSuccess 200), .continued hr hid h⟩

/-- A call whose method writes fails and changes nothing, or is answered with what it has written. -/
theorem makes_work (limits : Limits) {r : Resource} (hr : c.method ∈ r.writing) :
    Makes (work limits c r).run (Succeeds r c.method) := by
  cases r with
  | health | company | contractor | timelogsOf | paymentsOf | extendedJobs | activeJobs
  | jobVersions => exact nomatch hr
  | companies =>
    rw [List.mem_singleton.mp hr]
    exact makes_creating Service.makes_createCompany (.recorded (s := .company))
  | contractors =>
    rw [List.mem_singleton.mp hr]
    exact makes_creating Service.makes_createContractor (.recorded (s := .contractor))
  | jobs =>
    rw [List.mem_singleton.mp hr]
    exact makes_creating Service.makes_createJob (.begun (k := .job))
  | timelogs =>
    rw [List.mem_singleton.mp hr]
    exact makes_creating Service.makes_createTimelog (.begun (k := .timelog))
  | payments =>
    rw [List.mem_singleton.mp hr]
    exact makes_creating Service.makes_createPayment (.begun (k := .payment))
  | job segment =>
    have hput : c.method = .put := List.mem_singleton.mp hr
    rw [work, if_pos hput, hput]
    exact makes_updating (k := .job) rfl Service.makes_updateJob
  | payment segment =>
    rw [List.mem_singleton.mp hr]
    exact makes_updating (k := .payment) rfl Service.makes_updatePayment

/-! ## Answers -/

/-- The answer to a call whose work has this outcome. -/
def Answer.ofOutcome (c : Call) (requestId : String) (outcome : Except Fault (Nat × Json)) : Answer :=
  let (status, json) := match outcome with
    | .ok found => found
    | .error fault => (fault.status, fault.toJson)
  { status, allow := none, contentType := some "application/json", requestId,
    body := if c.method = .head then none else some json }

/-- The answer to a call for which nothing is done. -/
def Answer.idle (c : Call) (requestId : String) : Answer :=
  let resource := Resource.ofPath? c.target.path
  { status := if c.method = .options then 200 else if resource.isNone then 404 else 405,
    allow := resource.map Resource.allow, contentType := none, requestId, body := none }

/-- Only asking for the methods of a resource succeeds without anything being done. -/
theorem Answer.method_of_idle {requestId : String} (h : IsSuccess (idle c requestId).status) :
    c.method = .options := by
  rw [idle] at h
  dsimp only at h
  split at h
  · assumption
  · split at h
    · exact absurd h (by decide)
    · exact absurd h (by decide)

/-- Drawing an id for a call changes no database. -/
theorem cluster_requestId (c : Call) (l : Ledger) : (requestId c l).2.cluster = l.cluster := by
  rw [requestId]
  split <;> rfl

theorem options_not_mem_methods (r : Resource) : Method.options ∉ r.methods := by
  cases r <;> simp [Resource.methods]

/-- The call is for a resource that knows its method. -/
structure Call.Reaches (c : Call) (r : Resource) : Prop where
  path : Resource.ofPath? c.target.path = some r
  method : c.method ∈ r.methods

/-- A resource that knows the method does what the call asks. -/
theorem answer_of_reaches {r : Resource} (hr : c.Reaches r) :
    answer limits c l =
      (.ofOutcome c (requestId c l).1 ((work limits c r).run (requestId c l).2).1,
        ((work limits c r).run (requestId c l).2).2) := by
  have hoptions : c.method ≠ .options := fun h => options_not_mem_methods r (h ▸ hr.method)
  simp only [answer, hr.path, if_neg hoptions, if_pos hr.method]
  rfl

/-- Nothing is done for a call that is for no resource or of a method that the resource does not know. -/
theorem answer_of_not_reaches (limits : Limits) (l : Ledger) (hr : ¬∃ r, c.Reaches r) :
    answer limits c l = (.idle c (requestId c l).1, (requestId c l).2) := by
  rw [answer, Answer.idle]
  dsimp only
  split
  · rfl
  · split
    · rename_i hpath
      rw [hpath]
      rfl
    · rename_i r hpath
      rw [if_neg fun hmethod => hr ⟨r, hpath, hmethod⟩, hpath]
      rfl

/-- The answers to calls that come one after the other, and the ledger after them. -/
def answers : Ledger → List (Limits × Call) → List Answer × Ledger
  | l, [] => ([], l)
  | l, (limits, c) :: calls =>
    let (a, l) := answer limits c l
    let (as, l) := answers l calls
    (a :: as, l)

theorem answers_cons (l : Ledger) (limits : Limits) (c : Call) (calls : List (Limits × Call)) :
    answers l ((limits, c) :: calls) =
      ((answer limits c l).1 :: (answers (answer limits c l).2 calls).1,
        (answers (answer limits c l).2 calls).2) := rfl

theorem answers_append (l : Ledger) (calls calls' : List (Limits × Call)) :
    answers l (calls ++ calls') =
      ((answers l calls).1 ++ (answers (answers l calls).2 calls').1,
        (answers (answers l calls).2 calls').2) := by
  induction calls generalizing l with
  | nil => rfl
  | cons call calls ih =>
    rw [List.cons_append, answers_cons, ih]
    rfl

/-- A call changes no database, because it fails or because it only reads, or it writes a record and is
answered with what it has written. -/
theorem answer_cases (limits : Limits) (c : Call) (l : Ledger) :
    (answer limits c l).2.cluster.replicas = l.cluster.replicas ∧
      (((c.method = .post ∨ c.method = .put → ¬IsSuccess (answer limits c l).1.status) ∧
          (answer limits c l).2.cluster.primary = l.cluster.primary) ∨
        (c.method = .post ∨ c.method = .put) ∧ IsSuccess (answer limits c l).1.status ∧
          ∃ r json, Resource.ofPath? c.target.path = some r ∧
            (answer limits c l).1.body = some json ∧
            Shown r c.method json l.cluster.primary (answer limits c l).2.cluster.primary) := by
  have hid := cluster_requestId c l
  by_cases hr : ∃ r, c.Reaches r
  · obtain ⟨r, hr⟩ := hr
    rw [answer_of_reaches hr]
    by_cases hwrites : c.method = .post ∨ c.method = .put
    · have hwriting := Resource.mem_writing.mpr ⟨hr.method, hwrites⟩
      obtain ⟨hreplicas, hcases⟩ := makes_work limits hwriting (requestId c l).2
      rw [hid] at hreplicas hcases
      rcases hcases with ⟨fault, hfail, hsame⟩ | ⟨found, hok, hsuccess, hshown⟩
      · rw [hfail]
        exact ⟨hreplicas, Or.inl ⟨fun _ => fault.not_isSuccess, hsame⟩⟩
      · rw [hok]
        -- Only an answer to a call for the head is without its body.
        have hhead : c.method ≠ .head := by
          intro h
          rw [h] at hwrites
          exact absurd hwrites (by decide)
        exact ⟨hreplicas, Or.inr ⟨hwrites, hsuccess, r, found.2, hr.path, if_neg hhead, hshown⟩⟩
    · obtain ⟨hpost, hput⟩ := not_or.mp hwrites
      obtain ⟨hsame, hreplicas⟩ := quiet_work limits hr.method hpost hput (requestId c l).2
      rw [hid] at hsame hreplicas
      exact ⟨hreplicas, Or.inl ⟨fun h => absurd h hwrites, hsame⟩⟩
  · rw [answer_of_not_reaches limits l hr]
    refine ⟨by rw [hid], Or.inl ⟨fun hwrites h => ?_, by rw [hid]⟩⟩
    rw [Answer.method_of_idle h] at hwrites
    exact absurd hwrites (by decide)

/-- What an answer tells about the databases before the call and after it. -/
structure AllOrNothing (c : Call) (a : Answer) (l l' : Ledger) : Prop where
  /-- Replicas are never written. -/
  replicas : l'.cluster.replicas = l.cluster.replicas
  /-- A call that fails changes nothing. -/
  failed : ¬IsSuccess a.status → l'.cluster.primary = l.cluster.primary
  /-- A call that only reads changes nothing, whatever it is answered. -/
  reads : c.method ≠ .post → c.method ≠ .put → l'.cluster.primary = l.cluster.primary
  /-- A call that writes and does not fail changes what the answer shows. -/
  writes : c.method = .post ∨ c.method = .put → IsSuccess a.status →
    ∃ r json, Resource.ofPath? c.target.path = some r ∧ a.body = some json ∧
      Shown r c.method json l.cluster.primary l'.cluster.primary

/-- A call that is not answered as it asks has changed nothing, and one that is has changed what the
answer shows. -/
theorem allOrNothing_answer (limits : Limits) (c : Call) (l : Ledger) :
    AllOrNothing c (answer limits c l).1 l (answer limits c l).2 := by
  obtain ⟨hreplicas, ⟨hfails, hsame⟩ | ⟨hwrites, hsuccess, hshown⟩⟩ := answer_cases limits c l
  · exact ⟨hreplicas, fun _ => hsame, fun _ _ => hsame,
      fun hwrites hsuccess => absurd hsuccess (hfails hwrites)⟩
  · exact ⟨hreplicas, fun hfailed => absurd hsuccess hfailed,
      fun hpost hput => absurd hwrites (not_or.mpr ⟨hpost, hput⟩), fun _ _ => hshown⟩

end Payroll.Http
