import Payroll.Proofs.Period
import Payroll.Proofs.Served
/-!
# The two resources for a period agree

A contractor's payment line items within a period are those for the contractor's timelogs within it,
although one query reaches the contractor through the job of the payment line item and the other one
through the job of the timelog. Both are the same job, since a payment line item was only written for a
timelog of its job, and no row of a job, a timelog or a payment line item is ever given another one.

## Key results

- `gives_of_query`: what is answered to a call that asks for a period
- `settled_answers`: what the tables hold after any calls
- `periodsAgree_answers`: what the two resources tell in every state that calls can reach
-/

namespace Payroll

open Database (Later Within WorkedBy)
open Sql (Refinement)

namespace Http

variable {α : Type} {limits : Limits} {c : Call} {l : Ledger} {contractor : String} {start stop : Int}

/-! ## Calls that ask for a period -/

/-- The call asks a resource of a contractor for a period. -/
structure Call.Asks (c : Call) (resource : String → Resource) (contractor : String) (start stop : Int) :
    Prop where
  method : c.method = .get
  path : ∃ segment, Resource.ofPath? c.target.path = some (resource segment) ∧
    Call.id segment = .ok contractor
  start : c.queryInt "time_start" = .ok start
  stop : c.queryInt "time_end" = .ok stop

/-- Such a call. -/
example : Call.Asks ⟨.get, ⟨["", "api", "v1", "contractors", "7", "timelogs"],
    [("time_start", "-3"), ("time_end", "9")]⟩, [], .ofString ""⟩ .timelogsOf "7" (-3) 9 where
  method := rfl
  path := ⟨"7", rfl, by with_unfolding_all rfl⟩
  start := by with_unfolding_all rfl
  stop := by with_unfolding_all rfl

/-- The answer gives the versions, each as an object, in their order. -/
def Answer.Gives [VersionedData α] (a : Answer) (vs : List (Version α)) : Prop :=
  a.status = 200 ∧ a.body = some (.array (vs.map Version.toJson))

/-- A resource is read for a period with a query on the primary. -/
structure Resource.IsQueried (resource : String → Resource) (α : Type) [VersionedTable α]
    (r : String → Int → Int → Refinement) : Prop where
  methods : ∀ segment, Method.get ∈ (resource segment).methods
  work : ∀ limits c segment, Http.work limits c (resource segment) =
    readingPeriod c segment fun id start stop => do
      Service.checkPeriod start stop
      .ofLedger (·.query α (r id start stop))

theorem isQueried_timelogsOf : Resource.IsQueried .timelogsOf Timelog Period.timelogs where
  methods _ := List.mem_cons_self
  work _ _ _ := rfl

theorem isQueried_paymentsOf : Resource.IsQueried .paymentsOf Payment Period.payments where
  methods _ := List.mem_cons_self
  work _ _ _ := rfl

variable [VersionedTable α] {resource : String → Resource} {r : String → Int → Int → Refinement}

/-- What comes out of a call that asks for a period is what comes out of the query. -/
theorem answer_period (hr : Resource.IsQueried resource α r) (hc : c.Asks resource contractor start stop)
    (limits : Limits) (l : Ledger) :
    ∃ l' : Ledger, l'.cluster = l.cluster ∧
      (answer limits c l).1 = .ofOutcome c (requestId c l).1
        (finished (fun vs => (200, versionsJson (α := α) vs))
          ((Service.checkPeriod start stop >>= fun _ =>
            .ofLedger (·.query α (r contractor start stop))).perform l')).1 := by
  obtain ⟨segment, hpath, hid⟩ := hc.path
  refine ⟨(requestId c l).2, cluster_requestId c l, ?_⟩
  -- All parts of the call can be read, so the service is asked.
  rw [answer_of_reaches ⟨hpath, by rw [hc.method]; exact hr.methods segment⟩, hr.work, readingPeriod,
    Work.run_ofCall, hid]
  dsimp only
  rw [Work.run_ofCall, hc.start]
  dsimp only
  rw [Work.run_ofCall, hc.stop]
  dsimp only
  rw [Work.run_ofService]

/-- A period that ends before it starts is refused. -/
theorem status_of_reversed (hr : Resource.IsQueried resource α r)
    (hc : c.Asks resource contractor start stop) (h : stop < start) (limits : Limits) (l : Ledger) :
    (answer limits c l).1.status = 400 := by
  obtain ⟨l', -, heq⟩ := answer_period hr hc limits l
  rw [heq, Service.checkPeriod, if_pos h]
  rfl

/-- What the query gives is answered. -/
theorem gives_of_query (hr : Resource.IsQueried resource α r) (hc : c.Asks resource contractor start stop)
    (h : start ≤ stop) {vs : List (Version α)}
    (hvs : l.cluster.primary.query α (r contractor start stop) = .ok vs) (limits : Limits) :
    Answer.Gives (answer limits c l).1 vs := by
  obtain ⟨l', hl', heq⟩ := answer_period hr hc limits l
  have hquery : (l'.query α (r contractor start stop)).1 = .ok vs := by
    show StoreFault.ofDatabase (l'.cluster.primary.query α (r contractor start stop)) = .ok vs
    rw [hl', hvs]
    rfl
  rw [heq, Service.checkPeriod, if_neg (Int.not_lt.mpr h), Service.perform_bind]
  dsimp only [Service.perform_pure]
  rw [Service.perform_ofLedger, hquery]
  have hget : c.method ≠ .head := by
    rw [hc.method]
    decide
  exact ⟨rfl, if_neg hget⟩

end Http

/-! ## What the tables hold -/

/-- What holds of the tables where timelogs are only ever created: all are there, their rows differ in the
ids of their own, what they refer to is there, and every timelog is the latest. -/
structure Database.Settled (d : Database) (companies contractors : List StaticRow)
    (jobs : List (Version Job)) (timelogs : List (Version Timelog)) (payments : List (Version Payment)) :
    Prop where
  contractors_eq : d.contractors = some contractors
  jobs_eq : d.versionRows .job = some jobs
  timelogs_eq : d.versionRows .timelog = some timelogs
  payments_eq : d.versionRows .payment = some payments
  jobUids : (jobs.map (·.uid)).Nodup
  timelogUids : (timelogs.map (·.uid)).Nodup
  paymentUids : (payments.map (·.uid)).Nodup
  integrity : Integrity companies contractors jobs timelogs payments
  latest : ∀ t ∈ timelogs, t.isLatest = true

/-- The rows that a history becomes differ in the ids of their own. -/
private theorem nodup_uid_rows {k : VersionKind} {h : List (Version k.Data)} (ho : History.Orderly h) :
    ((History.rows h).map (·.uid)).Nodup := by
  rw [History.map_uid_rows]
  exact ho.distinct

/-- What the tables hold after any calls to an empty primary of the present schema. -/
theorem Http.settled_answers (engine : Engine) (replicas : List Replica) (turn : Nat) (supply : Supply)
    (calls : List (Limits × Call)) :
    ∃ companies contractors jobs timelogs payments,
      (answers (.opened engine replicas turn supply) calls).2.cluster.primary.Settled companies
        contractors jobs timelogs payments := by
  obtain ⟨hs, hi⟩ := intact_answers (Session.intact_opened engine replicas turn supply) calls
  obtain ⟨companies, hcompanies⟩ := hi.keeps.isMigrated.exists_staticRows .company
  obtain ⟨contractors, hcontractors⟩ := hi.keeps.isMigrated.exists_staticRows .contractor
  have htimelogs := (hi.keeps.keeps .timelog).versionRows_eq
  refine ⟨companies, contractors, _, _, _, hcontractors, (hi.keeps.keeps .job).versionRows_eq, htimelogs,
    (hi.keeps.keeps .payment).versionRows_eq, nodup_uid_rows (hi.keeps.keeps .job).orderly,
    nodup_uid_rows (hi.keeps.keeps .timelog).orderly, nodup_uid_rows (hi.keeps.keeps .payment).orderly,
    hi.integrity hcompanies hcontractors, fun t ht => ?_⟩
  -- There was no timelog to begin with, and all that have been added are the latest.
  obtain ⟨more, hmore, hlatest⟩ := (later_answers (.opened engine replicas turn supply) calls).timelogs []
    (Database.versionRows_freshOn engine .timelog)
  obtain rfl := Option.some.inj (htimelogs.symm.trans hmore)
  exact hlatest t ht

namespace Database.Settled

variable {d : Database} {companies contractors : List StaticRow} {jobs : List (Version Job)}
  {timelogs : List (Version Timelog)} {payments : List (Version Payment)}
  (h : d.Settled companies contractors jobs timelogs payments)
include h

/-- A job belongs to one contractor. -/
theorem workedBy_iff {j : Version Job} (hj : j ∈ jobs) {contractor : String} :
    WorkedBy jobs contractor j.uid ↔ contractor = j.data.contractorId := by
  constructor
  · rintro ⟨j', hj', huid, rfl⟩
    rw [List.inj_on_of_nodup_map h.jobUids hj' hj huid]
  · rintro rfl
    exact ⟨j, hj, rfl, rfl⟩

/-- The timelog that a payment line item names was logged for the job that it names. -/
theorem jobUid_eq {p : Version Payment} (hp : p ∈ payments) {t : Version Timelog} (ht : t ∈ timelogs)
    (huid : t.uid = p.data.timelogUid) : t.data.jobUid = p.data.jobUid := by
  obtain ⟨-, ⟨t', ht', huid', hjob⟩, -⟩ := h.integrity.payment p hp
  rwa [List.inj_on_of_nodup_map h.timelogUids ht ht' (huid.trans huid'.symm)]

end Database.Settled

/-! ## What the resources tell -/

namespace Http

open Answer (Gives)
open Database (timelogs_lists payments_lists)

variable {l : Ledger} {c c' : Call} {contractor : String} {start stop : Int}
  {companies contractors : List StaticRow} {jobs : List (Version Job)}
  {timelogs : List (Version Timelog)} {payments : List (Version Payment)}

/-- What the resource of timelogs tells. -/
theorem timelogs_answered (h : l.cluster.primary.Settled companies contractors jobs timelogs payments)
    (hc : c.Asks .timelogsOf contractor start stop) (hle : start ≤ stop) (limits : Limits) :
    ∃ ts, Gives (answer limits c l).1 ts ∧ ∀ t, t ∈ ts ↔
      t ∈ timelogs ∧ Within start stop t ∧ WorkedBy jobs contractor t.data.jobUid := by
  obtain ⟨ts, hts, hlists⟩ :=
    timelogs_lists contractor start stop h.jobs_eq h.timelogs_eq h.jobUids h.timelogUids
  refine ⟨ts, gives_of_query isQueried_timelogsOf hc hle hts limits, fun t => ?_⟩
  rw [hlists.mem]
  exact ⟨fun ⟨⟨ht, _⟩, hfits⟩ => ⟨ht, hfits⟩, fun ⟨ht, hfits⟩ => ⟨⟨ht, h.latest t ht⟩, hfits⟩⟩

/-- What the two resources of a contractor tell about a period. -/
structure PeriodsAgree (l : Ledger) : Prop where
  /-- The payment line items are the latest ones for the timelogs, each once, by the start of the
  timelog. -/
  payments : ∀ (limits limits' : Limits) (c c' : Call) (contractor : String) (start stop : Int),
    c.Asks .timelogsOf contractor start stop → c'.Asks .paymentsOf contractor start stop →
    start ≤ stop → ∃ (ts : List (Version Timelog)) (ps rows : List (Version Payment)),
      Gives (answer limits c l).1 ts ∧ Gives (answer limits' c' l).1 ps ∧
      l.cluster.primary.payments = some rows ∧
      Lists ps
        (fun p => (p ∈ rows ∧ p.isLatest = true) ∧ ∃ t ∈ ts, t.uid = p.data.timelogUid)
        (fun p p' => ∀ t ∈ ts, ∀ t' ∈ ts, t.uid = p.data.timelogUid →
          t'.uid = p'.data.timelogUid → t.data.timeStart ≤ t'.data.timeStart)
  /-- A timelog is told to the contractor of its job, now and after any more calls, and to no other. -/
  timelogs : ∀ rows, l.cluster.primary.timelogs = some rows → ∀ t ∈ rows, t.isLatest = true →
    ∃ jobs contractors j, l.cluster.primary.jobs = some jobs ∧
      l.cluster.primary.contractors = some contractors ∧ j ∈ jobs ∧ j.uid = t.data.jobUid ∧
      (∃ r ∈ contractors, r.id = j.data.contractorId) ∧
      ∀ (more : List (Limits × Call)) (limits : Limits) (c : Call) (contractor : String)
        (start stop : Int), c.Asks .timelogsOf contractor start stop → Within start stop t →
        ∃ ts : List (Version Timelog), Gives (answer limits c (answers l more).2).1 ts ∧
          (t ∈ ts ↔ contractor = j.data.contractorId)
  /-- A period that ends before it starts is refused. -/
  reversed : ∀ (limits : Limits) (c : Call) (contractor : String) (start stop : Int), stop < start →
    c.Asks .timelogsOf contractor start stop ∨ c.Asks .paymentsOf contractor start stop →
    (answer limits c l).1.status = 400

/-- The payment line items of a contractor within a period are those for the contractor's timelogs within
it. -/
theorem payments_answered (h : l.cluster.primary.Settled companies contractors jobs timelogs payments)
    (hc : c.Asks .timelogsOf contractor start stop) (hc' : c'.Asks .paymentsOf contractor start stop)
    (hle : start ≤ stop) (limits limits' : Limits) :
    ∃ ts ps, Gives (answer limits c l).1 ts ∧ Gives (answer limits' c' l).1 ps ∧
      Lists ps
        (fun p => (p ∈ payments ∧ p.isLatest = true) ∧ ∃ t ∈ ts, t.uid = p.data.timelogUid)
        (fun p p' => ∀ t ∈ ts, ∀ t' ∈ ts, t.uid = p.data.timelogUid →
          t'.uid = p'.data.timelogUid → Timelog.timeStart t.data ≤ Timelog.timeStart t'.data) := by
  obtain ⟨ts, hts, hmem⟩ := timelogs_answered h hc hle limits
  obtain ⟨ps, hps, hlists⟩ := payments_lists contractor start stop h.jobs_eq h.timelogs_eq h.payments_eq
    h.jobUids h.timelogUids h.paymentUids
  refine ⟨ts, ps, hts, gives_of_query isQueried_paymentsOf hc' hle hps limits', fun p => ?_, hlists.nodup,
    hlists.pairwise.imp fun hle t ht t' ht' => hle t ((hmem t).mp ht).1 t' ((hmem t').mp ht').1⟩
  -- One query goes by the job of the payment line item, the other one by that of the timelog.
  rw [hlists.mem]
  constructor
  · rintro ⟨hp, hworked, t, ht, huid, hwithin⟩
    rw [← h.jobUid_eq hp.1 ht huid] at hworked
    exact ⟨hp, t, (hmem t).mpr ⟨ht, hwithin, hworked⟩, huid⟩
  · rintro ⟨hp, t, ht, huid⟩
    obtain ⟨ht, hwithin, hworked⟩ := (hmem t).mp ht
    rw [h.jobUid_eq hp.1 ht huid] at hworked
    exact ⟨hp, hworked, t, ht, huid, hwithin⟩

/-- A timelog is told to the contractor of its job as long as the job and the timelog are there. -/
theorem mem_timelogs_answered {d : Database} {jobs₀ : List (Version Job)}
    (h : l.cluster.primary.Settled companies contractors jobs timelogs payments)
    (hlater : Later d l.cluster.primary) (hjobs : d.versionRows .job = some jobs₀) {j : Version Job}
    (hj : j ∈ jobs₀) {t : Version Timelog} (ht : t ∈ timelogs) (huid : j.uid = t.data.jobUid)
    (hc : c.Asks .timelogsOf contractor start stop) (hwithin : Within start stop t) (limits : Limits) :
    ∃ ts, Gives (answer limits c l).1 ts ∧ (t ∈ ts ↔ contractor = j.data.contractorId) := by
  -- A timelog does not end before it starts, so the period is in order.
  have hvalid : t.data.timeStart ≤ t.data.timeEnd := (h.integrity.timelog t ht).2.1
  obtain ⟨hstart, hstop⟩ := hwithin
  obtain ⟨ts, hts, hmem⟩ := timelogs_answered h hc (by omega) limits
  obtain ⟨jobs', hjobs', hold⟩ := hlater.versions .job jobs₀ hjobs
  obtain rfl := Option.some.inj (h.jobs_eq.symm.trans hjobs')
  obtain ⟨j', hj', huid', hdata⟩ := hold j hj
  refine ⟨ts, hts, ?_⟩
  rw [hmem, ← huid, ← huid', h.workedBy_iff hj', hdata]
  exact ⟨fun hall => hall.2.2, fun heq => ⟨ht, ⟨hstart, hstop⟩, heq⟩⟩

/-- In every state that calls to an empty primary of the present schema can reach, the two resources of a
contractor agree about every period. -/
theorem periodsAgree_answers (engine : Engine) (replicas : List Replica) (turn : Nat) (supply : Supply)
    (calls : List (Limits × Call)) :
    PeriodsAgree (answers (.opened engine replicas turn supply) calls).2 := by
  obtain ⟨companies, contractors, jobs, timelogs, payments, h⟩ :=
    settled_answers engine replicas turn supply calls
  constructor
  · intro limits limits' c c' contractor start stop hc hc' hle
    obtain ⟨ts, ps, hts, hps, hlists⟩ := payments_answered h hc hc' hle limits limits'
    exact ⟨ts, ps, payments, hts, hps, h.payments_eq, hlists⟩
  · intro rows hrows t ht _
    obtain rfl := Option.some.inj (h.timelogs_eq.symm.trans hrows)
    obtain ⟨⟨j, hj, huid⟩, -⟩ := h.integrity.timelog t ht
    refine ⟨jobs, contractors, j, h.jobs_eq, h.contractors_eq, hj, huid, (h.integrity.job j hj).2.1,
      fun more limits c contractor start stop hc hwithin => ?_⟩
    -- What is reached later is reached by more calls.
    obtain ⟨companies', contractors', jobs', timelogs', payments', h'⟩ :=
      settled_answers engine replicas turn supply (calls ++ more)
    rw [answers_append] at h'
    have hlater := later_answers (answers (.opened engine replicas turn supply) calls).2 more
    obtain ⟨new, hnew, -⟩ := hlater.timelogs timelogs h.timelogs_eq
    obtain rfl := Option.some.inj (h'.timelogs_eq.symm.trans hnew)
    exact mem_timelogs_answered h' hlater h.jobs_eq hj (List.mem_append_left new ht) huid hc hwithin limits
  · rintro limits c contractor start stop hlt (hc | hc)
    · exact status_of_reversed isQueried_timelogsOf hc hlt limits _
    · exact status_of_reversed isQueried_paymentsOf hc hlt limits _

end Http

end Payroll
