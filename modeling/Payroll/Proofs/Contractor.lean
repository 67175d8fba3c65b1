import Payroll.Proofs.Period
/-!
# What is found for a contractor

The two queries for a period, asked of any ledger whose tables tell their rows apart by the ids of their
own. Rows may refer to nothing, and the flags and numbers of versions may be whatever they are. A record
names the id of one version of a job, which has one contractor, so no record is found for two.

## Key results

- `WorkedBy.contractor_eq`: an id of a job has one contractor
- `Ledger.finds_within`: what is found for every contractor and all bounds
-/

namespace Payroll

open Database (Within WorkedBy timelogs_lists payments_lists)
open History (eq_of_uid_eq)

variable {α : Type} {l : Ledger} {jobs : List (Version Job)} {timelogs : List (Version Timelog)}
  {payments : List (Version Payment)}

/-- The job of an id of its own is one contractor's. -/
theorem Database.WorkedBy.contractor_eq (h : (jobs.map (·.uid)).Nodup) {contractor contractor' uid : String}
    (hw : WorkedBy jobs contractor uid) (hw' : WorkedBy jobs contractor' uid) :
    contractor = contractor' := by
  obtain ⟨j, hj, huid, rfl⟩ := hw
  obtain ⟨j', hj', huid', rfl⟩ := hw'
  rw [eq_of_uid_eq h hj hj' (huid.trans huid'.symm)]

/-- The timelog is a latest one within the period, and was logged for a job of the contractor. -/
def IsLogged (jobs : List (Version Job)) (timelogs : List (Version Timelog)) (contractor : String)
    (start stop : Int) (t : Version Timelog) : Prop :=
  (t ∈ timelogs ∧ t.isLatest = true) ∧ Within start stop t ∧ WorkedBy jobs contractor t.data.jobUid

/-- The payment line item is a latest one, and names a job of the contractor and a timelog within the
period. -/
def IsPaid (jobs : List (Version Job)) (timelogs : List (Version Timelog))
    (payments : List (Version Payment)) (contractor : String) (start stop : Int) (p : Version Payment) :
    Prop :=
  (p ∈ payments ∧ p.isLatest = true) ∧ WorkedBy jobs contractor p.data.jobUid ∧
    ∃ t ∈ timelogs, t.uid = p.data.timelogUid ∧ Within start stop t

/-- The timelog that the first payment line item names does not start after the one that the second
names. -/
def PaidInOrder (timelogs : List (Version Timelog)) (p p' : Version Payment) : Prop :=
  ∀ t ∈ timelogs, ∀ t' ∈ timelogs, t.uid = p.data.timelogUid → t'.uid = p'.data.timelogUid →
    t.data.timeStart ≤ t'.data.timeStart

/-- The tables have these rows, and the rows of a table differ in the ids of their own. -/
structure Database.TellsApart (d : Database) (jobs : List (Version Job))
    (timelogs : List (Version Timelog)) (payments : List (Version Payment)) : Prop where
  jobs_eq : d.versionRows .job = some jobs
  timelogs_eq : d.versionRows .timelog = some timelogs
  payments_eq : d.versionRows .payment = some payments
  jobUids : (jobs.map (·.uid)).Nodup
  timelogUids : (timelogs.map (·.uid)).Nodup
  paymentUids : (payments.map (·.uid)).Nodup

/-- Whatever contractor and bounds are asked for, exactly the records that belong to them are found, each
once and in order, and nothing is different afterwards. -/
structure Ledger.Finds (l : Ledger)
    (ask : Ledger → String → Int → Int → Except StoreFault (List (Version α)) × Ledger)
    (belongs : String → Int → Int → Version α → Prop) (r : Version α → Version α → Prop) : Prop where
  lists : ∀ contractor start stop, ∃ vs, ask l contractor start stop = (.ok vs, l) ∧
    Lists vs (belongs contractor start stop) r
  /-- No record is found for two contractors, be it for the same period or not. -/
  apart : ∀ contractor start stop vs contractor' start' stop' vs',
    ask l contractor start stop = (.ok vs, l) → ask l contractor' start' stop' = (.ok vs', l) →
    ∀ v ∈ vs, ∀ v' ∈ vs', v.uid = v'.uid → contractor = contractor'

namespace Ledger

/-- Records are found for one contractor each if each of them names the id of a job that is the
contractor's. -/
theorem finds_of_lists
    {ask : Ledger → String → Int → Int → Except StoreFault (List (Version α)) × Ledger}
    {belongs : String → Int → Int → Version α → Prop} {r : Version α → Version α → Prop}
    (hlists : ∀ contractor start stop, ∃ vs, ask l contractor start stop = (.ok vs, l) ∧
      Lists vs (belongs contractor start stop) r)
    (hjobs : (jobs.map (·.uid)).Nodup) {rows : List (Version α)} (hrows : (rows.map (·.uid)).Nodup)
    (jobUid : Version α → String) (hbelongs : ∀ contractor start stop v,
      belongs contractor start stop v → v ∈ rows ∧ WorkedBy jobs contractor (jobUid v)) :
    l.Finds ask belongs r where
  lists := hlists
  apart contractor start stop vs contractor' start' stop' vs' hvs hvs' v hv v' hv' huid := by
    -- What has been answered is what is listed.
    have hlisted : ∀ {c s e us}, ask l c s e = (.ok us, l) →
        ∀ u ∈ us, u ∈ rows ∧ WorkedBy jobs c (jobUid u) := by
      intro c s e us hus u hu
      obtain ⟨ws, hws, hlist⟩ := hlists c s e
      obtain rfl := Except.ok.inj (congrArg Prod.fst (hus.symm.trans hws))
      exact hbelongs c s e u ((hlist.mem u).mp hu)
    obtain ⟨hmem, hworked⟩ := hlisted hvs v hv
    obtain ⟨hmem', hworked'⟩ := hlisted hvs' v' hv'
    rw [eq_of_uid_eq hrows hmem hmem' huid] at hworked
    exact hworked.contractor_eq hjobs hworked'

/-- For every contractor and all bounds, the timelogs that are found are the latest ones within the period
that were logged for any version of a job of the contractor, by their start, and the payment line items are
the latest ones that name such a version and any version of a timelog within the period, by the start of
that. -/
theorem finds_within (h : l.cluster.primary.TellsApart jobs timelogs payments) :
    l.Finds timelogsIn (IsLogged jobs timelogs)
        (fun t t' => t.data.timeStart ≤ t'.data.timeStart) ∧
      l.Finds paymentsIn (IsPaid jobs timelogs payments) (PaidInOrder timelogs) := by
  constructor
  · refine finds_of_lists (fun contractor start stop => ?_) h.jobUids h.timelogUids (·.data.jobUid)
      fun contractor start stop t ht => ⟨ht.1.1, ht.2.2⟩
    obtain ⟨ts, hts, hlist⟩ :=
      timelogs_lists contractor start stop h.jobs_eq h.timelogs_eq h.jobUids h.timelogUids
    refine ⟨ts, ?_, hlist⟩
    show (StoreFault.ofDatabase _, l) = _
    rw [hts]
    rfl
  · refine finds_of_lists (fun contractor start stop => ?_) h.jobUids h.paymentUids (·.data.jobUid)
      fun contractor start stop p hp => ⟨hp.1.1, hp.2.1⟩
    obtain ⟨ps, hps, hlist⟩ := payments_lists contractor start stop h.jobs_eq h.timelogs_eq h.payments_eq
      h.jobUids h.timelogUids h.paymentUids
    refine ⟨ps, ?_, hlist⟩
    show (StoreFault.ofDatabase _, l) = _
    rw [hps]
    rfl

/-- What was logged for a version of a job and is paid for it is found for the contractor of that version,
and not for the one to whom the job has gone since. -/
theorem finds_within_superseded :
    let j : Version Job :=
      { id := "1", version := 1, uid := "2", isLatest := false, data := ⟨"active", 1, "a", "3", "4"⟩ }
    let j' : Version Job :=
      { id := "1", version := 2, uid := "5", isLatest := true, data := ⟨"active", 1, "a", "3", "6"⟩ }
    let t : Version Timelog :=
      { id := "7", version := 1, uid := "8", isLatest := true, data := ⟨7, 1, 8, "work", "2"⟩ }
    let p : Version Payment :=
      { id := "9", version := 1, uid := "10", isLatest := true, data := ⟨"2", "8", 1, "due"⟩ }
    let d : Database :=
      { Database.fresh with jobs := some [j, j'], timelogs := some [t], payments := some [p] }
    let l := opened .plain [] 0 { ids := fun _ => "", times := fun _ => "", drawn := 0 }
    let l := { l with cluster := { l.cluster with primary := d } }
    d.TellsApart [j, j'] [t] [p] ∧
      (∃ ts, l.timelogsIn "4" 0 9 = (.ok ts, l) ∧ t ∈ ts) ∧
      (∃ ps, l.paymentsIn "4" 0 9 = (.ok ps, l) ∧ p ∈ ps) ∧
      ∃ ts, l.timelogsIn "6" 0 9 = (.ok ts, l) ∧ t ∉ ts := by
  intro j j' t p d l₀ l
  have h : d.TellsApart [j, j'] [t] [p] := {
    jobs_eq := rfl
    timelogs_eq := rfl
    payments_eq := rfl
    jobUids := by decide
    timelogUids := by decide
    paymentUids := by decide }
  obtain ⟨htimelogs, hpayments⟩ := finds_within (l := l) h
  have hworked : WorkedBy [j, j'] "4" "2" := ⟨j, List.mem_cons_self, rfl, rfl⟩
  have hwithin : Within 0 9 t := by
    constructor
    · decide
    · decide
  obtain ⟨ts, hts, hlogged⟩ := htimelogs.lists "4" 0 9
  have ht : t ∈ ts := (hlogged.mem t).mpr ⟨⟨List.mem_singleton_self t, rfl⟩, hwithin, hworked⟩
  obtain ⟨ps, hps, hpaid⟩ := hpayments.lists "4" 0 9
  have hp : p ∈ ps := (hpaid.mem p).mpr
    ⟨⟨List.mem_singleton_self p, rfl⟩, hworked, t, List.mem_singleton_self t, rfl, hwithin⟩
  obtain ⟨ts', hts', -⟩ := htimelogs.lists "6" 0 9
  refine ⟨h, ⟨ts, hts, ht⟩, ⟨ps, hps, hp⟩, ts', hts', fun ht' => ?_⟩
  have hsame := htimelogs.apart "4" 0 9 ts "6" 0 9 ts' hts hts' t ht t ht' rfl
  exact absurd hsame (by decide)

end Ledger

end Payroll
