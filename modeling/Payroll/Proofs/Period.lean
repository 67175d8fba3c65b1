import Mathlib.Data.List.Nodup
import Mathlib.Data.List.ProdSigma
import Payroll.Proofs.Filter
import Payroll.Proofs.Refined
import Payroll.Store.Period
/-!
# What is within a period

Both queries for a period pair the latest rows of their table with the rows of the tables that these refer
to, and keep the pairings in which references, contractor and period fit. Where the rows of a table
differ in the ids of their own, a row has at most one such pairing, so it is given at most once.

## Key results

- `Plan.run_map`: what a plan keeps of rows that stand for something else
- `timelogs_lists`: the timelogs of a contractor within a period
- `payments_lists`: the payment line items for them
-/

namespace Payroll

open Sql (Value)

variable {α β γ : Type}

/-- The list holds exactly the versions that have the property, each once, in the order of the relation. -/
structure Lists (vs : List (Version α)) (p : Version α → Prop) (r : Version α → Version α → Prop) :
    Prop where
  mem : ∀ v, v ∈ vs ↔ p v
  nodup : (vs.map (·.uid)).Nodup
  pairwise : vs.Pairwise r

namespace Database

/-! ## Rows with their places -/

theorem placedVersions_eq [VersionedData α] (rows : List (Version α)) :
    placedVersions rows = rows.zipIdx.map placedRow :=
  List.map_congr_left fun _ _ => rfl

/-- Every row of a table has a place. -/
theorem mem_iff_placed {rows : List (Version α)} {v : Version α} :
    v ∈ rows ↔ ∃ x ∈ rows.zipIdx, x.1 = v := by
  rw [← List.mem_map, List.zipIdx_map_fst]

/-- Where rows differ in the ids of their own, an id tells the row and its place. -/
theorem eq_of_placed {rows : List (Version α)} (h : (rows.map (·.uid)).Nodup) {x y : Version α × Nat}
    (hx : x ∈ rows.zipIdx) (hy : y ∈ rows.zipIdx) (huid : x.1.uid = y.1.uid) : x = y := by
  rw [← List.zipIdx_map_fst 0 rows, List.map_map] at h
  exact List.inj_on_of_nodup_map h hx hy huid

theorem nodup_placed (rows : List (Version α)) : rows.zipIdx.Nodup := by
  refine List.Nodup.of_map (·.2) ?_
  rw [List.zipIdx_map_snd]
  exact List.nodup_range'

/-- Joining rows that stand for something else pairs what they stand for. -/
theorem joinRows_map [VersionedData β] (xs : List γ) (version : γ → Version α) (row : γ → List Value)
    (headings : List Heading) (ys : List (Version β)) :
    joinRows (xs.map fun x => (version x, row x)) ⟨headings, placedVersions ys⟩ =
      (xs ×ˢ ys.zipIdx).map fun c => (version c.1, row c.1 ++ placedRow c.2) := by
  rw [placedVersions_eq, joinRows, List.flatMap_map]
  simp only [SProd.sprod, List.product, List.map_flatMap, List.map_map]
  rfl

/-! ## What a plan keeps -/

/-- A plan without a limit that sorts by a number keeps what passes, each once, sorted by the number. -/
theorem Plan.run_map (p : Plan) (precedes : List Value → List Value → Bool) (hlimit : p.limit = none)
    {xs : List γ} (version : γ → Version α) (row : γ → List Value) (q : γ → Prop) (key : γ → Int)
    (hq : ∀ x, p.keeps (row x) = true ↔ q x)
    (hkey : ∀ x y, (compareBy p.keys (row x) (row y) != .gt) = decide (key x ≤ key y))
    (hxs : xs.Nodup) :
    ∃ kept : List γ, p.run precedes (xs.map fun x => (version x, row x)) = kept.map version ∧
      (∀ x, x ∈ kept ↔ x ∈ xs ∧ q x) ∧ kept.Nodup ∧ kept.Pairwise fun x y => key x ≤ key y := by
  let found := (xs.filter fun x => p.keeps (row x)).mergeSort fun x y => precedes (row x) (row y)
  let sorted := found.mergeSort fun x y => decide (key x ≤ key y)
  have hperm : sorted.Perm (xs.filter fun x => p.keeps (row x)) :=
    (List.mergeSort_perm _ _).trans (List.mergeSort_perm _ _)
  refine ⟨sorted, ?_, fun x => ?_, ?_, ?_⟩
  · rw [run_map_eq, hlimit]
    simp only [hkey]
    rfl
  · rw [hperm.mem_iff, List.mem_filter, hq]
  · exact hperm.nodup_iff.mpr (hxs.filter _)
  · have htrans : ∀ x y z, decide (key x ≤ key y) = true → decide (key y ≤ key z) = true →
        decide (key x ≤ key z) = true := by
      intro x y z hxy hyz
      exact decide_eq_true (Int.le_trans (of_decide_eq_true hxy) (of_decide_eq_true hyz))
    have htotal : ∀ x y, (decide (key x ≤ key y) || decide (key y ≤ key x)) = true := by
      simp [Int.le_total]
    exact (List.pairwise_mergeSort htrans htotal _).imp of_decide_eq_true

/-! ## Tests on cells -/

section Cells

variable {cell left right : Cell} {row row' : List Value}

theorem passes_eq_text {a b : String} (haffinity : cell.affinity = .text) (ha : cell.value row = .text a) :
    Test.passes row (.compare cell .eq (.text b)) = true ↔ a = b := by
  rw [← compareText_eq_iff, Test.passes, haffinity, ha]
  simp [Sql.compareUnder, Value.isNull, Value.isText, Value.asText, Value.order, Value.bound,
    Sql.Comparison.holds]

theorem passes_gt_int {a b : Int} (haffinity : cell.affinity = .integer) (ha : cell.value row = .int a) :
    Test.passes row (.compare cell .gt (.int b)) = true ↔ b < a := by
  rw [Test.passes, haffinity, ha]
  simp [Sql.compareUnder, Value.isNull, Value.asNumber, Value.order, Value.bound,
    Sql.Comparison.holds, Int.compare_eq_gt]

theorem passes_lt_int {a b : Int} (haffinity : cell.affinity = .integer) (ha : cell.value row = .int a) :
    Test.passes row (.compare cell .lt (.int b)) = true ↔ a < b := by
  rw [Test.passes, haffinity, ha]
  simp [Sql.compareUnder, Value.isNull, Value.asNumber, Value.order, Value.bound,
    Sql.Comparison.holds, Int.compare_eq_lt]

theorem passes_equal_text {a b : String} (hleft : left.affinity = .text) (hright : right.affinity = .text)
    (ha : left.value row = .text a) (hb : right.value row = .text b) :
    Test.passes row (.equal left right) = true ↔ a = b := by
  rw [← compareText_eq_iff, Test.passes, hleft, hright, ha, hb]
  simp [Sql.compareUnder, Sql.comparisonAffinity, Value.isNull, Value.order]

end Cells

/-! ## The two queries -/

/-- The headings of a table of versions that is joined. -/
def joinedHeadings (α : Type) [VersionedData α] : List Heading :=
  .place [VersionedData.table α] ::
    Heading.named (VersionedData.table α) (versionColumns α)

/-- The conditions that both queries share, with their names made out. -/
def periodTests (who since before : Nat) (contractor : String) (start stop : Int) : List Test :=
  [.compare ⟨who, .text⟩ .eq (.text contractor), .compare ⟨since, .integer⟩ .gt (.int start),
    .compare ⟨before, .integer⟩ .lt (.int stop)]

/-- The query for timelogs with its names made out. -/
def timelogsPlan (contractor : String) (start stop : Int) : Plan where
  alternatives := [periodTests 19 6 7 contractor start stop]
  joins := [.equal ⟨11, .text⟩ ⟨9, .text⟩]
  keys := [(⟨6, .integer⟩, false)]
  limit := none

/-- The query for payment line items with its names made out. -/
def paymentsPlan (contractor : String) (start stop : Int) : Plan where
  alternatives := [periodTests 18 25 26 contractor start stop]
  joins := [.equal ⟨10, .text⟩ ⟨5, .text⟩, .equal ⟨20, .text⟩ ⟨6, .text⟩]
  keys := [(⟨25, .integer⟩, false)]
  limit := none

theorem plan_timelogs (contractor : String) (start stop : Int) :
    plan Timelog (latestHeadings Timelog ++ (joinedHeadings Job ++ []))
      (Period.timelogs contractor start stop) = .ok (timelogsPlan contractor start stop) := by
  rfl

theorem plan_payments (contractor : String) (start stop : Int) :
    plan Payment (latestHeadings Payment ++ (joinedHeadings Job ++ (joinedHeadings Timelog ++ [])))
      (Period.payments contractor start stop) = .ok (paymentsPlan contractor start stop) := by
  rfl

/-- Neither query is too large. -/
theorem isBounded_timelogs (contractor : String) (start stop : Int) :
    IsBounded (Period.timelogs contractor start stop) :=
  ⟨(by decide : 1 + 1 ≤ maxTables), (by decide : 1 ≤ maxColumns), _, _, _, rfl, rfl, rfl⟩

theorem isBounded_payments (contractor : String) (start stop : Int) :
    IsBounded (Period.payments contractor start stop) :=
  ⟨(by decide : 2 + 1 ≤ maxTables), (by decide : 1 ≤ maxColumns), _, _, _, rfl, rfl, rfl⟩

variable {d : Database} {jobs : List (Version Job)} {timelogs : List (Version Timelog)}
  {payments : List (Version Payment)}

/-- A table of versions as it is joined. -/
theorem relation_eq {k : VersionKind} {rows : List (Version k.Data)} (h : d.versionRows k = some rows) :
    d.relation (VersionedData.table k.Data) = .ok ⟨joinedHeadings k.Data, placedVersions rows⟩ := by
  have hrelation : d.relation (VersionedData.table k.Data) =
      d.versionRelation k.Data (VersionedData.table k.Data) := by
    cases k <;> rfl
  have hrows : VersionedTable.rows? (α := k.Data) d = some rows := h
  rw [hrelation, versionRelation, hrows]
  rfl

/-- A timelog is strictly within a period. -/
def Within (start stop : Int) (t : Version Timelog) : Prop :=
  start < t.data.timeStart ∧ t.data.timeEnd < stop

/-- A job of this id of its own, of whatever version, is the contractor's. -/
def WorkedBy (jobs : List (Version Job)) (contractor uid : String) : Prop :=
  ∃ j ∈ jobs, j.uid = uid ∧ j.data.contractorId = contractor

/-- The conditions that both queries share hold of a job of the contractor and a timelog within the
period. -/
theorem passes_periodTests {who since before : Nat} {row : List Value} {j : Version Job}
    {t : Version Timelog} (hwho : Cell.value ⟨who, .text⟩ row = .text j.data.contractorId)
    (hsince : Cell.value ⟨since, .integer⟩ row = .int t.data.timeStart)
    (hbefore : Cell.value ⟨before, .integer⟩ row = .int t.data.timeEnd)
    (contractor : String) (start stop : Int) :
    passesSome row [periodTests who since before contractor start stop] = true ↔
      j.data.contractorId = contractor ∧ Within start stop t := by
  simp only [passesSome, periodTests, List.any_cons, List.any_nil, Bool.or_false, List.all_cons,
    List.all_nil, Bool.and_true, Bool.and_eq_true, passes_eq_text rfl hwho, passes_gt_int rfl hsince,
    passes_lt_int rfl hbefore, Within]

/-! ### Timelogs -/

section Timelogs

variable (contractor : String) (start stop : Int)

/-- A timelog and a job with their places, as the query for timelogs pairs them. -/
abbrev LoggedJob : Type := (Version Timelog × Nat) × (Version Job × Nat)

/-- The values of a pair. -/
def LoggedJob.row (c : LoggedJob) : List Value :=
  placedRow c.1 ++ placedRow c.2

/-- The timelog was logged for the job, the job is the contractor's, and the timelog is within the
period. -/
def LoggedJob.Fits (c : LoggedJob) : Prop :=
  (c.2.1.data.contractorId = contractor ∧ Within start stop c.1.1) ∧ c.2.1.uid = c.1.1.data.jobUid

theorem LoggedJob.keeps_iff (c : LoggedJob) :
    (timelogsPlan contractor start stop).keeps c.row = true ↔ c.Fits contractor start stop := by
  have hconditions : passesSome c.row [periodTests 19 6 7 contractor start stop] = true ↔
      c.2.1.data.contractorId = contractor ∧ Within start stop c.1.1 :=
    passes_periodTests rfl rfl rfl contractor start stop
  have hjob : Test.passes c.row (.equal ⟨11, .text⟩ ⟨9, .text⟩) = true ↔
      c.2.1.uid = c.1.1.data.jobUid := passes_equal_text rfl rfl rfl rfl
  simp only [Plan.keeps, timelogsPlan, Bool.and_eq_true, List.all_cons, List.all_nil, Bool.and_true,
    hconditions, hjob, Fits]

theorem LoggedJob.order_eq (c c' : LoggedJob) :
    (compareBy (timelogsPlan contractor start stop).keys c.row c'.row != .gt) =
      decide (c.1.1.data.timeStart ≤ c'.1.1.data.timeStart) :=
  compareBy_int rfl rfl

/-- The timelogs of a contractor within a period are the latest ones that were logged for a job of the
contractor, each once, by their start. -/
theorem timelogs_lists (hjobs : d.versionRows .job = some jobs)
    (htimelogs : d.versionRows .timelog = some timelogs) (hjobUids : (jobs.map (·.uid)).Nodup)
    (htimelogUids : (timelogs.map (·.uid)).Nodup) :
    ∃ vs, d.query Timelog (Period.timelogs contractor start stop) = .ok vs ∧
      Lists vs
        (fun t => (t ∈ timelogs ∧ t.isLatest = true) ∧ Within start stop t ∧
          WorkedBy jobs contractor t.data.jobUid)
        (fun t t' => t.data.timeStart ≤ t'.data.timeStart) := by
  have hxs : (timelogs.zipIdx.filter (·.1.isLatest) ×ˢ jobs.zipIdx).Nodup :=
    ((nodup_placed timelogs).filter _).product (nodup_placed jobs)
  obtain ⟨kept, hrun, hmem, hnodup, hpairwise⟩ := Plan.run_map (timelogsPlan contractor start stop)
    (d.engine.precedes d.indexes "timelog" (Period.timelogs contractor start stop)) rfl
    (fun c => c.1.1) LoggedJob.row _ (fun c => c.1.1.data.timeStart)
    (LoggedJob.keeps_iff contractor start stop) (LoggedJob.order_eq contractor start stop) hxs
  have hjob : d.relation "job" = .ok ⟨joinedHeadings Job, placedVersions jobs⟩ := relation_eq hjobs
  have hmem' : ∀ c, c ∈ kept ↔ ((c.1 ∈ timelogs.zipIdx ∧ c.1.1.isLatest = true) ∧ c.2 ∈ jobs.zipIdx) ∧
      c.Fits contractor start stop := by
    intro c
    rw [hmem, List.mem_product, List.mem_filter]
  have hquery : d.query Timelog (Period.timelogs contractor start stop) =
      .ok (kept.map fun c => c.1.1) := by
    refine query_eq_ok_iff.mpr ⟨isBounded_timelogs contractor start stop, timelogs,
      [⟨joinedHeadings Job, placedVersions jobs⟩], timelogsPlan contractor start stop, htimelogs, ?_,
      plan_timelogs contractor start stop, rfl, (by decide : ¬maxInt64 < 0), ?_⟩
    · simp only [Period.timelogs, List.mapM_cons, List.mapM_nil, hjob]
      rfl
    · rw [List.foldl_cons, List.foldl_nil, latestRows_eq, joinRows_map]
      exact hrun
  refine ⟨_, hquery, fun t => ?_, ?_, ?_⟩
  · rw [List.mem_map]
    constructor
    · rintro ⟨c, hc, rfl⟩
      obtain ⟨⟨⟨ht, hlatest⟩, hj⟩, ⟨hcontractor, hwithin⟩, huid⟩ := (hmem' c).mp hc
      exact ⟨⟨mem_iff_placed.mpr ⟨_, ht, rfl⟩, hlatest⟩, hwithin,
        c.2.1, mem_iff_placed.mpr ⟨_, hj, rfl⟩, huid, hcontractor⟩
    · rintro ⟨⟨ht, hlatest⟩, hwithin, j, hj, huid, hcontractor⟩
      obtain ⟨x, hx, rfl⟩ := mem_iff_placed.mp ht
      obtain ⟨y, hy, rfl⟩ := mem_iff_placed.mp hj
      exact ⟨(x, y), (hmem' _).mpr ⟨⟨⟨hx, hlatest⟩, hy⟩, ⟨hcontractor, hwithin⟩, huid⟩, rfl⟩
  · -- A timelog names one job, so it is in one pair.
    rw [List.map_map]
    refine hnodup.map_on fun c hc c' hc' huid => ?_
    obtain ⟨⟨⟨ht, -⟩, hj⟩, -, hjob⟩ := (hmem' c).mp hc
    obtain ⟨⟨⟨ht', -⟩, hj'⟩, -, hjob'⟩ := (hmem' c').mp hc'
    have htimelog : c.1 = c'.1 := eq_of_placed htimelogUids ht ht' huid
    refine Prod.ext htimelog (eq_of_placed hjobUids hj hj' ?_)
    rw [hjob, hjob', htimelog]
  · exact List.pairwise_map.mpr hpairwise

/-- A timelog stays with the contractor of the version of the job that it was logged for. -/
example :
    let j : Version Job :=
      { id := "1", version := 1, uid := "2", isLatest := false, data := ⟨"active", 1, "a", "3", "4"⟩ }
    let j' : Version Job :=
      { id := "1", version := 2, uid := "5", isLatest := true, data := ⟨"active", 1, "a", "3", "6"⟩ }
    let t : Version Timelog :=
      { id := "7", version := 1, uid := "8", isLatest := true, data := ⟨7, 1, 8, "work", "2"⟩ }
    let d := { fresh with jobs := some [j, j'], timelogs := some [t] }
    d.query Timelog (Period.timelogs "4" 0 9) = .ok [t] ∧
      d.query Timelog (Period.timelogs "6" 0 9) = .ok [] := by
  constructor
  · with_unfolding_all rfl
  · with_unfolding_all rfl

end Timelogs

/-! ### Payment line items -/

section Payments

variable (contractor : String) (start stop : Int)

/-- A payment line item, a job and a timelog with their places, as the query for payment line items
groups them. -/
abbrev PaidTimelog : Type := ((Version Payment × Nat) × (Version Job × Nat)) × (Version Timelog × Nat)

namespace PaidTimelog

/-- The values of a group. -/
def row (c : PaidTimelog) : List Value :=
  (placedRow c.1.1 ++ placedRow c.1.2) ++ placedRow c.2

/-- The payment line item names the job and the timelog, the job is the contractor's, and the timelog is
within the period. -/
def Fits (c : PaidTimelog) : Prop :=
  (c.1.2.1.data.contractorId = contractor ∧ Within start stop c.2.1) ∧
    c.1.2.1.uid = c.1.1.1.data.jobUid ∧ c.2.1.uid = c.1.1.1.data.timelogUid

theorem keeps_iff (c : PaidTimelog) :
    (paymentsPlan contractor start stop).keeps c.row = true ↔ c.Fits contractor start stop := by
  have hconditions : passesSome c.row [periodTests 18 25 26 contractor start stop] = true ↔
      c.1.2.1.data.contractorId = contractor ∧ Within start stop c.2.1 :=
    passes_periodTests rfl rfl rfl contractor start stop
  have hjob : Test.passes c.row (.equal ⟨10, .text⟩ ⟨5, .text⟩) = true ↔
      c.1.2.1.uid = c.1.1.1.data.jobUid := passes_equal_text rfl rfl rfl rfl
  have htimelog : Test.passes c.row (.equal ⟨20, .text⟩ ⟨6, .text⟩) = true ↔
      c.2.1.uid = c.1.1.1.data.timelogUid := passes_equal_text rfl rfl rfl rfl
  simp only [Plan.keeps, paymentsPlan, Bool.and_eq_true, List.all_cons, List.all_nil, Bool.and_true,
    hconditions, hjob, htimelog, Fits]

theorem order_eq (c c' : PaidTimelog) :
    (compareBy (paymentsPlan contractor start stop).keys c.row c'.row != .gt) =
      decide (c.2.1.data.timeStart ≤ c'.2.1.data.timeStart) :=
  compareBy_int rfl rfl

end PaidTimelog

/-- The payment line items of a contractor for timelogs within a period are the latest ones that name a
job of the contractor and a timelog within the period, each once, by the start of the timelog. -/
theorem payments_lists (hjobs : d.versionRows .job = some jobs)
    (htimelogs : d.versionRows .timelog = some timelogs)
    (hpayments : d.versionRows .payment = some payments) (hjobUids : (jobs.map (·.uid)).Nodup)
    (htimelogUids : (timelogs.map (·.uid)).Nodup) (hpaymentUids : (payments.map (·.uid)).Nodup) :
    ∃ vs, d.query Payment (Period.payments contractor start stop) = .ok vs ∧
      Lists vs
        (fun p => (p ∈ payments ∧ p.isLatest = true) ∧ WorkedBy jobs contractor p.data.jobUid ∧
          ∃ t ∈ timelogs, t.uid = p.data.timelogUid ∧ Within start stop t)
        (fun p p' => ∀ t ∈ timelogs, ∀ t' ∈ timelogs, t.uid = p.data.timelogUid →
          t'.uid = p'.data.timelogUid → t.data.timeStart ≤ t'.data.timeStart) := by
  have hxs : ((payments.zipIdx.filter (·.1.isLatest) ×ˢ jobs.zipIdx) ×ˢ timelogs.zipIdx).Nodup :=
    (((nodup_placed payments).filter _).product (nodup_placed jobs)).product (nodup_placed timelogs)
  obtain ⟨kept, hrun, hmem, hnodup, hpairwise⟩ := Plan.run_map (paymentsPlan contractor start stop)
    (d.engine.precedes d.indexes "payment_line_items" (Period.payments contractor start stop)) rfl
    (fun c => c.1.1.1) PaidTimelog.row _ (fun c => c.2.1.data.timeStart)
    (PaidTimelog.keeps_iff contractor start stop) (PaidTimelog.order_eq contractor start stop) hxs
  have hjob : d.relation "job" = .ok ⟨joinedHeadings Job, placedVersions jobs⟩ := relation_eq hjobs
  have htimelog : d.relation "timelog" = .ok ⟨joinedHeadings Timelog, placedVersions timelogs⟩ :=
    relation_eq htimelogs
  have hmem' : ∀ c, c ∈ kept ↔ (((c.1.1 ∈ payments.zipIdx ∧ c.1.1.1.isLatest = true) ∧
      c.1.2 ∈ jobs.zipIdx) ∧ c.2 ∈ timelogs.zipIdx) ∧ c.Fits contractor start stop := by
    intro c
    rw [hmem, List.mem_product, List.mem_product, List.mem_filter]
  -- The timelog that a payment line item names is the one it is grouped with.
  have hnamed : ∀ c ∈ kept, ∀ t ∈ timelogs, t.uid = c.1.1.1.data.timelogUid → c.2.1 = t := by
    intro c hc t ht huid
    obtain ⟨⟨-, hplaced⟩, -, -, hc⟩ := (hmem' c).mp hc
    obtain ⟨x, hx, rfl⟩ := mem_iff_placed.mp ht
    rw [eq_of_placed htimelogUids hplaced hx (hc.trans huid.symm)]
  have hquery : d.query Payment (Period.payments contractor start stop) =
      .ok (kept.map fun c => c.1.1.1) := by
    refine query_eq_ok_iff.mpr ⟨isBounded_payments contractor start stop, payments,
      [⟨joinedHeadings Job, placedVersions jobs⟩, ⟨joinedHeadings Timelog, placedVersions timelogs⟩],
      paymentsPlan contractor start stop, hpayments, ?_, plan_payments contractor start stop, rfl,
      (by decide : ¬maxInt64 < 0), ?_⟩
    · simp only [Period.payments, List.mapM_cons, List.mapM_nil, hjob, htimelog]
      rfl
    · rw [List.foldl_cons, List.foldl_cons, List.foldl_nil, latestRows_eq, joinRows_map, joinRows_map]
      exact hrun
  refine ⟨_, hquery, fun p => ?_, ?_, ?_⟩
  · rw [List.mem_map]
    constructor
    · rintro ⟨c, hc, rfl⟩
      obtain ⟨⟨⟨⟨hp, hlatest⟩, hj⟩, ht⟩, ⟨hcontractor, hwithin⟩, hjobUid, htimelogUid⟩ := (hmem' c).mp hc
      exact ⟨⟨mem_iff_placed.mpr ⟨_, hp, rfl⟩, hlatest⟩,
        ⟨c.1.2.1, mem_iff_placed.mpr ⟨_, hj, rfl⟩, hjobUid, hcontractor⟩,
        c.2.1, mem_iff_placed.mpr ⟨_, ht, rfl⟩, htimelogUid, hwithin⟩
    · rintro ⟨⟨hp, hlatest⟩, ⟨j, hj, hjobUid, hcontractor⟩, t, ht, htimelogUid, hwithin⟩
      obtain ⟨x, hx, rfl⟩ := mem_iff_placed.mp hp
      obtain ⟨y, hy, rfl⟩ := mem_iff_placed.mp hj
      obtain ⟨z, hz, rfl⟩ := mem_iff_placed.mp ht
      exact ⟨((x, y), z), (hmem' _).mpr
        ⟨⟨⟨⟨hx, hlatest⟩, hy⟩, hz⟩, ⟨hcontractor, hwithin⟩, hjobUid, htimelogUid⟩, rfl⟩
  · -- A payment line item names one job and one timelog, so it is in one group.
    rw [List.map_map]
    refine hnodup.map_on fun c hc c' hc' huid => ?_
    obtain ⟨⟨⟨⟨hp, -⟩, hj⟩, ht⟩, -, hjobUid, htimelogUid⟩ := (hmem' c).mp hc
    obtain ⟨⟨⟨⟨hp', -⟩, hj'⟩, ht'⟩, -, hjobUid', htimelogUid'⟩ := (hmem' c').mp hc'
    have hpayment : c.1.1 = c'.1.1 := eq_of_placed hpaymentUids hp hp' huid
    refine Prod.ext (Prod.ext hpayment (eq_of_placed hjobUids hj hj' ?_))
      (eq_of_placed htimelogUids ht ht' ?_)
    · rw [hjobUid, hjobUid', hpayment]
    · rw [htimelogUid, htimelogUid', hpayment]
  · refine List.pairwise_map.mpr (hpairwise.imp_of_mem fun {c c'} hc hc' hle t ht t' ht' huid huid' => ?_)
    rwa [hnamed c hc t ht huid, hnamed c' hc' t' ht' huid'] at hle

end Payments

end Database

end Payroll
