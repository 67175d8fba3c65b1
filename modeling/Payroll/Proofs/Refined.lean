import Mathlib.Data.List.Perm.Subperm
import Payroll.Proofs.Effect
/-!
# Refined queries reach latest rows only

A refined query reads its table as the latest rows only. Joins pair these rows with others, conditions
keep some of the pairs, an order sorts them and a limit cuts them off, and none of it brings in another
row, however conditions and alternatives are mixed.

## Key results

- `Plan.run_subperm`: a plan keeps some of the rows, each at most as often as it was there
- `query_none`: the empty refinement gives all latest rows, in the order of the table
- `amongLatest_of_query`: what a refined query gives is among them
-/

namespace Payroll

open Sql (Condition Refinement Value)

namespace Database

variable {α : Type} {rows : List (Version α × List Value)} {row : List Value} {v : Version α}
  {d : Database} {precedes : List Value → List Value → Bool}

/-! ## Rows that are read -/

/-- The values of a version in its place of a table. -/
def placedRow [VersionedData α] (x : Version α × Nat) : List Value :=
  .int (Int.ofNat x.2 + 1) :: x.1.values

theorem latestRows_eq [VersionedData α] (rows : List (Version α)) :
    latestRows rows = (rows.zipIdx.filter (·.1.isLatest)).map fun x => (x.1, placedRow x) :=
  List.map_congr_left fun _ _ => rfl

/-- The versions that are read are the latest ones of the table, in its order. -/
theorem map_fst_latestRows [VersionedData α] (rows : List (Version α)) :
    (latestRows rows).map (·.1) = rows.filter (·.isLatest) := by
  have hmap : (latestRows rows).map (·.1) = (rows.zipIdx.filter (·.1.isLatest)).map (·.1) := by
    rw [latestRows, List.map_map]
    rfl
  have hzip : (rows.zipIdx.map (·.1)).filter (·.isLatest) =
      (rows.zipIdx.filter (·.1.isLatest)).map (·.1) := List.filter_map
  rw [hmap, ← hzip, List.zipIdx_map_fst]

/-- Joined rows are those that were there, each with more values. -/
theorem exists_mem_of_joinRows {joined : List Relation}
    (h : (v, row) ∈ joined.foldl joinRows rows) : ∃ row', (v, row') ∈ rows := by
  induction joined generalizing rows with
  | nil => exact ⟨row, h⟩
  | cons r joined ih =>
    obtain ⟨row', h⟩ := ih h
    obtain ⟨⟨w, left⟩, hw, h⟩ := List.mem_flatMap.mp h
    obtain ⟨right, -, heq⟩ := List.mem_map.mp h
    obtain ⟨rfl, -⟩ := Prod.mk.inj heq
    exact ⟨left, hw⟩

/-! ## Rows that are kept -/

/-- The plan keeps rows with these values. -/
def Plan.keeps (p : Plan) (row : List Value) : Bool :=
  passesSome row p.alternatives && p.joins.all (Test.passes row)

/-- A plan sorts the rows that it keeps, as the engine finds them, and cuts them off. -/
theorem Plan.run_eq (p : Plan) (precedes : List Value → List Value → Bool)
    (rows : List (Version α × List Value)) :
    p.run precedes rows =
      let found := (rows.filter fun x => p.keeps x.2).mergeSort fun a b => precedes a.2 b.2
      let sorted := found.mergeSort fun a b => compareBy p.keys a.2 b.2 != .gt
      p.limit.elim (sorted.map (·.1)) (sorted.map (·.1)).take := by
  rw [run]
  cases p.limit <;> rfl

/-- A plan treats rows that stand for something else as it does what they stand for. -/
theorem Plan.run_map_eq {γ : Type} (p : Plan) (xs : List γ) (version : γ → Version α)
    (row : γ → List Value) :
    p.run precedes (xs.map fun x => (version x, row x)) = p.limit.elim id List.take
      ((((xs.filter fun x => p.keeps (row x)).mergeSort fun x y =>
        precedes (row x) (row y)).mergeSort fun x y =>
          compareBy p.keys (row x) (row y) != .gt).map version) := by
  have hsort (le : List Value → List Value → Bool) (ys : List γ) :
      (ys.map fun x => (version x, row x)).mergeSort (fun a b => le a.2 b.2) =
        (ys.mergeSort fun x y => le (row x) (row y)).map fun x => (version x, row x) :=
    (List.map_mergeSort (f := fun x => (version x, row x)) fun _ _ _ _ => rfl).symm
  rw [run_eq, List.filter_map]
  dsimp only [Function.comp_def]
  rw [hsort precedes, hsort fun a b => compareBy p.keys a b != .gt, List.map_map]
  cases p.limit <;> rfl

/-- A plan keeps some of the rows, each at most as often as it was there. -/
theorem Plan.run_subperm (p : Plan) (rows : List (Version α × List Value)) :
    (p.run precedes rows).Subperm (rows.map (·.1)) := by
  have hkept : ((rows.filter fun x => p.keeps x.2).map (·.1)).Subperm (rows.map (·.1)) :=
    (List.filter_sublist.map _).subperm
  have hsorted : ((((rows.filter fun x => p.keeps x.2).mergeSort fun a b => precedes a.2 b.2).mergeSort
      fun a b => compareBy p.keys a.2 b.2 != .gt).map (·.1)).Subperm (rows.map (·.1)) :=
    (((List.mergeSort_perm _ _).trans (List.mergeSort_perm _ _)).map _).subperm.trans hkept
  rw [run_eq]
  cases p.limit with
  | none => exact hsorted
  | some n => exact (List.take_sublist n _).subperm.trans hsorted

/-! ## What it takes to succeed -/

/-- A query is no larger than a statement may be. -/
def IsBounded (r : Refinement) : Prop :=
  r.joins.length + 1 ≤ maxTables ∧ r.order.length ≤ maxColumns ∧
    ∃ depth joined whole, depthAfter 0 (r.conditions.map Condition.part) = .ok depth ∧
      depthJoined depth r.joins = .ok joined ∧ nested (joinedDepth 2 joined) = .ok whole

/-- A query succeeds if it is not too large, the tables are there, all names can be made out, and values and
limit fit. -/
theorem query_eq_ok_iff [VersionedTable α] {r : Refinement} {vs : List (Version α)} :
    d.query α r = .ok vs ↔ IsBounded r ∧ ∃ rows joined p, VersionedTable.rows? d = some rows ∧
      (r.joins.mapM fun j => d.relation j.table) = .ok joined ∧
      plan α (latestHeadings α ++ joined.flatMap (·.headings)) r = .ok p ∧
      r.params.length = r.conditions.foldl (fun n c => n + c.places) 0 ∧
      ¬maxInt64 < r.limit.getD 0 ∧
      p.run (d.engine.precedes d.indexes (VersionedData.table α) r)
        (joined.foldl joinRows (latestRows rows)) = vs := by
  rw [query]
  constructor
  · intro h
    obtain ⟨-, h⟩ := unless_eq_ok_iff.mp h
    obtain ⟨depth, hdepth, h⟩ := bind_eq_ok_iff.mp h
    obtain ⟨rows, hrows, h⟩ := bind_eq_ok_iff.mp h
    obtain ⟨relations, hrelations, h⟩ := bind_eq_ok_iff.mp h
    obtain ⟨joined, hjoined, h⟩ := bind_eq_ok_iff.mp h
    obtain ⟨p, hp, h⟩ := bind_eq_ok_iff.mp h
    obtain ⟨hkeys, h⟩ := unless_eq_ok_iff.mp h
    obtain ⟨whole, hwhole, h⟩ := bind_eq_ok_iff.mp h
    obtain ⟨htables, h⟩ := unless_eq_ok_iff.mp h
    obtain ⟨hparams, h⟩ := unless_eq_ok_iff.mp h
    obtain ⟨hlimit, h⟩ := unless_eq_ok_iff.mp h
    refine ⟨⟨Nat.not_lt.mp htables, Nat.not_lt.mp hkeys, depth, joined, whole, hdepth, hjoined, hwhole⟩, ?_⟩
    exact ⟨rows, relations, p, versions_eq_ok_iff.mp hrows, hrelations, hp,
      Decidable.not_not.mp hparams, hlimit, Except.ok.inj h⟩
  · rintro ⟨⟨htables, hkeys, depth, joined, whole, hdepth, hjoined, hwhole⟩, rows, relations, p, hrows,
      hrelations, hp, hparams, hlimit, hrun⟩
    have hsources : ¬maxSources < r.joins.length + 1 := by
      simp only [maxTables, maxSources] at htables ⊢
      omega
    refine unless_eq_ok_iff.mpr ⟨hsources, ?_⟩
    refine bind_eq_ok_iff.mpr ⟨depth, hdepth, ?_⟩
    refine bind_eq_ok_iff.mpr ⟨rows, versions_eq_ok_iff.mpr hrows, ?_⟩
    refine bind_eq_ok_iff.mpr ⟨relations, hrelations, ?_⟩
    refine bind_eq_ok_iff.mpr ⟨joined, hjoined, ?_⟩
    refine bind_eq_ok_iff.mpr ⟨p, hp, ?_⟩
    refine unless_eq_ok_iff.mpr ⟨Nat.not_lt.mpr hkeys, ?_⟩
    refine bind_eq_ok_iff.mpr ⟨whole, hwhole, ?_⟩
    refine unless_eq_ok_iff.mpr ⟨Nat.not_lt.mpr htables, ?_⟩
    refine unless_eq_ok_iff.mpr ⟨not_not_intro hparams, ?_⟩
    exact unless_eq_ok_iff.mpr ⟨hlimit, congrArg _ hrun⟩

/-! ## The empty refinement -/

/-- The empty refinement keeps everything and sorts by place. -/
theorem plan_none (k : VersionKind) :
    plan k.Data (latestHeadings k.Data) .none = .ok ⟨[[]], [], [(⟨0, .integer⟩, false)], none⟩ := by
  cases k <;> rfl

/-- Sorting by a number is sorting by that number. -/
theorem compareBy_int {cell : Cell} {row' : List Value} {a b : Int} (ha : cell.value row = .int a)
    (hb : cell.value row' = .int b) :
    (compareBy [(cell, false)] row row' != .gt) = decide (a ≤ b) := by
  have hsame : compareBy [(cell, false)] row row' = compare a b := by
    simp only [compareBy, ha, hb, Value.order]
    cases compare a b <;> rfl
  rw [hsame, Bool.eq_iff_iff, bne_iff_ne, Ne, Int.compare_eq_gt, decide_eq_true_iff, Int.not_lt]

/-- Rows that are sorted by their places stand as they do in the table, however they were found. -/
theorem mergeSort_of_places [VersionedData α] {rows : List (Version α)} {p : Version α × Nat → Bool}
    {found : List (Version α × Nat)} (hfound : found.Perm (rows.zipIdx.filter p)) :
    found.mergeSort (fun x y =>
      compareBy [(⟨0, .integer⟩, false)] (placedRow x) (placedRow y) != .gt) = rows.zipIdx.filter p := by
  have hle (x y : Version α × Nat) : (compareBy [(⟨0, .integer⟩, false)] (placedRow x) (placedRow y) != .gt) =
      decide (x.2 ≤ y.2) := by
    rw [compareBy_int (a := Int.ofNat x.2 + 1) (b := Int.ofNat y.2 + 1) rfl rfl]
    simp
  have hplaces : (rows.zipIdx.filter p).Pairwise fun x y => x.2 < y.2 := by
    have hall : rows.zipIdx.Pairwise fun x y => x.2 < y.2 := by
      rw [← List.pairwise_map, List.zipIdx_map_snd]
      exact List.pairwise_lt_range'
    exact hall.filter _
  have hsorted : (found.mergeSort fun x y => decide (x.2 ≤ y.2)).Pairwise fun x y => x.2 ≤ y.2 := by
    refine (List.pairwise_mergeSort (fun x y z hxy hyz => ?_) (fun x y => ?_) found).imp of_decide_eq_true
    · exact decide_eq_true (Nat.le_trans (of_decide_eq_true hxy) (of_decide_eq_true hyz))
    · simp [Nat.le_total]
  have hperm : (found.mergeSort fun x y => decide (x.2 ≤ y.2)).Perm (rows.zipIdx.filter p) :=
    (List.mergeSort_perm found _).trans hfound
  simp only [hle]
  refine hperm.eq_of_pairwise (fun x y hx hy hxy hyx => ?_) hsorted (hplaces.imp Nat.le_of_lt)
  -- No two rows stand at one place.
  have hinj := (List.pairwise_map.mpr hplaces).imp Nat.ne_of_lt
  exact List.inj_on_of_nodup_map hinj (hperm.mem_iff.mp hx) hy (Nat.le_antisymm hxy hyx)

/-- The empty refinement gives all latest rows, in the order of the table. -/
theorem query_none {k : VersionKind} {rows : List (Version k.Data)}
    (hrows : d.versionRows k = some rows) :
    d.query k.Data .none = .ok (rows.filter (·.isLatest)) := by
  have hplan := plan_none k
  rw [← List.append_nil (latestHeadings k.Data)] at hplan
  refine query_eq_ok_iff.mpr ⟨⟨by decide, by decide, _, _, _, rfl, rfl, rfl⟩, rows, [], _, hrows, rfl, hplan,
    rfl, by decide, ?_⟩
  have hkept : (rows.zipIdx.filter (·.1.isLatest)).filter (fun x =>
      Plan.keeps ⟨[[]], [], [(⟨0, .integer⟩, false)], none⟩ (placedRow x)) =
        rows.zipIdx.filter (·.1.isLatest) :=
    List.filter_eq_self.mpr fun _ _ => rfl
  rw [List.foldl_nil, ← map_fst_latestRows, latestRows_eq, Plan.run_map_eq, hkept,
    mergeSort_of_places (List.mergeSort_perm _ _), List.map_map]
  rfl

/-! ## Any refinement -/

/-- What is given of a table is among its latest rows, which the empty refinement gives. -/
structure AmongLatest (k : VersionKind) (d : Database) (r : Refinement) (rows vs : List (Version k.Data)) :
    Prop where
  table : d.versionRows k = some rows
  query_none : d.query k.Data .none = .ok (rows.filter (·.isLatest))
  mem : ∀ v ∈ vs, v ∈ rows ∧ v.isLatest = true
  /-- Without joins, every row is given at most once. -/
  subperm : r.joins = [] → vs.Subperm (rows.filter (·.isLatest))
  nodup : r.joins = [] → (rows.map (·.uid)).Nodup → (vs.map (·.uid)).Nodup

/-- Whatever a refinement says, what it gives is among the latest rows. -/
theorem amongLatest_of_query {k : VersionKind} {r : Refinement} {vs : List (Version k.Data)}
    (h : d.query k.Data r = .ok vs) : ∃ rows, AmongLatest k d r rows vs := by
  obtain ⟨-, rows, joined, p, hrows, hjoined, -, -, -, rfl⟩ := query_eq_ok_iff.mp h
  have hsub : r.joins = [] →
      (p.run (d.engine.precedes d.indexes (VersionedData.table k.Data) r)
        (joined.foldl joinRows (latestRows rows))).Subperm (rows.filter (·.isLatest)) := by
    -- Without joins, the rows are the latest ones, each once.
    intro hjoins
    rw [hjoins, List.mapM_nil] at hjoined
    obtain rfl := Except.ok.inj hjoined
    rw [← map_fst_latestRows]
    exact p.run_subperm (latestRows rows)
  refine ⟨rows, hrows, query_none hrows, fun v hv => ?_, hsub, fun hjoins hnodup => ?_⟩
  · -- Neither the plan nor a join brings in another row.
    obtain ⟨⟨w, row⟩, hrow, rfl⟩ := List.mem_map.mp ((p.run_subperm _).subset hv)
    obtain ⟨row', hrow'⟩ := exists_mem_of_joinRows hrow
    have hlatest := List.mem_map_of_mem (f := (·.1)) hrow'
    rw [map_fst_latestRows] at hlatest
    exact List.mem_filter.mp hlatest
  · obtain ⟨kept, hperm, hkept⟩ := hsub hjoins
    exact (hperm.map _).nodup (((hkept.trans List.filter_sublist).map _).nodup hnodup)

/-- A condition that ends the ones before it and starts an alternative does not reach what has been
superseded. -/
theorem amongLatest_of_query_alternative :
    let v : Version Timelog :=
      { id := "1", version := 2, uid := "3", isLatest := true, data := ⟨60, 0, 60, "work", "0"⟩ }
    let d : Database := { Database.fresh with
      timelogs := some [{ v with version := 1, uid := "2", isLatest := false }, v] }
    let r : Refinement := ⟨[], [.raw "1 = 0" [], .raw "1) OR (1" []], [], some 5⟩
    d.query Timelog r = .ok [v] ∧ ∃ rows, AmongLatest .timelog d r rows [v] := by
  intro v d r
  have h : d.query Timelog r = .ok [v] := by with_unfolding_all rfl
  exact ⟨h, amongLatest_of_query h⟩

end Database

end Payroll
