import Payroll.Proofs.Period
/-!
# Refinements about columns of the latest rows

A refinement that joins no tables sees the latest rows of one table, each with its place in the table and
the values of its columns. Where its conditions compare these columns and its sort keys name them, what
the query gives can be told from the columns alone: the rows that meet all conditions, as they stand or in
the order of the keys, up to the limit.

## Key results

- `Names.exists_find`: the cell of a column that is named
- `plan_of_isPlain`: what a query makes out of such a refinement
- `query_of_isPlain`: what it gives
-/

namespace Payroll

open Sql (ColumnRef Condition Refinement SortKey Value)
open Database (latestHeadings placedRow)

variable {k : VersionKind} {ref : ColumnRef}

/-! ## Columns that are meant -/

/-- The columns of the latest rows, with that of their place in the table before those of the table. -/
def latestColumns (k : VersionKind) : List Column :=
  ⟨Refinement.placeColumn, .integer⟩ :: versionColumns k.Data

/-- The column that is meant by a reference, and the value of a row in it. -/
def seen? (k : VersionKind) (ref : ColumnRef) (x : Version k.Data × Nat) : Option (Column × Value) :=
  if sameName ref.table (VersionedData.table k.Data) then
    ((latestColumns k).zip (placedRow x)).find? fun p => sameName p.1.name ref.column
  else none

/-- The reference is to a column of the latest rows. -/
def Sql.ColumnRef.Names (k : VersionKind) (ref : ColumnRef) : Prop :=
  sameName ref.table (VersionedData.table k.Data) = true ∧
    ∃ c ∈ latestColumns k, sameName c.name ref.column = true

instance (k : VersionKind) (ref : ColumnRef) : Decidable (ref.Names k) :=
  inferInstanceAs (Decidable (_ ∧ ∃ c ∈ latestColumns k, sameName c.name ref.column = true))

/-- No two columns go by one name. -/
theorem pairwise_latestColumns (k : VersionKind) :
    (latestColumns k).Pairwise fun c c' => sameName c.name c'.name = false := by
  cases k <;> decide +kernel

theorem length_placedRow (x : Version k.Data × Nat) :
    (placedRow x).length = (latestColumns k).length := by
  cases k <;> rfl

/-- Names that are the same as a third one are the same. -/
theorem sameName_of_sameName {a b c : String} (hac : sameName a c = true) (hbc : sameName b c = true) :
    sameName a b = true := by
  rw [sameName, beq_iff_eq] at hac hbc ⊢
  rw [hac, hbc]

/-- A test that picks a single heading finds its cell. -/
theorem Cell.among_eq_singleton {before after : List Heading} {h : Heading} {p : Heading → Bool}
    (hp : p h = true) (hbefore : ∀ h' ∈ before, p h' = false) (hafter : ∀ h' ∈ after, p h' = false) :
    Cell.among (before ++ h :: after) p = [⟨before.length, h.column.affinity⟩] := by
  have hnone (hs : List Heading) (start : Nat) (hhs : ∀ h' ∈ hs, p h' = false) :
      (hs.zipIdx start).filter (fun x => p x.1) = [] := by
    rw [List.filter_eq_nil_iff]
    intro x hx
    rw [hhs x.1 (List.fst_mem_of_mem_zipIdx hx)]
    exact Bool.false_ne_true
  have hone : (before ++ h :: after).zipIdx.filter (fun x => p x.1) = [(h, before.length)] := by
    rw [List.zipIdx_append, List.filter_append, List.zipIdx_cons, List.filter_cons, if_pos hp,
      hnone _ _ hbefore, hnone _ _ hafter, Nat.zero_add]
    rfl
  exact congrArg (List.map _) hone

/-- A list is split at a place that is in it. -/
theorem exists_split {β : Type} {xs : List β} {n : Nat} (hn : n < xs.length) :
    ∃ before x after, xs = before ++ x :: after ∧ before.length = n :=
  ⟨xs.take n, xs[n], xs.drop (n + 1), by simp, List.length_take_of_le (Nat.le_of_lt hn)⟩

/-- The columns before and after one that is meant are not meant. -/
private theorem exists_columns (h : ref.Names k) :
    ∃ before c after, latestColumns k = before ++ c :: after ∧ sameName c.name ref.column = true ∧
      (∀ c' ∈ before, sameName c'.name ref.column = false) ∧
      ∀ c' ∈ after, sameName c'.name ref.column = false := by
  obtain ⟨-, c, hc, hname⟩ := h
  obtain ⟨before, after, hsplit⟩ := List.append_of_mem hc
  have hpairwise := pairwise_latestColumns k
  rw [hsplit, List.pairwise_append, List.pairwise_cons] at hpairwise
  obtain ⟨-, ⟨hafter, -⟩, hbefore⟩ := hpairwise
  refine ⟨before, c, after, hsplit, hname, fun c' hc' => ?_, fun c' hc' => ?_⟩
  · refine Bool.eq_false_iff.mpr fun hsame => ?_
    exact Bool.false_ne_true
      ((hbefore c' hc' c List.mem_cons_self).symm.trans (sameName_of_sameName hsame hname))
  · refine Bool.eq_false_iff.mpr fun hsame => ?_
    exact Bool.false_ne_true ((hafter c' hc').symm.trans (sameName_of_sameName hname hsame))

section

variable {before after : List Column} {c : Column}
  (hsplit : latestColumns k = before ++ c :: after)
  (htable : sameName ref.table (VersionedData.table k.Data) = true)
  (hname : sameName c.name ref.column = true)
  (hbefore : ∀ c' ∈ before, sameName c'.name ref.column = false)
include hsplit htable hname hbefore

/-- A query finds the cell of the only column that is meant. -/
private theorem find_latestHeadings (hafter : ∀ c' ∈ after, sameName c'.name ref.column = false) :
    Cell.find (latestHeadings k.Data) ref = .ok ⟨before.length, c.affinity⟩ := by
  have hheadings : latestHeadings k.Data = Heading.named (VersionedData.table k.Data) before ++
      ⟨[VersionedData.table k.Data], c, false⟩ ::
        Heading.named (VersionedData.table k.Data) after := by
    show Heading.named (VersionedData.table k.Data) (latestColumns k) = _
    rw [hsplit, Heading.named, List.map_append, List.map_cons]
    rfl
  have hother (cs : List Column) (hcs : ∀ c' ∈ cs, sameName c'.name ref.column = false) :
      ∀ h ∈ Heading.named (VersionedData.table k.Data) cs, h.isNamed ref = false := by
    intro h hh
    obtain ⟨c', hc', rfl⟩ := List.mem_map.mp hh
    simp [Heading.isNamed, hcs c' hc']
  have hone := Cell.among_eq_singleton (p := (·.isNamed ref))
    (h := ⟨[VersionedData.table k.Data], c, false⟩)
    (by simp [Heading.isNamed, Heading.ofTable, htable, hname]) (hother before hbefore)
    (hother after hafter)
  rw [Cell.find, hheadings, hone, Heading.named, List.length_map]
  rfl

/-- The value in the column that is meant is the one in its cell. -/
private theorem seen?_eq (x : Version k.Data × Nat) :
    seen? k ref x = some (c, Cell.value ⟨before.length, c.affinity⟩ (placedRow x)) := by
  -- The row has a value for each column, so it is split where the columns are.
  have hlength : before.length < (placedRow x).length := by
    rw [length_placedRow, hsplit, List.length_append, List.length_cons]
    omega
  obtain ⟨front, v, back, hrow, hfront⟩ := exists_split hlength
  have hnone : (before.zip front).find? (fun p => sameName p.1.name ref.column) = none := by
    rw [List.find?_eq_none]
    intro p hp
    rw [hbefore p.1 (List.of_mem_zip hp).1]
    exact Bool.false_ne_true
  have hfind : ((latestColumns k).zip (placedRow x)).find?
      (fun p => sameName p.1.name ref.column) = some (c, v) := by
    rw [hsplit, hrow, List.zip_append hfront.symm, List.find?_append, hnone, Option.none_or,
      List.zip_cons_cons, List.find?_cons, hname]
  have hvalue : Cell.value ⟨before.length, c.affinity⟩ (placedRow x) = v := by
    rw [Cell.value, hrow, ← hfront]
    simp
  rw [seen?, if_pos htable, hfind, hvalue]

end

/-- A reference to a column finds the cell of this column. -/
theorem Sql.ColumnRef.Names.exists_find (h : ref.Names k) :
    ∃ cell c, Cell.find (latestHeadings k.Data) ref = .ok cell ∧ c ∈ latestColumns k ∧
      c.affinity = cell.affinity ∧
      ∀ x : Version k.Data × Nat, seen? k ref x = some (c, cell.value (placedRow x)) := by
  obtain ⟨before, c, after, hsplit, hname, hbefore, hafter⟩ := exists_columns h
  refine ⟨⟨before.length, c.affinity⟩, c, ?_, ?_, rfl, ?_⟩
  · exact find_latestHeadings hsplit h.1 hname hbefore hafter
  · rw [hsplit]
    exact List.mem_append_right before List.mem_cons_self
  · exact seen?_eq hsplit h.1 hname hbefore

/-! ## What conditions and an order say of rows -/

/-- The row has a value that compares with that of the condition as it asks for. -/
def Sql.Condition.holds (k : VersionKind) (x : Version k.Data × Nat) : Condition → Bool
  | .compare ref comparison value =>
    ((seen? k ref x).bind fun p => Sql.compareUnder p.1.affinity p.2 value.bound).any comparison.holds
  | .raw _ _ => false

/-- The value that a row has in a column. -/
def seenValue (k : VersionKind) (ref : ColumnRef) (x : Version k.Data × Nat) : Value :=
  ((seen? k ref x).map (·.2)).getD .null

/-- How two rows stand to each other by a sort key. -/
def Sql.SortKey.compare (k : VersionKind) (key : SortKey) (x y : Version k.Data × Nat) : Ordering :=
  if key.descending then ((seenValue k key.column x).order (seenValue k key.column y)).swap
  else (seenValue k key.column x).order (seenValue k key.column y)

/-- How two rows stand to each other by sort keys, the first one that tells them apart deciding. -/
def compareKeys (k : VersionKind) (x y : Version k.Data × Nat) : List SortKey → Ordering
  | [] => .eq
  | key :: keys => (key.compare k x y).then (compareKeys k x y keys)

/-- The condition compares a column of the latest rows. -/
def Sql.Condition.Compares (k : VersionKind) : Condition → Prop
  | .compare ref _ _ => ref.Names k
  | .raw _ _ => False

instance (k : VersionKind) : (c : Condition) → Decidable (c.Compares k)
  | .compare ref _ _ => inferInstanceAs (Decidable (ref.Names k))
  | .raw _ _ => inferInstanceAs (Decidable False)

/-- The refinement joins no tables, and what it asks for is about columns of the latest rows. -/
structure Sql.Refinement.IsPlain (k : VersionKind) (r : Refinement) : Prop where
  joins : r.joins = []
  conditions : ∀ c ∈ r.conditions, c.Compares k
  order : ∀ key ∈ r.order, key.column.Names k

/-! ## Plans -/

namespace Database

/-- Tests without an alternative between them are one alternative. -/
theorem alternatives_map_test (tests : List Test) : alternatives (tests.map .test) = [tests] := by
  induction tests with
  | nil => rfl
  | cons t tests ih => rw [List.map_cons, alternatives, ih]

/-- Conditions that compare columns are tests of what they say. -/
private theorem exists_tests {conditions : List Condition}
    (h : ∀ c ∈ conditions, c.Compares k) :
    ∃ tests : List Test, conditions.mapM (clause (latestHeadings k.Data)) = .ok (tests.map .test) ∧
      ∀ x, tests.all (Test.passes (placedRow x)) = conditions.all (·.holds k x) := by
  induction conditions with
  | nil => exact ⟨[], rfl, fun _ => rfl⟩
  | cons c conditions ih =>
    rw [List.forall_mem_cons] at h
    obtain ⟨tests, htests, hall⟩ := ih h.2
    cases c with
    | raw text values => exact h.1.elim
    | compare ref comparison value =>
      obtain ⟨cell, column, hcell, -, haffinity, hseen⟩ := ColumnRef.Names.exists_find h.1
      refine ⟨.compare cell comparison value :: tests, ?_, fun x => ?_⟩
      · rw [List.mapM_cons, htests, clause, hcell]
        rfl
      · rw [List.all_cons, List.all_cons, hall, Condition.holds, hseen, Test.passes, ← haffinity,
          Option.bind_some]
        cases Sql.compareUnder column.affinity (cell.value (placedRow x)) value.bound <;> rfl

/-- Sort keys are cells that order rows as the keys say. -/
private theorem exists_cells {order : List SortKey} (h : ∀ key ∈ order, key.column.Names k) :
    ∃ cells : List (Cell × Bool),
      (order.mapM fun key => do
        return (← Cell.find (latestHeadings k.Data) key.column, key.descending)) = .ok cells ∧
      (cells = [] ↔ order = []) ∧
      ∀ x y, compareBy cells (placedRow x) (placedRow y) = compareKeys k x y order := by
  induction order with
  | nil => exact ⟨[], rfl, by simp, fun _ _ => rfl⟩
  | cons key order ih =>
    rw [List.forall_mem_cons] at h
    obtain ⟨cells, hcells, -, hcompare⟩ := ih h.2
    obtain ⟨cell, column, hcell, -, -, hseen⟩ := h.1.exists_find
    refine ⟨(cell, key.descending) :: cells, ?_, by simp, fun x y => ?_⟩
    · rw [List.mapM_cons, hcells, hcell]
      rfl
    · rw [compareBy, compareKeys, hcompare, SortKey.compare, seenValue, seenValue, hseen, hseen]
      dsimp only [Option.map_some, Option.getD_some]
      cases (cell.value (placedRow x)).order (cell.value (placedRow y)) <;>
        cases key.descending <;> rfl

variable {r : Refinement}

/-- What a refinement asks for is made out if it is about columns of the latest rows. -/
theorem plan_of_isPlain (h : r.IsPlain k) : ∃ tests cells,
    plan k.Data (latestHeadings k.Data) r = .ok ⟨[tests], [], cells, r.limit⟩ ∧
      (∀ x, tests.all (Test.passes (placedRow x)) = r.conditions.all (·.holds k x)) ∧
      (r.order = [] → cells = [(⟨0, .integer⟩, false)]) ∧
      (r.order ≠ [] → ∀ x y,
        compareBy cells (placedRow x) (placedRow y) = compareKeys k x y r.order) := by
  obtain ⟨tests, htests, hall⟩ := exists_tests h.conditions
  obtain ⟨cells, hcells, hempty, hcompare⟩ := exists_cells h.order
  obtain ⟨read, hread⟩ : ∃ read, ((selected k.Data).mapM fun c =>
      Cell.find (latestHeadings k.Data) ⟨VersionedData.table k.Data, c⟩) = .ok read := by
    cases k <;> exact ⟨_, rfl⟩
  have hplace : Cell.find (latestHeadings k.Data)
      ⟨VersionedData.table k.Data, Refinement.placeColumn⟩ = .ok ⟨0, .integer⟩ := by
    cases k <;> rfl
  refine ⟨tests, if cells.isEmpty then [(⟨0, .integer⟩, false)] else cells, ?_, hall, ?_, ?_⟩
  · rw [plan]
    simp only [hread, htests, hcells, h.joins, hplace, List.mapM_nil]
    simp only [bind, Except.bind, pure, Except.pure, alternatives_map_test]
    cases cells.isEmpty <;> rfl
  · intro horder
    rw [hempty.mpr horder]
    rfl
  · intro horder
    have hcells : cells.isEmpty = false := by
      rw [List.isEmpty_eq_false_iff]
      exact fun hnil => horder (hempty.mp hnil)
    rw [hcells]
    exact hcompare

/-! ## What is given -/

/-- The latest rows of a table with their places, in their order. -/
def latestPlaced (rows : List (Version k.Data)) : List (Version k.Data × Nat) :=
  rows.zipIdx.filter (·.1.isLatest)

/-- The latest rows that pass a test are those of the table. -/
theorem map_fst_latestPlaced (rows : List (Version k.Data)) (p : Version k.Data → Bool) :
    ((latestPlaced rows).filter fun x => p x.1).map (·.1) = rows.filter fun r => r.isLatest && p r := by
  have hmap : (rows.zipIdx.map (·.1)).filter (fun r => r.isLatest && p r) =
      (rows.zipIdx.filter fun x => x.1.isLatest && p x.1).map (·.1) := List.filter_map
  rw [List.zipIdx_map_fst] at hmap
  rw [hmap, latestPlaced, List.filter_filter]
  simp only [Bool.and_comm]

/-- Rows in the order of sort keys as they are found, or as they stand if there is no key. -/
def arranged (k : VersionKind) (order : List SortKey)
    (precedes : Version k.Data × Nat → Version k.Data × Nat → Bool) (xs : List (Version k.Data × Nat)) :
    List (Version k.Data × Nat) :=
  if order.isEmpty then xs
  else (xs.mergeSort precedes).mergeSort fun x y => compareKeys k x y order != .gt

/-- Which of two rows the engine of a database finds first for a query. -/
def findsFirst (d : Database) (k : VersionKind) (r : Refinement) (x y : Version k.Data × Nat) : Bool :=
  d.engine.precedes d.indexes (VersionedData.table k.Data) r (placedRow x) (placedRow y)

/-- What there is too much of in a refinement that joins no tables, if there is. -/
def excess? (r : Refinement) : Option DatabaseFault :=
  if maxTerms < r.conditions.length then some .tooDeep
  else if maxColumns < r.order.length then some .tooManyKeys
  else if maxTerms ≤ r.conditions.length then some .tooDeep
  else if maxInt64 < r.limit.getD 0 then some .limitTooLarge
  else none

/-- Conditions that compare columns are terms. -/
private theorem areTerms_of_compares {conditions : List Condition} (h : ∀ c ∈ conditions, c.Compares k) :
    AreTerms (conditions.map Condition.part) := by
  intro p hp
  obtain ⟨c, hc, rfl⟩ := List.mem_map.mp hp
  cases c with
  | compare => exact ⟨1, Nat.le_refl 1, rfl⟩
  | raw => exact (h _ hc).elim

private theorem depthAfter_of_compares {conditions : List Condition} (h : ∀ c ∈ conditions, c.Compares k) :
    depthAfter 0 (conditions.map Condition.part) =
      if maxTerms < conditions.length then .error .tooDeep else .ok (termsDepth conditions.length) := by
  rw [depthAfter_terms (areTerms_of_compares h) (Nat.zero_le _), List.length_map]

/-- That rows are the latest ones is one term more. -/
private theorem maxDepth_lt_joinedDepth_iff {n : Nat} :
    maxDepth < joinedDepth 2 (termsDepth n) ↔ maxTerms ≤ n := by
  cases n with
  | zero => decide
  | succ n =>
    have hmax : max 2 (n + 1 + 2) = n + 3 := Nat.max_eq_right (by omega)
    rw [termsDepth, if_neg (Nat.succ_ne_zero n), joinedDepth, if_neg (by decide), if_neg (by omega), hmax,
      maxDepth, maxTerms]
    omega

/-- Conditions that compare columns have a value for each place of their texts. -/
private theorem length_params {conditions : List Condition} {n : Nat}
    (h : ∀ c ∈ conditions, c.Compares k) :
    conditions.foldl (fun n c => n + c.places) n = n + (conditions.flatMap Condition.params).length := by
  induction conditions generalizing n with
  | nil => rfl
  | cons c conditions ih =>
    rw [List.forall_mem_cons] at h
    have hone : c.places = c.params.length := by
      cases c with
      | compare => rfl
      | raw => exact h.1.elim
    rw [List.foldl_cons, ih h.2, List.flatMap_cons, List.length_append, hone, Nat.add_assoc]

/-- Cells that stand for sort keys arrange rows, and those of the places leave them as they stand. -/
private theorem mergeSort_eq_arranged {order : List SortKey} {cells : List (Cell × Bool)}
    (hplaced : order = [] → cells = [(⟨0, .integer⟩, false)])
    (hcompare : order ≠ [] → ∀ x y : Version k.Data × Nat,
      compareBy cells (placedRow x) (placedRow y) = compareKeys k x y order)
    {precedes : Version k.Data × Nat → Version k.Data × Nat → Bool} {rows : List (Version k.Data)}
    {p : Version k.Data × Nat → Bool} :
    (((latestPlaced rows).filter p).mergeSort precedes).mergeSort
      (fun x y => compareBy cells (placedRow x) (placedRow y) != .gt) =
        arranged k order precedes ((latestPlaced rows).filter p) := by
  rw [arranged]
  by_cases horder : order = []
  · rw [horder, List.isEmpty_nil, if_pos rfl, hplaced horder, latestPlaced, List.filter_filter]
    exact mergeSort_of_places (List.mergeSort_perm _ _)
  · rw [List.isEmpty_eq_false_iff.mpr horder, if_neg Bool.false_ne_true]
    simp only [hcompare horder]

/-- A plan with tests of what rows meet keeps these, and orders them by its cells. -/
private theorem run_latestRows {tests : List Test} {cells : List (Cell × Bool)} {limit : Option Nat}
    {p : Version k.Data × Nat → Bool} (hall : ∀ x, tests.all (Test.passes (placedRow x)) = p x)
    (precedes : List Value → List Value → Bool) (rows : List (Version k.Data)) :
    Plan.run ⟨[tests], [], cells, limit⟩ precedes (latestRows rows) =
      limit.elim id List.take (((((latestPlaced rows).filter p).mergeSort fun x y =>
        precedes (placedRow x) (placedRow y)).mergeSort fun x y =>
          compareBy cells (placedRow x) (placedRow y) != .gt).map (·.1)) := by
  have hkeeps (x : Version k.Data × Nat) :
      Plan.keeps ⟨[tests], [], cells, limit⟩ (placedRow x) = p x := by
    rw [← hall]
    simp [Plan.keeps, passesSome]
  rw [latestRows_eq, Plan.run_map_eq]
  simp only [hkeeps]
  rfl

/-- A query about columns of the latest rows gives those that meet the conditions, in the order that is
asked for and up to the limit, unless there is too much of something. -/
theorem query_of_isPlain {d : Database} {rows : List (Version k.Data)}
    (hrows : d.versionRows k = some rows) (h : r.IsPlain k) :
    d.query k.Data r = (excess? r).elim
      (.ok (r.limit.elim id List.take ((arranged k r.order (d.findsFirst k r) ((latestPlaced rows).filter
        fun x => r.conditions.all (·.holds k x))).map (·.1)))) .error := by
  obtain ⟨tests, cells, hplan, hall, hplaced, hcompare⟩ := plan_of_isPlain h
  have hparams : r.params.length = r.conditions.foldl (fun n c => n + c.places) 0 := by
    rw [length_params h.conditions, Nat.zero_add]
    rfl
  have hrun : Plan.run ⟨[tests], [], cells, r.limit⟩
      (d.engine.precedes d.indexes (VersionedData.table k.Data) r) (latestRows rows) =
        r.limit.elim id List.take ((arranged k r.order (d.findsFirst k r)
          ((latestPlaced rows).filter fun x => r.conditions.all (·.holds k x))).map (·.1)) := by
    rw [run_latestRows hall, ← mergeSort_eq_arranged hplaced hcompare]
    rfl
  have hsources : ¬maxSources < 0 + 1 := by decide
  have htables : ¬maxTables < 0 + 1 := by decide
  rw [query, h.joins, List.length_nil, if_neg hsources, depthAfter_of_compares h.conditions, excess?]
  -- The checks of the query come in the order in which they are listed here.
  by_cases hdeep : maxTerms < r.conditions.length
  · rw [if_pos hdeep, if_pos hdeep]
    rfl
  rw [if_neg hdeep, if_neg hdeep, versions_eq_ok_iff.mpr hrows]
  simp only [List.mapM_nil, bind, Except.bind, pure, Except.pure, List.flatMap_nil, List.append_nil, hplan,
    depthJoined, List.foldlM_nil, List.foldl_nil, htables, hparams, hrun, ne_eq, not_true, if_false]
  by_cases hkeys : maxColumns < r.order.length
  · rw [if_pos hkeys, if_pos hkeys]
    rfl
  rw [if_neg hkeys, if_neg hkeys, nested]
  simp only [maxDepth_lt_joinedDepth_iff]
  by_cases hlong : maxTerms ≤ r.conditions.length
  · rw [if_pos hlong, if_pos hlong]
    rfl
  rw [if_neg hlong, if_neg hlong]
  by_cases hlimit : maxInt64 < r.limit.getD 0
  · simp only [if_pos hlimit]
    rfl
  · simp only [if_neg hlimit]
    rfl

end Database

end Payroll
