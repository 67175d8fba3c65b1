import Mathlib.Data.List.Permutation
import Payroll.Proofs.Condition
import Payroll.Proofs.Order
/-!
# Conditions, an order and a limit

A refinement about columns of the latest rows gives those that meet its conditions, as they stand in their
table. Sort keys put the same rows into the order of the first key that tells two of them apart, and a
limit leaves the first ones of the rows in such an order. Which of two rows comes first that no key tells
apart is open, and can be another one with a limit than without. A query with more conditions or keys than
a statement may have fails, and so does one with a limit that no integer is as large as, instead of letting
all rows through.

## Key results

- `transCmp_key`: a sort key puts rows into an order
- `pairwise_arranged`: rows that are sorted are in the order of the keys
- `arranged_eq_arranged`: keys that tell all rows apart leave one order only
- `Database.composes`: what conditions, an order and a limit come to
-/

namespace Payroll

open Database (arranged latestPlaced placedRow)
open Sql (ColumnRef Condition Refinement SortKey)

variable {k : VersionKind} {ref : ColumnRef} {key : SortKey} {order : List SortKey}

/-! ## Sort keys -/

theorem affinity_latestColumns : ∀ c ∈ latestColumns k, c.affinity ≠ .none := by
  cases k <;> decide

theorem admits_latestColumns (x : Version k.Data × Nat) :
    ∀ p ∈ (latestColumns k).zip (placedRow x), p.1.Admits p.2 := by
  have hzip : (latestColumns k).zip (placedRow x) =
      (⟨Refinement.placeColumn, .integer⟩, .int (Int.ofNat x.2 + 1)) ::
        (versionColumns k.Data).zip x.1.values := rfl
  rw [hzip, List.forall_mem_cons]
  exact ⟨⟨nofun, fun _ => ⟨_, rfl⟩, nofun⟩, admits_of_mem_zip⟩

/-- Rows are in an order by their values in a column. -/
theorem transCmp_seenValue (h : ref.Names k) :
    Std.TransCmp fun x y : Version k.Data × Nat => (seenValue k ref x).order (seenValue k ref y) := by
  obtain ⟨cell, c, -, hc, -, hseen⟩ := h.exists_find
  refine transCmp_order (c := c) (affinity_latestColumns c hc) fun x => ?_
  have hmem : (c, cell.value (placedRow x)) ∈ (latestColumns k).zip (placedRow x) := by
    have hfind := hseen x
    rw [seen?, if_pos h.1] at hfind
    exact List.mem_of_find?_eq_some hfind
  rw [seenValue, hseen x]
  exact admits_latestColumns x _ hmem

/-- A sort key puts rows into an order, one way round or the other. -/
theorem transCmp_key (h : key.column.Names k) : Std.TransCmp (key.compare k) := by
  have htrans := transCmp_seenValue h
  cases hdescending : key.descending with
  | false =>
    have hsame : key.compare k = fun x y =>
        (seenValue k key.column x).order (seenValue k key.column y) := by
      funext x y
      rw [SortKey.compare, hdescending]
      rfl
    rw [hsame]
    exact htrans
  | true =>
    have hsame : key.compare k = fun x y =>
        (seenValue k key.column y).order (seenValue k key.column x) := by
      funext x y
      rw [SortKey.compare, hdescending, if_pos rfl]
      exact htrans.eq_swap.symm
    rw [hsame]
    exact Std.TransCmp.opposite

/-- Sort keys put rows into an order. -/
theorem transCmp_compareKeys (h : ∀ key ∈ order, key.column.Names k) :
    Std.TransCmp fun x y => compareKeys k x y order := by
  induction order with
  | nil =>
    exact { eq_swap := rfl, isLE_trans := fun _ _ => rfl }
  | cons key order ih =>
    rw [List.forall_mem_cons] at h
    have := transCmp_key h.1
    have := ih h.2
    exact inferInstanceAs
      (Std.TransCmp (compareLex (key.compare k) fun x y => compareKeys k x y order))

/-! ## Rows that are sorted -/

/-- The first of the keys that tells two rows apart does not put the second row before the first one. -/
def InOrder (k : VersionKind) (order : List SortKey) (x y : Version k.Data × Nat) : Prop :=
  ∀ before key after, order = before ++ key :: after →
    (∀ key' ∈ before, key'.compare k x y = .eq) → key.compare k x y ≠ .gt

theorem inOrder_of_compareKeys {x y : Version k.Data × Nat} (h : compareKeys k x y order ≠ .gt) :
    InOrder k order x y := by
  intro before key after horder hbefore hgt
  apply h
  clear h
  subst horder
  induction before with
  | nil =>
    rw [List.nil_append, compareKeys, hgt]
    rfl
  | cons key' before ih =>
    rw [List.forall_mem_cons] at hbefore
    rw [List.cons_append, compareKeys, hbefore.1]
    exact ih hbefore.2

/-- Two rows that no key tells apart are alike in all of them. -/
theorem compare_eq_of_compareKeys {x y : Version k.Data × Nat} (h : compareKeys k x y order = .eq) :
    ∀ key ∈ order, key.compare k x y = .eq := by
  induction order with
  | nil => nofun
  | cons key order ih =>
    rw [compareKeys, Ordering.then_eq_eq] at h
    exact List.forall_mem_cons.mpr ⟨h.1, ih h.2⟩

variable {precedes precedes' : Version k.Data × Nat → Version k.Data × Nat → Bool}

theorem arranged_perm (order : List SortKey) (xs : List (Version k.Data × Nat)) :
    (arranged k order precedes xs).Perm xs := by
  rw [arranged]
  split
  · exact .refl xs
  · exact (List.mergeSort_perm _ _).trans (List.mergeSort_perm xs _)

/-- No row is sorted before one that the keys put before it. -/
theorem pairwise_isLE_arranged (h : ∀ key ∈ order, key.column.Names k) (xs : List (Version k.Data × Nat)) :
    (arranged k order precedes xs).Pairwise fun x y => (compareKeys k x y order).isLE := by
  have hle (o : Ordering) : (o != .gt) = o.isLE := by cases o <;> rfl
  have htrans := transCmp_compareKeys h
  rw [arranged]
  split
  · rename_i hempty
    rw [List.isEmpty_iff.mp hempty]
    exact List.pairwise_of_forall fun x y => rfl
  · simp only [hle]
    refine List.pairwise_mergeSort (fun x y z => htrans.isLE_trans (a := x) (b := y) (c := z))
      (fun x y => ?_) _
    -- Of two rows, one does not stand after the other.
    rw [htrans.eq_swap (a := y) (b := x)]
    cases compareKeys k x y order <;> rfl

/-- Rows that are sorted are in the order of the keys. -/
theorem pairwise_arranged (h : ∀ key ∈ order, key.column.Names k) (xs : List (Version k.Data × Nat)) :
    (arranged k order precedes xs).Pairwise (InOrder k order) := by
  refine (pairwise_isLE_arranged h xs).imp fun {x y} hxy => inOrder_of_compareKeys fun hgt => ?_
  rw [hgt] at hxy
  cases hxy

/-- Rows are not to be sorted, or any two of them are told apart by a key. -/
def Decides (k : VersionKind) (order : List SortKey) (xs : List (Version k.Data × Nat)) : Prop :=
  order = [] ∨ ∀ x ∈ xs, ∀ y ∈ xs, x ≠ y → ∃ key ∈ order, key.compare k x y ≠ .eq

/-- Keys that tell all rows apart leave one order only, whatever way the rows are found. -/
theorem arranged_eq_arranged (h : ∀ key ∈ order, key.column.Names k) {xs : List (Version k.Data × Nat)}
    (hdecides : Decides k order xs) : arranged k order precedes xs = arranged k order precedes' xs := by
  rcases hdecides with rfl | hapart
  · rfl
  refine List.Perm.eq_of_pairwise (fun x y hx hy hxy hyx => ?_) (pairwise_isLE_arranged h xs)
    (pairwise_isLE_arranged h xs) ((arranged_perm order xs).trans (arranged_perm order xs).symm)
  rw [(arranged_perm order xs).mem_iff] at hx hy
  -- Neither row is before the other one.
  have hsame : compareKeys k x y order = .eq := by
    have hswap := (transCmp_compareKeys h).eq_swap (a := y) (b := x)
    rw [hswap] at hyx
    cases hcompare : compareKeys k x y order with
    | eq => rfl
    | lt =>
      rw [hcompare] at hyx
      cases hyx
    | gt =>
      rw [hcompare] at hxy
      cases hxy
  by_contra hne
  obtain ⟨key, hkey, hdiffer⟩ := hapart x hx y hy hne
  exact hdiffer (compare_eq_of_compareKeys hsame key hkey)

/-! ## Refinements -/

namespace Database

/-- The latest rows of a table that meet conditions, with their places, in their order. -/
def meeting (k : VersionKind) (rows : List (Version k.Data)) (conditions : List Condition) :
    List (Version k.Data × Nat) :=
  (latestPlaced rows).filter fun x => conditions.all (·.holds k x)

/-- A query may have as many conditions and keys, and the keys are columns of the latest rows. -/
structure IsAskable (k : VersionKind) (conditions : List Condition) (order : List SortKey) : Prop where
  few : conditions.length < maxTerms
  keys : order.length ≤ maxColumns
  names : ∀ key ∈ order, key.column.Names k

/-- What queries give with these conditions, with any order and with any limit. -/
structure Composes (k : VersionKind) (d : Database) (rows : List (Version k.Data))
    (conditions : List Condition) : Prop where
  /-- Without an order, rows stand as they do in the table. -/
  unordered : IsAskable k conditions [] →
    d.query k.Data ⟨[], conditions, [], none⟩ = .ok ((meeting k rows conditions).map (·.1))
  ordered : ∀ order : List SortKey, IsAskable k conditions order →
    ∃ sorted : List (Version k.Data × Nat),
      d.query k.Data ⟨[], conditions, order, none⟩ = .ok (sorted.map (·.1)) ∧
        sorted.Perm (meeting k rows conditions) ∧ sorted.Pairwise (InOrder k order)
  /-- With a limit, the first ones of the rows in such an order are given. -/
  limited : ∀ order : List SortKey, IsAskable k conditions order → ∀ n : Nat,
    ∃ sorted : List (Version k.Data × Nat),
      (d.query k.Data ⟨[], conditions, order, some n⟩ =
        if maxInt64 < n then .error .limitTooLarge else .ok ((sorted.map (·.1)).take n)) ∧
        sorted.Perm (meeting k rows conditions) ∧ sorted.Pairwise (InOrder k order)
  /-- They are the first ones of those without the limit if the order leaves nothing open. -/
  cut : ∀ order : List SortKey, IsAskable k conditions order →
    Decides k order (meeting k rows conditions) → ∀ (n : Nat) vs,
      d.query k.Data ⟨[], conditions, order, none⟩ = .ok vs →
        d.query k.Data ⟨[], conditions, order, some n⟩ =
          if maxInt64 < n then .error .limitTooLarge else .ok (vs.take n)
  /-- Nothing is given if there are more conditions or keys than there may be. -/
  refused : ∀ order : List SortKey, (∀ key ∈ order, key.column.Names k) →
    ¬IsAskable k conditions order → ∀ limit : Option Nat, ∃ fault,
      d.query k.Data ⟨[], conditions, order, limit⟩ = .error fault ∧
        (fault = .tooDeep ∧ maxTerms ≤ conditions.length ∨
          fault = .tooManyKeys ∧ maxColumns < order.length)

/-- There is too much of nothing in a query that may be asked, except that the limit may be too large. -/
private theorem excess?_of_isAskable {conditions : List Condition} (h : IsAskable k conditions order)
    (limit : Option Nat) : excess? ⟨[], conditions, order, limit⟩ =
      if maxInt64 < limit.getD 0 then some .limitTooLarge else none := by
  have hfew : ¬maxTerms ≤ conditions.length := Nat.not_le.mpr h.few
  rw [excess?, if_neg (mt Nat.le_of_lt hfew), if_neg (Nat.not_lt.mpr h.keys), if_neg hfew]

/-- Whatever the database holds, conditions that compare columns choose among the latest rows, sort keys
order what is chosen and a limit cuts it off, unless no integer is as large. -/
theorem composes {d : Database} {rows : List (Version k.Data)} (hrows : d.versionRows k = some rows)
    {conditions : List Condition} (hconditions : ∀ c ∈ conditions, c.Compares k) :
    Composes k d rows conditions := by
  have hquery (order : List SortKey) (limit : Option Nat) (horder : ∀ key ∈ order, key.column.Names k) :
      d.query k.Data ⟨[], conditions, order, limit⟩ =
        (excess? ⟨[], conditions, order, limit⟩).elim (.ok (limit.elim id List.take ((arranged k order
          (d.findsFirst k ⟨[], conditions, order, limit⟩) (meeting k rows conditions)).map (·.1)))) .error :=
    query_of_isPlain hrows ⟨rfl, hconditions, horder⟩
  have hzero : ¬maxInt64 < (0 : Nat) := by decide
  have hunlimited (order : List SortKey) (h : IsAskable k conditions order) :
      d.query k.Data ⟨[], conditions, order, none⟩ = .ok ((arranged k order
        (d.findsFirst k ⟨[], conditions, order, none⟩) (meeting k rows conditions)).map (·.1)) := by
    rw [hquery order none h.names, excess?_of_isAskable h, Option.getD_none, if_neg hzero]
    rfl
  have hlimited (order : List SortKey) (h : IsAskable k conditions order) (n : Nat) :
      d.query k.Data ⟨[], conditions, order, some n⟩ =
        if maxInt64 < n then .error .limitTooLarge
        else .ok (((arranged k order (d.findsFirst k ⟨[], conditions, order, some n⟩)
          (meeting k rows conditions)).map (·.1)).take n) := by
    rw [hquery order (some n) h.names, excess?_of_isAskable h, Option.getD_some]
    split <;> rfl
  refine ⟨fun h => hunlimited [] h, fun order h => ?_, fun order h n => ?_,
    fun order h hdecides n vs hvs => ?_, fun order hnames h limit => ?_⟩
  · exact ⟨_, hunlimited order h, arranged_perm order _, pairwise_arranged h.names _⟩
  · exact ⟨_, hlimited order h n, arranged_perm order _, pairwise_arranged h.names _⟩
  · rw [hunlimited order h] at hvs
    rw [hlimited order h n, ← Except.ok.inj hvs, arranged_eq_arranged h.names hdecides]
  · rw [hquery order limit hnames, excess?]
    -- One of the numbers is too large, and the first of the checks that it does not pass decides.
    by_cases hdeep : maxTerms < conditions.length
    · rw [if_pos hdeep]
      exact ⟨_, rfl, .inl ⟨rfl, Nat.le_of_lt hdeep⟩⟩
    · rw [if_neg hdeep]
      by_cases hkeys : maxColumns < order.length
      · rw [if_pos hkeys]
        exact ⟨_, rfl, .inr ⟨rfl, hkeys⟩⟩
      · have hlong : maxTerms ≤ conditions.length :=
          Nat.not_lt.mp fun hfew => h ⟨hfew, Nat.not_lt.mp hkeys, hnames⟩
        rw [if_neg hkeys, if_pos hlong]
        exact ⟨_, rfl, .inl ⟨rfl, hlong⟩⟩

/-- Of two timelogs of one type the longer one comes first, and a limit of one leaves it alone. -/
theorem composes_timelogs :
    let v (uid : String) (duration : Int) : Version Timelog :=
      { id := uid, version := 1, uid, isLatest := true, data := ⟨duration, 0, 60, "work", "0"⟩ }
    let rows := [v "1" 30, v "2" 60]
    let d : Database := { Database.fresh with timelogs := some rows }
    let conditions : List Condition := [.compare ⟨"timelog", "TYPE"⟩ .le (.text "work"),
      .compare ⟨"timelog", "duration"⟩ .lt (.text "90")]
    let order : List SortKey := [⟨⟨"timelog", "type"⟩, false⟩, ⟨⟨"timelog", "duration"⟩, true⟩]
    d.versionRows .timelog = some rows ∧ (∀ c ∈ conditions, c.Compares .timelog) ∧
      d.query Timelog ⟨[], conditions, [], none⟩ = .ok [v "1" 30, v "2" 60] ∧
      d.query Timelog ⟨[], conditions, order, none⟩ = .ok [v "2" 60, v "1" 30] ∧
      d.query Timelog ⟨[], conditions, order, some 1⟩ = .ok [v "2" 60] := by
  intro v rows d conditions order
  have hconditions : ∀ c ∈ conditions, c.Compares .timelog := by decide +kernel
  have horder : ∀ key ∈ order, key.column.Names .timelog := by decide +kernel
  have hrows : d.versionRows .timelog = some rows := rfl
  have hcomposes := composes hrows hconditions
  have haskable : IsAskable .timelog conditions order := ⟨by decide, by decide, horder⟩
  have hmeeting : meeting .timelog rows conditions = [(v "1" 30, 0), (v "2" 60, 1)] :=
    List.filter_eq_self.mpr (by decide +kernel)
  obtain ⟨sorted, hsorted, hperm, hpairwise⟩ := hcomposes.ordered order haskable
  have hlonger : sorted = [(v "2" 60, 1), (v "1" 30, 0)] := by
    refine (List.perm_pair.mp (hperm.trans (.of_eq hmeeting))).resolve_left fun hsame => ?_
    -- The second key puts the second of the rows before the first one.
    rw [hsame] at hpairwise
    have hinorder := (List.pairwise_cons.mp hpairwise).1 _ (List.mem_singleton_self _)
    exact hinorder [order[0]] order[1] [] rfl (by decide +kernel) (by decide +kernel)
  rw [hlonger] at hsorted
  have hdecides : Decides .timelog order (meeting .timelog rows conditions) := by
    -- The two timelogs are told apart by how long they are.
    rw [hmeeting]
    refine .inr fun x hx y hy hne => ⟨order[1], by simp [order], ?_⟩
    rcases List.mem_pair.mp hx with rfl | rfl
    · rcases List.mem_pair.mp hy with rfl | rfl
      · exact absurd rfl hne
      · decide +kernel
    · rcases List.mem_pair.mp hy with rfl | rfl
      · decide +kernel
      · exact absurd rfl hne
  refine ⟨hrows, hconditions, ?_, hsorted, ?_⟩
  · exact (hcomposes.unordered ⟨by decide, by decide, nofun⟩).trans
      (congrArg (fun xs => Except.ok (xs.map (·.1))) hmeeting)
  · exact (hcomposes.cut order haskable hdecides 1 _ hsorted).trans (if_neg (by decide))

/-- A limit of one more than the largest integer does not let the only row through. -/
theorem not_take_of_limit :
    let v : Version Timelog :=
      { id := "1", version := 1, uid := "2", isLatest := true, data := ⟨60, 0, 60, "work", "0"⟩ }
    let d : Database := { Database.fresh with timelogs := some [v] }
    d.query Timelog ⟨[], [], [], none⟩ = .ok [v] ∧
      d.query Timelog ⟨[], [], [], some 9223372036854775808⟩ ≠ .ok ([v].take 9223372036854775808) := by
  intro v d
  have hrows : d.versionRows .timelog = some [v] := rfl
  have hplain : d.query Timelog ⟨[], [], [], none⟩ = .ok [v] := query_none hrows
  have hcut : d.query Timelog ⟨[], [], [], some 9223372036854775808⟩ = .error .limitTooLarge := by
    with_unfolding_all rfl
  rw [hcut]
  exact ⟨hplain, nofun⟩

end Database

end Payroll
