import Payroll.Database.Versions
import Payroll.Width
/-!
# Histories and the rows that keep them

A history is the list of the versions of a kind in the order in which they were written, each as it was
returned to whoever wrote it. A table is nothing but such a list seen as rows: each version as it is
stored, with a claim to be the latest for the last version of its id.

## Key results

- `rows_append`: what later versions do to the rows before them
- `filter_rows`, `filter_latest_rows`, `find?_uid_rows`: what the reads of a table find, in terms of
  the history
- `Orderly.concat`: when a history may grow by one version
- `Orderly.version_eq`: the number of a version counts the versions of its id before it
-/

namespace Payroll.History

variable {α : Type}

/-! ## The versions of an id -/

/-- The versions of an id, in their order. -/
def ofId (id : String) (h : List (Version α)) : List (Version α) :=
  h.filter (·.id == id)

@[simp] theorem ofId_nil (id : String) : ofId id ([] : List (Version α)) = [] := rfl

theorem ofId_append (id : String) (g h : List (Version α)) :
    ofId id (g ++ h) = ofId id g ++ ofId id h :=
  List.filter_append g h

theorem ofId_cons_self (v : Version α) (h : List (Version α)) :
    ofId v.id (v :: h) = v :: ofId v.id h := by
  simp [ofId]

theorem ofId_cons_of_ne {id : String} {v : Version α} (hv : v.id ≠ id) (h : List (Version α)) :
    ofId id (v :: h) = ofId id h := by
  simp [ofId, hv]

theorem mem_ofId {id : String} {v : Version α} {h : List (Version α)} :
    v ∈ ofId id h ↔ v ∈ h ∧ v.id = id := by
  simp [ofId]

theorem ofId_eq_nil_iff {id : String} {h : List (Version α)} :
    ofId id h = [] ↔ h.any (·.id == id) = false := by
  simp [ofId]

/-! ## Versions by their own ids -/

/-- Where the ids of versions are distinct, the row found by one is the row that has it. -/
theorem find?_uid_eq_some_iff {rs : List (Version α)} (hd : (rs.map (·.uid)).Nodup) {uid : String}
    {r : Version α} : rs.find? (·.uid == uid) = some r ↔ r ∈ rs ∧ r.uid = uid := by
  induction rs with
  | nil => simp
  | cons s ss ih =>
    rw [List.map_cons, List.nodup_cons] at hd
    rw [List.find?_cons, List.mem_cons]
    by_cases hs : s.uid = uid
    · -- Nothing after the row has its id, so nothing but the row is found.
      have hss : ∀ t ∈ ss, t.uid ≠ uid := by
        intro t ht htu
        exact hd.1 (List.mem_map.mpr ⟨t, ht, by rw [htu, hs]⟩)
      simp only [hs, beq_self_eq_true, Option.some.injEq]
      constructor
      · rintro rfl
        exact ⟨Or.inl rfl, hs⟩
      · rintro ⟨rfl | hr, hu⟩
        · rfl
        · exact absurd hu (hss r hr)
    · -- A row with another id is passed over.
      have hbeq : (s.uid == uid) = false := by simp [hs]
      simp only [hbeq, ih hd.2]
      constructor
      · rintro ⟨hr, hu⟩
        exact ⟨Or.inr hr, hu⟩
      · rintro ⟨rfl | hr, hu⟩
        · exact absurd hu hs
        · exact ⟨hr, hu⟩

/-- Where the ids of versions are distinct, two rows with the same one are one row. -/
theorem eq_of_uid_eq {rs : List (Version α)} (hd : (rs.map (·.uid)).Nodup) {r s : Version α}
    (hr : r ∈ rs) (hs : s ∈ rs) (h : r.uid = s.uid) : r = s := by
  have hfound := (find?_uid_eq_some_iff hd).mpr ⟨hr, h⟩
  rw [(find?_uid_eq_some_iff hd).mpr ⟨hs, rfl⟩] at hfound
  exact (Option.some.inj hfound).symm

/-! ## A row keeps a version -/

section Rows

variable [VersionedData α]

/-- The row that keeps a version. -/
def row (isLatest : Bool) (v : Version α) : Version α :=
  { v.stored with isLatest }

/-- The rows that keep a history. The last version of an id is its latest. -/
def rows : List (Version α) → List (Version α)
  | [] => []
  | v :: vs => row (!vs.any (·.id == v.id)) v :: rows vs

/-- A row after later versions have been written. -/
def overtaken (later : List (Version α)) (r : Version α) : Version α :=
  if later.any (·.id == r.id) then r.retired else r

section Row

variable (b : Bool) (v : Version α)

@[simp] theorem row_id : (row b v).id = v.id := rfl
@[simp] theorem row_version : (row b v).version = v.version := rfl
@[simp] theorem row_uid : (row b v).uid = v.uid := rfl
@[simp] theorem row_isLatest : (row b v).isLatest = b := rfl
@[simp] theorem row_data : (row b v).data = VersionedData.stored v.data := rfl
@[simp] theorem retired_row : (row b v).retired = row false v := rfl

theorem overtaken_row (later : List (Version α)) :
    overtaken later (row b v) = row (b && !later.any (·.id == v.id)) v := by
  cases hl : later.any (·.id == v.id) with
  | false => simp [overtaken, hl]
  | true => simp [overtaken, hl]

end Row

/-- Later versions take the claim to be the latest from the rows of their ids, and change nothing else
about the rows before them. -/
theorem rows_append (g h : List (Version α)) :
    rows (g ++ h) = (rows g).map (overtaken h) ++ rows h := by
  induction g with
  | nil => rfl
  | cons v vs ih =>
    -- The first row loses its claim to what follows it in either part.
    simp only [List.cons_append, rows, ih, List.map_cons, overtaken_row, List.any_append, Bool.not_or]

/-- Up to the claims to be the latest, rows are the versions as they are stored. -/
theorem map_retired_rows (h : List (Version α)) :
    (rows h).map Version.retired = h.map (row false) := by
  induction h with
  | nil => rfl
  | cons v vs ih => simp [rows, ih]

/-- What does not look at the claim to be the latest sees the same in the rows as in the history. -/
private theorem map_rows {β : Type} {f : Version α → β} (hf : ∀ b v, f (row b v) = f v)
    (h : List (Version α)) : (rows h).map f = h.map f := by
  induction h with
  | nil => rfl
  | cons v vs ih => simp [rows, ih, hf]

theorem map_id_rows (h : List (Version α)) : (rows h).map (·.id) = h.map (·.id) :=
  map_rows (fun _ _ => rfl) h

theorem map_version_rows (h : List (Version α)) : (rows h).map (·.version) = h.map (·.version) :=
  map_rows (fun _ _ => rfl) h

theorem map_uid_rows (h : List (Version α)) : (rows h).map (·.uid) = h.map (·.uid) :=
  map_rows (fun _ _ => rfl) h

@[simp] theorem length_rows (h : List (Version α)) : (rows h).length = h.length := by
  simpa using congrArg List.length (map_id_rows h)

/-- A row keeps the version at some place of the history, and is the latest if no version after that
place has its id. -/
theorem mem_rows {h : List (Version α)} {r : Version α} :
    r ∈ rows h ↔ ∃ before v after, h = before ++ v :: after ∧
      r = row (!after.any (·.id == v.id)) v := by
  induction h with
  | nil => simp [rows]
  | cons w ws ih =>
    rw [rows, List.mem_cons, ih]
    constructor
    · rintro (rfl | ⟨before, v, after, rfl, rfl⟩)
      · exact ⟨[], w, ws, rfl, rfl⟩
      · exact ⟨w :: before, v, after, rfl, rfl⟩
    · rintro ⟨before, v, after, hh, rfl⟩
      cases before with
      | nil =>
        obtain ⟨rfl, rfl⟩ := List.cons.inj hh
        exact Or.inl rfl
      | cons u us =>
        obtain ⟨rfl, rfl⟩ := List.cons.inj hh
        exact Or.inr ⟨us, v, after, rfl, rfl⟩

/-- Every version of a history has its row. -/
theorem exists_row_of_mem {h : List (Version α)} {v : Version α} (hv : v ∈ h) :
    ∃ b, row b v ∈ rows h := by
  obtain ⟨before, after, rfl⟩ := List.append_of_mem hv
  exact ⟨_, mem_rows.mpr ⟨before, v, after, rfl, rfl⟩⟩

/-- Every row keeps a version of the history. -/
theorem exists_mem_of_row {h : List (Version α)} {r : Version α} (hr : r ∈ rows h) :
    ∃ b, ∃ v ∈ h, r = row b v := by
  obtain ⟨before, v, after, rfl, rfl⟩ := mem_rows.mp hr
  exact ⟨_, v, by simp, rfl⟩

/-! ## What is found in the rows -/

/-- The rows of an id keep the versions of that id. -/
theorem filter_rows (id : String) (h : List (Version α)) :
    (rows h).filter (·.id == id) = rows (ofId id h) := by
  induction h with
  | nil => rfl
  | cons v vs ih =>
    by_cases hv : v.id = id
    · -- The claim of a row depends on the versions of its own id only, so the others can be left out.
      subst hv
      have hany : (ofId v.id vs).any (·.id == v.id) = vs.any (·.id == v.id) := by
        simp [ofId, List.any_filter]
      rw [ofId_cons_self, rows, rows, hany, ← ih]
      simp
    · rw [ofId_cons_of_ne hv, rows, ← ih]
      simp [hv]

/-- Of the rows of an id, only the one that keeps the last version claims to be the latest. -/
theorem filter_latest_rows (id : String) (h : List (Version α)) :
    (rows h).filter (fun r => r.id == id && r.isLatest) =
      ((ofId id h).getLast?.map (row true)).toList := by
  induction h with
  | nil => rfl
  | cons v vs ih =>
    rw [rows, List.filter_cons, ih]
    by_cases hv : v.id = id
    · subst hv
      rw [ofId_cons_self]
      cases hlater : vs.any (·.id == v.id) with
      | false =>
        rw [ofId_eq_nil_iff.mpr hlater]
        simp
      | true =>
        -- A version that is followed by another one of its id is passed over.
        have hne : ofId v.id vs ≠ [] := by
          rw [Ne, ofId_eq_nil_iff, hlater]
          simp
        obtain ⟨w, ws, hws⟩ := List.exists_cons_of_ne_nil hne
        rw [hws]
        simp
    · rw [ofId_cons_of_ne hv]
      simp [hv]

/-- The first row of an id that claims to be the latest keeps the last version of the id. -/
theorem find?_latest_rows (id : String) (h : List (Version α)) :
    (rows h).find? (fun r => r.id == id && r.isLatest) = (ofId id h).getLast?.map (row true) := by
  rw [← List.head?_filter, filter_latest_rows]
  cases (ofId id h).getLast?.map (row true) <;> rfl

/-- A row that claims to be the latest keeps the last version of its id. -/
theorem getLast?_ofId_of_isLatest {h : List (Version α)} {r : Version α} (hr : r ∈ rows h)
    (hl : r.isLatest = true) : (ofId r.id h).getLast?.map (row true) = some r := by
  obtain ⟨before, v, after, rfl, rfl⟩ := mem_rows.mp hr
  rw [row_isLatest] at hl
  -- Nothing after the version has its id.
  have hnone : ofId v.id after = [] := ofId_eq_nil_iff.mpr (by simpa using hl)
  rw [row_id, ofId_append, ofId_cons_self, hnone, List.getLast?_append, hl]
  simp

/-- A row claims to be the latest if it keeps the last version of its id. -/
theorem mem_latest_iff {h : List (Version α)} {r : Version α} :
    r ∈ (rows h).filter (·.isLatest) ↔ (ofId r.id h).getLast?.map (row true) = some r := by
  constructor
  · intro hr
    obtain ⟨hmem, hl⟩ := List.mem_filter.mp hr
    exact getLast?_ofId_of_isLatest hmem hl
  · intro hlast
    -- It is the only row of its id with the claim.
    have hmem : r ∈ (rows h).filter fun s => s.id == r.id && s.isLatest := by
      rw [filter_latest_rows, hlast]
      exact List.mem_singleton_self r
    obtain ⟨hr, hl⟩ := List.mem_filter.mp hmem
    exact List.mem_filter.mpr ⟨hr, ((Bool.and_eq_true _ _).mp hl).2⟩

/-- The last row keeps the last version, and that is the latest of its id. -/
theorem getLast?_rows (h : List (Version α)) : (rows h).getLast? = h.getLast?.map (row true) := by
  rcases List.eq_nil_or_concat h with rfl | ⟨g, v, rfl⟩
  · rfl
  · have hlast : rows [v] = [row true v] := rfl
    rw [List.concat_eq_append, rows_append, hlast, List.getLast?_concat, List.getLast?_concat,
      Option.map_some]

/-- Of the rows of a single id, the last one and no other claims to be the latest. -/
theorem isLatest_getElem? {id : String} {h : List (Version α)} (hid : ∀ v ∈ h, v.id = id) {i : Nat}
    {r : Version α} (hr : (rows h)[i]? = some r) : r.isLatest = true ↔ i + 1 = (rows h).length := by
  induction h generalizing i with
  | nil => exact nomatch hr
  | cons v vs ih =>
    rw [rows, List.length_cons, length_rows]
    cases i with
    | zero =>
      rw [rows, List.getElem?_cons_zero, Option.some.injEq] at hr
      subst hr
      rw [row_isLatest, Bool.not_eq_true']
      cases vs with
      | nil => simp
      | cons w ws =>
        -- Whatever follows the first row has its id, and takes the claim from it.
        have hw : w.id = v.id := by rw [hid v (by simp), hid w (by simp)]
        simp [hw]
    | succ i =>
      rw [rows, List.getElem?_cons_succ] at hr
      rw [ih (fun w hw => hid w (List.mem_cons_of_mem v hw)) hr, length_rows]
      omega

/-- No two rows of an id claim to be the latest. -/
theorem nodup_id_latest (h : List (Version α)) :
    (((rows h).filter (·.isLatest)).map (·.id)).Nodup := by
  induction h with
  | nil => simp [rows]
  | cons v vs ih =>
    rw [rows]
    cases hlater : vs.any (·.id == v.id) with
    | true => simpa using ih
    | false =>
      rw [List.filter_cons_of_pos (by simp), List.map_cons, List.nodup_cons]
      refine ⟨?_, ih⟩
      -- A row after this one with its id would keep a later version of it.
      intro hmem
      obtain ⟨r, hr, hrid⟩ := List.mem_map.mp hmem
      have hid : r.id ∈ vs.map (·.id) := by
        rw [← map_id_rows]
        exact List.mem_map.mpr ⟨r, (List.mem_filter.mp hr).1, rfl⟩
      obtain ⟨w, hw, hwid⟩ := List.mem_map.mp hid
      simp only [row_id] at hrid
      exact absurd hlater (by
        rw [Bool.not_eq_false, List.any_eq_true]
        exact ⟨w, hw, by simp [hwid, hrid]⟩)

/-- The row found by a version's own id keeps that version. -/
theorem find?_uid_rows {g h : List (Version α)} {v : Version α}
    (hd : ((g ++ v :: h).map (·.uid)).Nodup) :
    (rows (g ++ v :: h)).find? (·.uid == v.uid) = some (row (!h.any (·.id == v.id)) v) := by
  rw [find?_uid_eq_some_iff (by rwa [map_uid_rows])]
  exact ⟨mem_rows.mpr ⟨g, v, h, rfl, rfl⟩, rfl⟩

/-! ## What a write makes of the rows -/

/-- The first version of an id is one more row. -/
theorem rows_concat_first {h : List (Version α)} {v : Version α} (hv : ofId v.id h = []) :
    rows (h ++ [v]) = rows h ++ [row true v] := by
  -- No row has the id, so none loses its claim.
  have hkept : ∀ r ∈ rows h, overtaken [v] r = r := by
    intro r hr
    have hnone : (rows h).filter (·.id == v.id) = [] := by rw [filter_rows, hv, rows]
    have hne : v.id ≠ r.id := by
      intro hid
      exact List.filter_eq_nil_iff.mp hnone r hr (by simp [hid])
    simp [overtaken, hne]
  rw [rows_append, List.map_congr_left hkept, List.map_id']
  rfl

/-- A version after another one of its id is one more row, and retires the row of the version before
it. -/
theorem rows_concat_next {h : List (Version α)} {v next : Version α}
    (hd : ((h ++ [next]).map (·.uid)).Nodup) (hv : (ofId next.id h).getLast? = some v) :
    rows (h ++ [next]) = (rows h ++ [row true next]).map fun r =>
      if r.uid == v.uid && r.isLatest then r.retired else r := by
  -- The row that is retired keeps the last version of the id, and no other row has its uid.
  have hv' : (rows h).find? (fun r => r.id == next.id && r.isLatest) = some (row true v) := by
    rw [find?_latest_rows, hv, Option.map_some]
  have hvmem : row true v ∈ rows h := List.mem_of_find?_eq_some hv'
  have hvid : v.id = next.id := (mem_ofId.mp (List.mem_of_getLast? hv)).2
  rw [List.map_append, List.nodup_append] at hd
  have hdrows : ((rows h).map (·.uid)).Nodup := by rw [map_uid_rows]; exact hd.1
  have hnext : next.uid ≠ v.uid := by
    have hvuid : v.uid ∈ h.map (·.uid) := by
      rw [← map_uid_rows]
      exact List.mem_map.mpr ⟨_, hvmem, rfl⟩
    exact fun he => hd.2.2 _ hvuid _ (by simp) he.symm
  rw [rows_append, List.map_append]
  congr 1
  · apply List.map_congr_left
    intro r hr
    by_cases hid : r.id = next.id
    · -- Of the rows of the id, only the last one still claims to be the latest.
      have hover : overtaken [next] r = r.retired := by simp [overtaken, hid]
      rw [hover]
      cases hl : r.isLatest with
      | true =>
        have hlast := getLast?_ofId_of_isLatest hr hl
        rw [hid, hv, Option.map_some, Option.some.injEq] at hlast
        simp [← hlast]
      | false => simp [Version.retired, ← hl]
    · -- The rows of other ids keep their claims.
      have hover : overtaken [next] r = r := by simp [overtaken, Ne.symm hid]
      have huid : r.uid ≠ v.uid := by
        intro he
        have hrv := eq_of_uid_eq hdrows hr hvmem he
        exact hid (by rw [hrv, row_id, hvid])
      simp [hover, huid]
  · simp [rows, hnext]

end Rows

/-! ## Orderly histories -/

/-- The numbers from one to `n`. -/
def numbers (n : Nat) : List Int :=
  (List.range n).map fun (i : Nat) => (i : Int) + 1

@[simp] theorem length_numbers (n : Nat) : (numbers n).length = n := by
  simp [numbers]

theorem numbers_succ (n : Nat) : numbers (n + 1) = numbers n ++ [(n : Int) + 1] := by
  simp [numbers, List.range_succ]

theorem getElem?_numbers {n i : Nat} (hi : i < n) : (numbers n)[i]? = some ((i : Int) + 1) := by
  simp [numbers, hi]

/-- The numbers are in ascending order. -/
theorem pairwise_numbers (n : Nat) : (numbers n).Pairwise (· ≤ ·) := by
  rw [numbers, List.pairwise_map]
  refine List.Pairwise.imp ?_ (List.pairwise_lt_range (n := n))
  intro i j hij
  omega

/-- What holds of every history that a table keeps: the versions of an id are numbered from one on
without a gap and within the range of numbers, no two versions share their own ids, and no version
lacks a value. -/
structure Orderly [VersionedData α] (h : List (Version α)) : Prop where
  numbered : ∀ id, (ofId id h).map (·.version) = numbers (ofId id h).length
  bounded : ∀ v ∈ h, v.version ≤ maxInt64
  distinct : (h.map (·.uid)).Nodup
  storable : ∀ v ∈ h,
    Database.nullColumn? (VersionedData.columns α) (VersionedData.cells v.data) = none

namespace Orderly

variable [VersionedData α] {g h : List (Version α)} {v w : Version α}

protected theorem nil : Orderly ([] : List (Version α)) where
  numbered _ := rfl
  bounded := by simp
  distinct := by simp
  storable := by simp

/-- A history grows by a version with the next number of its id and an id of its own. -/
theorem concat (ho : Orderly h) (hv : v.version = (ofId v.id h).length + 1)
    (hb : v.version ≤ maxInt64) (hu : v.uid ∉ h.map (·.uid))
    (hs : Database.nullColumn? (VersionedData.columns α) (VersionedData.cells v.data) = none) :
    Orderly (h ++ [v]) where
  numbered id := by
    by_cases hid : v.id = id
    · subst hid
      rw [ofId_append, ofId_cons_self, ofId_nil, List.map_append, ho.numbered, List.length_append]
      simp only [List.map_cons, List.map_nil, hv, List.length_cons, List.length_nil, numbers_succ]
    · rw [ofId_append, ofId_cons_of_ne hid, ofId_nil, List.append_nil]
      exact ho.numbered id
  bounded w hw := by
    rcases List.mem_append.mp hw with hw | hw
    · exact ho.bounded w hw
    · rwa [List.mem_singleton.mp hw]
  distinct := by
    rw [List.map_append, List.nodup_append]
    refine ⟨ho.distinct, by simp, ?_⟩
    intro a ha b hb hab
    rw [List.map_singleton, List.mem_singleton] at hb
    exact hu (by rwa [← hb, ← hab])
  storable w hw := by
    rcases List.mem_append.mp hw with hw | hw
    · exact ho.storable w hw
    · rwa [List.mem_singleton.mp hw]

/-- The number of a version counts the versions of its id before it, and itself. -/
theorem version_eq (ho : Orderly (g ++ v :: h)) : v.version = (ofId v.id g).length + 1 := by
  -- Among the versions of its id, it is the one after those before it.
  have hn := ho.numbered v.id
  rw [ofId_append, ofId_cons_self] at hn
  have hat := congrArg (·[(ofId v.id g).length]?) hn
  simp only [List.map_append, List.map_cons] at hat
  rw [getElem?_numbers (by simp), List.getElem?_append_right (by simp)] at hat
  simpa using hat

/-- Only the first version of an id has the number one. -/
theorem version_ne_one (ho : Orderly (g ++ v :: h)) (hw : w ∈ g) (hid : w.id = v.id) :
    v.version ≠ 1 := by
  have hpos : 0 < (ofId v.id g).length := List.length_pos_of_mem (mem_ofId.mpr ⟨hw, hid⟩)
  rw [ho.version_eq]
  omega

/-- The last version of an id has the number of its versions. -/
theorem version_getLast? {id : String} (ho : Orderly h) (hl : (ofId id h).getLast? = some v) :
    v.version = (ofId id h).length := by
  obtain ⟨vs, hvs⟩ := List.getLast?_eq_some_iff.mp hl
  have hn := congrArg List.getLast? (ho.numbered id)
  rw [hvs, List.length_append, List.length_singleton, numbers_succ] at hn
  rw [hvs, List.length_append, List.length_singleton]
  simpa using hn

/-- An id without a version of number one has no version. -/
theorem ofId_eq_nil {id : String} (ho : Orderly h) (hn : ∀ v ∈ h, v.id = id → v.version ≠ 1) :
    ofId id h = [] := by
  cases hvs : ofId id h with
  | nil => rfl
  | cons v vs =>
    -- The first version of the id has the number one.
    have hv : v ∈ ofId id h := by simp [hvs]
    have hone := congrArg List.head? (ho.numbered id)
    rw [hvs, List.length_cons, List.head?_eq_getElem?, List.head?_eq_getElem?,
      getElem?_numbers (by omega)] at hone
    obtain ⟨hmem, hid⟩ := mem_ofId.mp hv
    exact absurd (by simpa using hone) (hn v hmem hid)

end Orderly

end Payroll.History
