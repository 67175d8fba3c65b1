import Payroll.Proofs.Filter
import Payroll.Proofs.Run
/-!
# What strong reads find

A strong read is a read of the primary, so what it finds is known from the history that its table keeps.

## Key results

- `Keeps.history_eq`, `Keeps.latest?_eq`, `Keeps.ofUid?_eq`, `Keeps.latestWhere_eq`: what is found of a
  history
- `Keeps.ofUid?_eq_of_mem`: a version of the history is found by its own id
- `get?_eq_some`: what is found by an id has a row with the id
-/

namespace Payroll

open History (ofId row rows)
open Sql (Filter)

variable {k : VersionKind} {l : Ledger} {hs : Histories}

/-! ## Versions -/

/-- The latest version of an id is the last one of the history. -/
theorem Database.Keeps.latest?_eq {d : Database} {h : List (Version k.Data)} (hk : d.Keeps k h)
    (id : String) :
    Versioned.latest? k.Data id d = .ok ((ofId id h).getLast?.map (row true)) := by
  rw [Versioned.latest?, Database.latest?, hk.versions_eq, ← History.find?_latest_rows]
  rfl

namespace Ledger

/-- The versions of an id are read in their order. -/
theorem Keeps.history_eq (hl : l.Keeps hs) (id : String) :
    (l.history k.Data .strong id).1 = .ok (rows (ofId id (hs k))) := by
  have hk := hl.keeps k
  have hsorted : (rows (ofId id (hs k))).Pairwise fun a b => a.version ≤ b.version := by
    rw [← List.pairwise_map (f := fun r : Version k.Data => r.version), History.map_version_rows,
      hk.orderly.numbered]
    exact History.pairwise_numbers _
  -- The rows of the id are in the order of their numbers already.
  have hsort : (rows (ofId id (hs k))).mergeSort (fun a b => a.version ≤ b.version) =
      rows (ofId id (hs k)) := List.mergeSort_of_pairwise (by simpa using hsorted)
  rw [history, outcome_onRead_strong, Versioned.history, Database.history, hk.versions_eq, ← hsort,
    ← History.filter_rows]
  rfl

/-- The latest version of an id is read as the last one of the history. -/
theorem Keeps.latest?_eq (hl : l.Keeps hs) (id : String) :
    (l.latest? k.Data .strong id).1 = .ok ((ofId id (hs k)).getLast?.map (row true)) := by
  rw [latest?, outcome_onRead_strong, (hl.keeps k).latest?_eq]

/-- The version with an id of its own is read from the rows of the history. -/
theorem Keeps.ofUid?_eq (hl : l.Keeps hs) (uid : String) :
    (l.ofUid? k.Data .strong uid).1 = .ok ((rows (hs k)).find? (·.uid == uid)) := by
  rw [ofUid?, outcome_onRead_strong, Versioned.ofUid?, Database.ofUid?, (hl.keeps k).versions_eq]
  rfl

/-- The latest versions that pass a filter are read from the rows of the history, unless the filter is too
long. -/
theorem Keeps.latestWhere_eq (hl : l.Keeps hs) {f : Filter}
    (hf : f.validate (Versioned.filterable k.Data) = .ok ()) :
    (l.latestWhere k.Data .strong f).1 =
      if Database.maxTerms ≤ f.terms.length then .error (.database .tooDeep)
      else .ok (((rows (hs k)).filter (·.isLatest)).filter
        fun r => f.holds (versionColumns k.Data) r.values) := by
  -- The claim to be the latest is asked for after the terms of the filter.
  have hcomm : (fun r : Version k.Data => f.holds (versionColumns k.Data) r.values && r.isLatest) =
      fun r => r.isLatest && f.holds (versionColumns k.Data) r.values := by
    funext r
    exact Bool.and_comm _ _
  rw [latestWhere, outcome_onRead_strong, Versioned.latestWhere, hf,
    Database.latestWhere_eq (hl.keeps k).versionRows_eq, List.filter_filter, hcomm]
  split <;> rfl

/-- The latest versions of all records are read from the rows of the history. -/
theorem Keeps.allLatest_eq (hl : l.Keeps hs) :
    (l.allLatest k.Data .strong).1 = .ok ((rows (hs k)).filter (·.isLatest)) := by
  rw [allLatest, hl.latestWhere_eq rfl]
  simp [Filter.all, Sql.Filter.holds, Database.maxTerms]

/-- A version is found by its own id, and is the latest if no later one of the history has its id. -/
theorem Keeps.ofUid?_eq_of_mem (hl : l.Keeps hs) {g w : List (Version k.Data)} {r : Version k.Data}
    (hr : hs k = g ++ r :: w) :
    (l.ofUid? k.Data .strong r.uid).1 = .ok (some (row (!w.any (·.id == r.id)) r)) := by
  have hd := (hl.keeps k).orderly.distinct
  rw [hr] at hd
  rw [hl.ofUid?_eq, hr, History.find?_uid_rows hd]

/-- A version that is read by an id of its own keeps a version of the history. -/
theorem Keeps.exists_of_ofUid? (hl : l.Keeps hs) {uid : String} {r : Version k.Data}
    (h : (l.ofUid? k.Data .strong uid).1 = .ok (some r)) :
    ∃ b, ∃ v ∈ hs k, v.uid = uid ∧ r = row b v := by
  rw [hl.ofUid?_eq] at h
  have hfind : (rows (hs k)).find? (·.uid == uid) = some r := Except.ok.inj h
  obtain ⟨b, v, hv, rfl⟩ := History.exists_mem_of_row (List.mem_of_find?_eq_some hfind)
  exact ⟨b, v, hv, by simpa using List.find?_some hfind, rfl⟩

/-! ## Records that are changed in place -/

/-- A row passes the filter for an id if it has the id. -/
theorem holds_one_id {α : Type} [StaticData α] (r : StaticRow) (id : String) :
    (Sql.Filter.one "id" (.text id)).holds (staticColumns α) r.values = true ↔ r.id = id := by
  rw [← compareUnder_text]
  simp [Sql.Filter.holds, Sql.Filter.one, termHolds, cell?, staticColumns, StaticRow.values,
    Sql.Value.isNull, Sql.Value.bound]

/-- A record that is read by an id has its row. -/
theorem get?_eq_some {α : Type} [StaticTable α] {id : String} {a : α}
    (h : (l.get? α .strong id).1 = .ok (some a)) :
    ∃ rs, StaticTable.rows? α l.cluster.primary = some rs ∧ ∃ r ∈ rs, r.id = id := by
  rw [get?, first?, outcome_onRead_strong, Static.first?] at h
  obtain ⟨-, -, h⟩ := bind_eq_ok_iff.mp h
  obtain ⟨found, hfound, h⟩ := bind_eq_ok_iff.mp (ofDatabase_eq_ok_iff.mp h)
  obtain ⟨-, -, hfound⟩ := bind_eq_ok_iff.mp hfound
  obtain ⟨rs, hrs, hfilter⟩ := bind_eq_ok_iff.mp hfound
  cases found with
  | nil => exact nomatch h
  | cons r rest =>
    -- What is read is made of the first row that passes the filter.
    have hr : r ∈ rs.filter fun r =>
        (Sql.Filter.one "id" (.text id)).holds (staticColumns α) r.values := by
      rw [Except.ok.inj hfilter]
      exact List.mem_cons_self
    obtain ⟨hmem, hid⟩ := List.mem_filter.mp hr
    exact ⟨rs, Database.statics_eq_ok_iff.mp hrs, r, hmem, (holds_one_id r id).mp hid⟩

end Ledger

end Payroll
