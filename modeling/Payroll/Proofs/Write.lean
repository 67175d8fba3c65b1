import Payroll.Proofs.History
import Payroll.Proofs.Statement
/-!
# Writing to a table that keeps a history

Only two operations write versions: one inserts the first version of a record, and one adds a version
after the latest one of an id and retires that. Each either fails and leaves the database as it is, or
makes the history of its table longer by the one version that it returns.

## Key results

- `Versioned.insert_cases`: what inserting the first version of a record does
- `Versioned.append_cases`: what adding a version to a record does
-/

namespace Payroll

open History (Orderly ofId row rows)

variable {k : VersionKind} {d : Database} {h : List (Version k.Data)}

namespace Database

/-- The table of a kind keeps an orderly history. -/
structure Keeps (d : Database) (k : VersionKind) (h : List (Version k.Data)) : Prop where
  versionRows_eq : d.versionRows k = some (rows h)
  orderly : Orderly h

theorem keeps_freshOn (engine : Engine) (k : VersionKind) : (freshOn engine).Keeps k [] where
  versionRows_eq := versionRows_freshOn engine k
  orderly := .nil

/-- The rows that a statement on the table sees. -/
theorem Keeps.versions_eq (hk : d.Keeps k h) : versions k.Data d = .ok (rows h) :=
  versions_eq_ok_iff.mpr hk.versionRows_eq

/-- Putting the rows of a history back changes nothing. -/
theorem Keeps.setRows_eq (hk : d.Keeps k h) : VersionedTable.setRows (some (rows h)) d = d := by
  rw [← hk.versionRows_eq]
  exact VersionedTable.setRows_rows? d

/-- The table keeps whatever orderly history is put into it. -/
theorem keeps_setRows (d : Database) (ho : Orderly h) :
    (VersionedTable.setRows (some (rows h)) d).Keeps k h where
  versionRows_eq := versionRows_setRows d k _
  orderly := ho

/-! ## Inserting a row -/

/-- What nothing keeps out of the table that a history becomes can follow the history. -/
theorem obstacle?_rows_eq_none (hm : d.IsMigrated) {v : Version k.Data}
    (hn : obstacle? d (rows h) v = none) :
    nullColumn? (VersionedData.columns k.Data) (VersionedData.cells v.data) = none ∧
      1 ≤ v.version ∧ (∀ w ∈ h, w.id = v.id → w.version ≠ v.version) ∧ v.uid ∉ h.map (·.uid) := by
  obtain ⟨hnull, hversion, hpair, huid⟩ := obstacle?_eq_none hn
  refine ⟨hnull, hversion, fun w hw hid => ?_, ?_⟩
  · obtain ⟨b, hrow⟩ := History.exists_row_of_mem hw
    exact hpair (hm.uniqueVersions k) (row b w) hrow hid
  · rw [← History.map_uid_rows]
    intro hmem
    obtain ⟨r, hr, hru⟩ := List.mem_map.mp hmem
    exact huid r hr hru

/-- A version that can be inserted becomes one more row. -/
theorem insert_cases (hk : d.Keeps k h) (v : Version k.Data) :
    (∃ fault, d.insert v = .error fault) ∨
      obstacle? d (rows h) v = none ∧
        d.insert v = .ok (VersionedTable.setRows (some (rows h ++ [v.stored])) d) := by
  cases hins : d.insert v with
  | error fault => exact Or.inl ⟨fault, rfl⟩
  | ok d' =>
    obtain ⟨rs, hrs, hn, rfl⟩ := insert_eq_ok_iff.mp hins
    obtain rfl := Option.some.inj (hk.versionRows_eq.symm.trans hrs)
    exact Or.inr ⟨hn, rfl⟩

end Database

/-! ## The first version of a record -/

/-- Inserting the first version of a record fails and leaves no trace, or makes the history longer by
that version. -/
theorem Versioned.insert_cases (hm : d.IsMigrated) (hk : d.Keeps k h) (id uid : String) (a : k.Data) :
    let v : Version k.Data := { Meta.first id uid with data := a }
    (∃ fault, Versioned.insert v d = (.error fault, d)) ∨
      Orderly (h ++ [v]) ∧
        Versioned.insert v d = (.ok (), VersionedTable.setRows (some (rows (h ++ [v]))) d) := by
  intro v
  rcases Database.insert_cases hk v with ⟨fault, hfail⟩ | ⟨hn, hok⟩
  · left
    refine ⟨.database fault, ?_⟩
    simp only [Versioned.insert, Step.transaction, hfail]
    rfl
  · right
    obtain ⟨hnull, hversion, hpair, huid⟩ := Database.obstacle?_rows_eq_none hm hn
    -- The pair of the id and the number one is not taken, so there is no version of the id.
    have hnone : ofId v.id h = [] := hk.orderly.ofId_eq_nil hpair
    have hnumber : v.version = (ofId v.id h).length + 1 := by rw [hnone]; rfl
    have hbound : (1 : Int) ≤ maxInt64 := by decide
    refine ⟨hk.orderly.concat hnumber hbound huid hnull, ?_⟩
    simp only [Versioned.insert, Step.transaction, hok, History.rows_concat_first hnone]
    rfl

/-! ## A version after the latest one -/

/-- The number after one in the range is the next one, or below all numbers of versions. -/
theorem nextVersion_eq {n : Int} (hpos : 1 ≤ n) (hmax : n ≤ maxInt64) (hnext : 1 ≤ nextVersion n) :
    nextVersion n = n + 1 ∧ n + 1 ≤ maxInt64 := by
  have hsize : (UInt64.size : Int) = 18446744073709551616 := rfl
  rw [maxInt64] at hmax ⊢
  rw [nextVersion, Int.bmod_def, hsize] at hnext ⊢
  split at hnext
  · rename_i hlt
    rw [if_pos hlt]
    omega
  · -- The largest number is followed by the smallest one, which is below one.
    omega

/-- The number after one in the range is the next one, if that is still in the range. -/
theorem nextVersion_of_lt {n : Int} (hpos : 1 ≤ n) (hmax : n < maxInt64) : nextVersion n = n + 1 := by
  have hsize : (UInt64.size : Int) = 18446744073709551616 := rfl
  rw [maxInt64] at hmax
  rw [nextVersion, Int.bmod_def, hsize]
  split <;> omega

/-- The number after the last one is below all numbers of versions. -/
theorem nextVersion_maxInt64 : nextVersion maxInt64 < 1 := by
  decide

/-- The version that follows another one of the history is the next in it, once it can be inserted. -/
theorem Database.Keeps.concat_next (hm : d.IsMigrated) (hk : d.Keeps k h) {id : String}
    {v next : Version k.Data} (hlast : (ofId id h).getLast? = some v)
    (hid : next.id = v.id) (hversion : next.version = nextVersion v.version)
    (hn : Database.obstacle? d (rows h) next = none) : Orderly (h ++ [next]) := by
  obtain ⟨hnull, hpos, -, huid⟩ := Database.obstacle?_rows_eq_none hm hn
  obtain ⟨hv, hvid⟩ := History.mem_ofId.mp (List.mem_of_getLast? hlast)
  have hcount : v.version = (ofId id h).length := hk.orderly.version_getLast? hlast
  have hone : 0 < (ofId id h).length := List.length_pos_of_mem (List.mem_of_getLast? hlast)
  -- The table takes no number below one, so the number has not wrapped around.
  have hfits := nextVersion_eq (by omega) (hk.orderly.bounded v hv) (hversion ▸ hpos)
  refine hk.orderly.concat ?_ ?_ huid hnull
  · rw [hversion, hfits.1, hid, hvid, hcount]
  · rw [hversion, hfits.1]
    exact hfits.2

/-- Adding a version to a record fails and leaves no trace, or makes the history longer by a version
with the given data that follows another one of its id. -/
theorem Versioned.append_cases (hm : d.IsMigrated) (hk : d.Keeps k h) (id uid : String) (a : k.Data) :
    (∃ fault, Versioned.append id uid a d = (.error fault, d)) ∨
      ∃ next : Version k.Data, next.id = id ∧ next.data = a ∧ ofId id h ≠ [] ∧
        Orderly (h ++ [next]) ∧
        Versioned.append id uid a d =
          (.ok next, VersionedTable.setRows (some (rows (h ++ [next]))) d) := by
  rcases Versioned.append_settles id uid a d with hfail | ⟨next, d', heq⟩
  · exact Or.inl hfail
  right
  obtain ⟨rs, current, hrs, hfound, hnext, hn, hret⟩ := Versioned.append_eq_ok_iff.mp heq
  obtain rfl := Option.some.inj (hk.versionRows_eq.symm.trans hrs)
  rw [History.find?_latest_rows, Option.map_eq_some_iff] at hfound
  obtain ⟨v, hlast, rfl⟩ := hfound
  obtain ⟨-, hvid⟩ := History.mem_ofId.mp (List.mem_of_getLast? hlast)
  have hid : next.id = v.id := by rw [← hnext]; rfl
  have hrow : next.stored = row true next := by rw [← hnext]; rfl
  have ho : Orderly (h ++ [next]) := hk.concat_next hm hlast hid (by rw [← hnext]; rfl) hn
  have hlast' : (ofId next.id h).getLast? = some v := by rw [hid, hvid, hlast]
  -- The row is in the table when the one before it is retired.
  obtain ⟨rs, hrs', -, rfl⟩ := Database.retire_eq_ok hret Nat.one_ne_zero
  rw [VersionedTable.rows?_setRows, Option.some.injEq] at hrs'
  subst hrs'
  refine ⟨next, by rw [hid, hvid], by rw [← hnext], List.ne_nil_of_mem (List.mem_of_getLast? hlast), ho, ?_⟩
  rw [heq, History.row_uid, VersionedTable.setRows_setRows, hrow,
    History.rows_concat_next ho.distinct hlast']

end Payroll
