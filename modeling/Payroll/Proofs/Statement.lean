import Mathlib.Data.List.Nodup
import Payroll.Proofs.Kind
import Payroll.Proofs.Outcome
import Payroll.Proofs.Real
import Payroll.Store.Versioned
/-!
# Statements on tables of versions

What it takes for a statement on a table of versions to succeed, whatever the database holds, and what
the table holds after it.

## Key results

- `nullColumn?_eq_none_iff`: data can be stored if their floats are numbers
- `obstacle?_eq_none`, `obstacle?_of_free`: nothing keeps a version out that has all its values and keys of
  its own
- `insert_eq_ok_iff`: a version that is inserted becomes one more row
- `retire_eq_ok`, `retire_eq_one_ok`: rows that are retired are counted
- `Versioned.append_eq_ok_iff`: when adding a version succeeds, and what it does then
-/

namespace Payroll

/-- The data can be stored: the floats among them are numbers. -/
def VersionKind.IsStorable : (k : VersionKind) → k.Data → Prop
  | .job, j => (Job.rate j).isNaN = false
  | .timelog, _ => True
  | .payment, p => (Payment.amount p).isNaN = false

namespace Database

/-- No column of data that can be stored is null. -/
theorem nullColumn?_eq_none_iff {k : VersionKind} {a : k.Data} :
    nullColumn? (VersionedData.columns k.Data) (VersionedData.cells a) = none ↔ k.IsStorable a := by
  have hjob (j : Job) :
      nullColumn? (VersionedData.columns Job) (VersionedData.cells j) = none ↔ j.rate.isNaN = false := by
    rw [← isNull_realCell]
    simp [nullColumn?, VersionedData.columns, VersionedData.cells, Sql.Value.isNull]
  have hpayment (p : Payment) :
      nullColumn? (VersionedData.columns Payment) (VersionedData.cells p) = none ↔
        p.amount.isNaN = false := by
    rw [← isNull_realCell]
    simp [nullColumn?, VersionedData.columns, VersionedData.cells, Sql.Value.isNull]
  cases k with
  | job => exact hjob a
  | timelog => exact ⟨fun _ => trivial, fun _ => rfl⟩
  | payment => exact hpayment a

variable {α : Type} [VersionedTable α] {d d' : Database} {rs : List (Version α)} {v : Version α}

/-- The rows that a statement on the table sees. -/
theorem versions_eq_ok_iff : versions α d = .ok rs ↔ VersionedTable.rows? d = some rs := by
  rw [versions]
  split
  · rename_i rows hrows
    simp [hrows]
  · rename_i hrows
    simp [hrows]

/-- What nothing keeps out of the table has all its values and keys of its own. -/
theorem obstacle?_eq_none (hn : obstacle? d rs v = none) :
    nullColumn? (VersionedData.columns α) (VersionedData.cells v.data) = none ∧ 1 ≤ v.version ∧
      (d.uniqueVersions (VersionedData.table α) = true →
        ∀ r ∈ rs, r.id = v.id → r.version ≠ v.version) ∧
      ∀ r ∈ rs, r.uid ≠ v.uid := by
  -- What may be in the way is looked for in this order: a missing value, a number below one, a pair of
  -- id and number that is taken, and an id of its own that is taken.
  rw [obstacle?] at hn
  split at hn
  · exact nomatch hn
  · rename_i hnull
    split at hn
    · exact nomatch hn
    · rename_i hversion
      split at hn
      · exact nomatch hn
      · rename_i hpair
        split at hn
        · exact nomatch hn
        · rename_i huid
          refine ⟨hnull, by omega, fun hunique r hr hid hnumber => ?_, fun r hr heq => ?_⟩
          · exact hpair ((Bool.and_eq_true _ _).mpr
              ⟨hunique, List.any_eq_true.mpr ⟨r, hr, by simp [hid, hnumber]⟩⟩)
          · exact huid (List.any_eq_true.mpr ⟨r, hr, by simp [heq]⟩)

/-- Nothing is in the way of a version that has all its values and keys of its own. -/
theorem obstacle?_of_free
    (hnull : nullColumn? (VersionedData.columns α) (VersionedData.cells v.data) = none)
    (hversion : 1 ≤ v.version) (hpair : ∀ r ∈ rs, r.id = v.id → r.version ≠ v.version)
    (huid : ∀ r ∈ rs, r.uid ≠ v.uid) : obstacle? d rs v = none := by
  have hnumber : ¬v.version < 1 := by omega
  have htaken : (rs.any fun r => r.id == v.id && r.version == v.version) = false := by
    rw [List.any_eq_false]
    intro r hr heq
    obtain ⟨hid, hsame⟩ := (Bool.and_eq_true _ _).mp heq
    exact hpair r hr (by simpa using hid) (by simpa using hsame)
  have hused : (rs.any (·.uid == v.uid)) = false := by
    rw [List.any_eq_false]
    intro r hr heq
    exact huid r hr (by simpa using heq)
  simp [obstacle?, hnull, hnumber, htaken, hused]

/-- A pair of id and number that is taken is in the way of a version that could be stored otherwise. -/
theorem obstacle?_of_taken (hunique : d.uniqueVersions (VersionedData.table α) = true)
    (hnull : nullColumn? (VersionedData.columns α) (VersionedData.cells v.data) = none)
    (hversion : 1 ≤ v.version) (hpair : ∃ r ∈ rs, r.id = v.id ∧ r.version = v.version) :
    obstacle? d rs v = some (.notUnique (VersionedData.table α) ["id", "version"]) := by
  obtain ⟨r, hr, hid, hsame⟩ := hpair
  have hnumber : ¬v.version < 1 := by omega
  have htaken : (rs.any fun r => r.id == v.id && r.version == v.version) = true :=
    List.any_eq_true.mpr ⟨r, hr, by simp [hid, hsame]⟩
  simp [obstacle?, hnull, hnumber, hunique, htaken]

/-- A value that is missing, or a number below one, is in the way whatever the table holds, and it is not a
key that is taken. -/
theorem obstacle?_of_unfit
    (h : nullColumn? (VersionedData.columns α) (VersionedData.cells v.data) ≠ none ∨ v.version < 1) :
    ∃ fault, obstacle? d rs v = some fault ∧ fault.isDuplicate = false := by
  rw [obstacle?]
  split
  · exact ⟨_, rfl, rfl⟩
  · rename_i hnull
    rw [if_pos (h.resolve_left (absurd hnull))]
    exact ⟨_, rfl, rfl⟩

/-- A version is inserted if nothing keeps it out, and becomes one more row. -/
theorem insert_eq_ok_iff :
    d.insert v = .ok d' ↔ ∃ rs, VersionedTable.rows? d = some rs ∧ obstacle? d rs v = none ∧
      d' = VersionedTable.setRows (some (rs ++ [v.stored])) d := by
  rw [insert]
  constructor
  · intro h
    obtain ⟨rs, hrs, h⟩ := bind_eq_ok_iff.mp h
    refine ⟨rs, versions_eq_ok_iff.mp hrs, ?_⟩
    split at h
    · exact nomatch h
    · rename_i hn
      exact ⟨hn, (Except.ok.inj h).symm⟩
  · rintro ⟨rs, hrs, hn, rfl⟩
    refine bind_eq_ok_iff.mpr ⟨rs, versions_eq_ok_iff.mpr hrs, ?_⟩
    rw [hn]
    rfl

/-- What keeps a version out of the table is what inserting it fails for. -/
theorem insert_eq_error {fault : DatabaseFault} (hrs : VersionedTable.rows? d = some rs)
    (hn : obstacle? d rs v = some fault) : d.insert v = .error fault := by
  rw [insert, versions_eq_ok_iff.mpr hrs]
  simp only [bind, Except.bind, hn]
  rfl

/-- The latest rows that pass a filter are read unless it is too long, and then no table is looked at. -/
theorem latestWhere_eq (hrs : VersionedTable.rows? d = some rs) (f : Sql.Filter) :
    d.latestWhere α f = if maxTerms ≤ f.terms.length then .error .tooDeep
      else .ok (rs.filter fun r => r.isLatest && f.holds (versionColumns α) r.values) := by
  rw [latestWhere, depthAfter_term_filter, versions_eq_ok_iff.mpr hrs]
  split <;> rfl

/-- Rows that are retired lose their claims to be the latest, and are counted. -/
theorem retire_eq_ok {uid : String} {n : Nat} (h : d.retire α uid = .ok (n, d')) (hn : n ≠ 0) :
    ∃ rs : List (Version α), VersionedTable.rows? d = some rs ∧
      n = (rs.filter fun r => r.uid == uid && r.isLatest).length ∧
      d' = VersionedTable.setRows (some (rs.map fun r =>
        if r.uid == uid && r.isLatest then r.retired else r)) d := by
  obtain ⟨rs, hrs, h⟩ := bind_eq_ok_iff.mp h
  refine ⟨rs, versions_eq_ok_iff.mp hrs, ?_⟩
  dsimp only at h
  split at h
  · exact absurd (Prod.mk.inj (Except.ok.inj h)).1.symm hn
  · -- A trigger may object, or let the rows be as they are.
    split at h
    · exact nomatch h
    · exact absurd (Prod.mk.inj (Except.ok.inj h)).1.symm hn
    · obtain ⟨hcount, hd⟩ := Prod.mk.inj (Except.ok.inj h)
      exact ⟨hcount.symm, hd.symm⟩

/-- Where the ids of rows are distinct and no trigger objects, retiring a row that is the latest takes one
claim away. -/
theorem retire_eq_one_ok (hquiet : d.retiringObjection? (VersionedTable.tableId α) = none)
    (hrs : VersionedTable.rows? d = some rs) (hd : (rs.map (·.uid)).Nodup) {r : Version α} (hr : r ∈ rs)
    (hlatest : r.isLatest = true) :
    d.retire α r.uid = .ok (1, VersionedTable.setRows (some (rs.map fun s =>
      if s.uid == r.uid && s.isLatest then s.retired else s)) d) := by
  have hversions : versions α d = .ok rs := versions_eq_ok_iff.mpr hrs
  -- The row makes the claim, and no other row has its id.
  have hcount : (rs.filter fun s => s.uid == r.uid && s.isLatest).length = 1 := by
    have hmem : r ∈ rs.filter fun s => s.uid == r.uid && s.isLatest := by simp [hr, hlatest]
    have hpos := List.length_pos_of_mem hmem
    have hone := List.nodup_iff_count_le_one.mp hd r.uid
    rw [List.count, List.countP_map] at hone
    have hle : (rs.filter fun s => s.uid == r.uid && s.isLatest).length ≤
        rs.countP ((· == r.uid) ∘ fun s => s.uid) := by
      rw [← List.countP_eq_length_filter]
      refine List.countP_mono_left fun s _ hs => ?_
      exact ((Bool.and_eq_true _ _).mp hs).1
    omega
  simp only [retire, hversions, bind, Except.bind, hquiet, hcount]
  rfl

/-- Where a trigger objects, retiring a row that is the latest fails for its reason, or changes nothing. -/
theorem retire_of_objection {objection : Option String}
    (hobjection : d.retiringObjection? (VersionedTable.tableId α) = some objection)
    (hrs : VersionedTable.rows? d = some rs) {r : Version α} (hr : r ∈ rs) (hlatest : r.isLatest = true) :
    d.retire α r.uid = objection.elim (.ok (0, d)) fun reason => .error (.refused reason) := by
  have hversions : versions α d = .ok rs := versions_eq_ok_iff.mpr hrs
  have hcount : (rs.filter fun s => s.uid == r.uid && s.isLatest).length ≠ 0 := by
    have hmem : r ∈ rs.filter fun s => s.uid == r.uid && s.isLatest := by simp [hr, hlatest]
    exact Nat.ne_of_gt (List.length_pos_of_mem hmem)
  simp only [retire, hversions, bind, Except.bind, hobjection, if_neg hcount]
  cases objection <;> rfl

end Database

namespace Versioned

variable {α : Type} [VersionedTable α] {d d' : Database} {id uid : String} {a : α} {next : Version α}

/-- A new version gets past the statement that inserts it only if the statement succeeds. -/
theorem insertNext_eq_ok_iff : insertNext d next = .ok d' ↔ d.insert next = .ok d' := by
  rw [insertNext]
  cases d.insert next with
  | ok d₁ => simp
  | error cause =>
    dsimp only
    split <;> simp

/-- Adding a version fails and leaves no trace, or succeeds. -/
theorem append_settles (id uid : String) (a : α) (d : Database) :
    (∃ fault, Versioned.append id uid a d = (.error fault, d)) ∨
      ∃ next d', Versioned.append id uid a d = (.ok next, d') := by
  rw [append]
  -- The whole of it is one transaction, so a failure of any part leaves no trace.
  rcases Step.transaction_cases _ d with hfail | ⟨next, d', -, heq⟩
  · exact Or.inl hfail
  · exact Or.inr ⟨next, d', heq⟩

/-- Adding a version succeeds if the id has a latest row, nothing keeps the version after it out of the
table, and one row loses its claim to be the latest once the new row is there. -/
theorem append_eq_ok_iff : Versioned.append id uid a d = (.ok next, d') ↔
    ∃ rows current, VersionedTable.rows? d = some rows ∧
      (rows.find? fun r => r.id == id && r.isLatest) = some current ∧
      { current.toMeta.successor uid with data := a } = next ∧ d.obstacle? rows next = none ∧
      (VersionedTable.setRows (some (rows ++ [next.stored])) d).retire α current.uid = .ok (1, d') := by
  rw [append, Step.transaction_eq_ok_iff]
  constructor
  · intro h
    obtain ⟨latest, hlatest, h⟩ := bind_eq_ok_iff.mp h
    obtain ⟨rows, hrows, hfound⟩ := bind_eq_ok_iff.mp (ofDatabase_eq_ok_iff.mp hlatest)
    cases latest with
    | none => cases h
    | some current =>
      obtain ⟨d₁, hins, h⟩ := bind_eq_ok_iff.mp h
      obtain ⟨⟨count, d₂⟩, hret, h⟩ := bind_eq_ok_iff.mp h
      obtain ⟨hcount, h⟩ := unless_eq_ok_iff.mp h
      obtain ⟨hnext, rfl⟩ := Prod.mk.inj (Except.ok.inj h)
      rw [hnext] at hins
      obtain ⟨rows', hrows', hn, rfl⟩ :=
        Database.insert_eq_ok_iff.mp (insertNext_eq_ok_iff.mp hins)
      rw [Database.versions_eq_ok_iff, hrows', Option.some.injEq] at hrows
      subst hrows
      rw [Decidable.not_not.mp hcount] at hret
      exact ⟨rows', current, hrows', Except.ok.inj hfound, hnext, hn, ofDatabase_eq_ok_iff.mp hret⟩
  · rintro ⟨rows, current, hrows, hfound, hnext, hn, hret⟩
    have hlatest : Versioned.latest? α id d = .ok (some current) := by
      rw [Versioned.latest?, Database.latest?, Database.versions_eq_ok_iff.mpr hrows, ← hfound]
      rfl
    have hins := insertNext_eq_ok_iff.mpr (Database.insert_eq_ok_iff.mpr ⟨rows, hrows, hn, rfl⟩)
    simp only [hlatest, bind, Except.bind, hnext, hins, hret]
    rfl

end Versioned

end Payroll
