import Payroll.Proofs.Read
import Payroll.Proofs.Real
/-!
# Versions that have been returned are kept

A version that an operation has returned can be read by its own id ever after. What is read has the
version's id, number and data, and it is the latest as long as no later version of the record is written.

## Key results

- `stored_beq`: data that can be stored come back the same
- `ofRow?_namedRow`: reading by name undoes inserting by name
- `Keeps.happens_updates_iff`: later versions of a record are those that are added to it
- `durable_of_written`: what holds of a version from the moment on at which it is returned
-/

namespace Payroll

open History (ofId row)

variable {k : VersionKind} {l : Ledger} {hs : Histories}

/-! ## Data come back the same -/

private theorem isNaN_rate {j : Job}
    (hj : Database.nullColumn? (VersionedData.columns Job) (VersionedData.cells j) = none) :
    j.rate.isNaN = false :=
  (Database.nullColumn?_eq_none_iff (k := .job)).mp hj

private theorem isNaN_amount {p : Payment}
    (hp : Database.nullColumn? (VersionedData.columns Payment) (VersionedData.cells p) = none) :
    p.amount.isNaN = false :=
  (Database.nullColumn?_eq_none_iff (k := .payment)).mp hp

/-- A job that can be stored is read back as an equal one. -/
private theorem stored_beq_job {j : Job}
    (hj : Database.nullColumn? (VersionedData.columns Job) (VersionedData.cells j) = none) :
    (VersionedData.stored j == j) = true := by
  have hrate := storedReal_beq (isNaN_rate hj)
  show instBEqJob.beq _ _ = true
  simp [instBEqJob.beq, VersionedData.stored, hrate]

/-- A payment line item that can be stored is read back as an equal one. -/
private theorem stored_beq_payment {p : Payment}
    (hp : Database.nullColumn? (VersionedData.columns Payment) (VersionedData.cells p) = none) :
    (VersionedData.stored p == p) = true := by
  have hamount := storedReal_beq (isNaN_amount hp)
  show instBEqPayment.beq _ _ = true
  simp [instBEqPayment.beq, VersionedData.stored, hamount]

/-- Data without a missing value are read back the same as they were given. -/
theorem stored_beq {a : k.Data}
    (ha : Database.nullColumn? (VersionedData.columns k.Data) (VersionedData.cells a) = none) :
    (VersionedData.stored a == a) = true := by
  cases k with
  | job => exact stored_beq_job ha
  | timelog => exact beq_self_eq_true (α := Timelog) a
  | payment => exact stored_beq_payment ha

/-! ## Values are read under the names under which they were inserted -/

/-- The meta data of a version are read from the columns that come first. -/
private theorem ofRow?_meta {α : Type} [VersionedData α] (v : Version α) :
    Meta.ofRow? v.namedRow = some v.toMeta := by
  have hflag : ((if v.isLatest then 1 else 0 : Int) != 0) = v.isLatest := by
    cases v.isLatest <;> rfl
  simp [Meta.ofRow?, Version.namedRow, Version.bindings, NamedRow.ofPairs, NamedRow.text?,
    NamedRow.int?, NamedRow.flag?, List.lookup_cons, Column.kept, hflag]

private theorem ofRow?_job {v : Version Job}
    (hv : Database.nullColumn? (VersionedData.columns Job) (VersionedData.cells v.data) = none) :
    NamedData.ofRow? v.namedRow = some (VersionedData.stored v.data) := by
  have hrate := realCell_eq (isNaN_rate hv)
  simp [NamedData.ofRow?, Version.namedRow, Version.bindings, VersionedData.columns,
    VersionedData.cells, NamedRow.ofPairs, NamedRow.text?, NamedRow.real?, List.lookup_cons, Column.kept,
    hrate, VersionedData.stored]

private theorem ofRow?_timelog (v : Version Timelog) :
    NamedData.ofRow? v.namedRow = some (VersionedData.stored v.data) := by
  simp [NamedData.ofRow?, Version.namedRow, Version.bindings, VersionedData.columns,
    VersionedData.cells, NamedRow.ofPairs, NamedRow.text?, NamedRow.int?, List.lookup_cons, Column.kept,
    VersionedData.stored]

private theorem ofRow?_payment {v : Version Payment}
    (hv : Database.nullColumn? (VersionedData.columns Payment) (VersionedData.cells v.data) = none) :
    NamedData.ofRow? v.namedRow = some (VersionedData.stored v.data) := by
  have hamount := realCell_eq (isNaN_amount hv)
  simp [NamedData.ofRow?, Version.namedRow, Version.bindings, VersionedData.columns,
    VersionedData.cells, NamedRow.ofPairs, NamedRow.text?, NamedRow.real?, List.lookup_cons, Column.kept,
    hamount, VersionedData.stored]

/-- What is read by name from the row that inserting a version makes is the version as it is stored. -/
theorem ofRow?_namedRow {v : Version k.Data}
    (hv : Database.nullColumn? (VersionedData.columns k.Data) (VersionedData.cells v.data) = none) :
    Version.ofRow? k.Data v.namedRow = some v.stored := by
  have hdata : NamedData.ofRow? v.namedRow = some (VersionedData.stored v.data) := by
    cases k with
    | job => exact ofRow?_job hv
    | timelog => exact ofRow?_timelog v
    | payment => exact ofRow?_payment hv
  rw [Version.ofRow?, ofRow?_meta, hdata]
  rfl

/-! ## Later versions of a record -/

namespace Ledger

/-- Where there are versions of an id, an operation that writes another one adds it to the record. -/
theorem Keeps.updates_iff (hl : l.Keeps hs) {id : String} (hid : ofId id (hs k) ≠ [])
    (o : Operation) : o.Updates k id l ↔ (o.written k l).any (·.id == id) = true := by
  rw [List.any_eq_true]
  constructor
  · rintro ⟨record, v, rfl, hv⟩
    refine ⟨v, Operation.mem_written_iff.mpr (Or.inr ⟨id, record, rfl, hv⟩), ?_⟩
    simpa using (append_eq_ok hl.isMigrated (hl.keeps k) hv).1
  · rintro ⟨v, hv, hvid⟩
    rw [beq_iff_eq] at hvid
    rcases Operation.mem_written_iff.mp hv with ⟨record, rfl, hok⟩ | ⟨id', record, rfl, hok⟩
    · -- The first version of a record is the first one of its id.
      obtain ⟨w, ws, hws⟩ := List.exists_cons_of_ne_nil hid
      obtain ⟨hw, hwid⟩ := History.mem_ofId.mp (hws ▸ List.mem_cons_self : w ∈ ofId id (hs k))
      have ho := ((hl.step (.versioned k (.create record))).keeps k).orderly
      rw [Operation.written_eq_singleton hv] at ho
      exact absurd (create_eq_ok hok).1 (ho.version_ne_one hw (by rw [hwid, hvid]))
    · have hid' := (append_eq_ok hl.isMigrated (hl.keeps k) hok).1
      rw [hvid] at hid'
      subst hid'
      exact ⟨record, v, rfl, hok⟩

/-- Where there are versions of an id, operations that write more of them add them to the record. -/
theorem Keeps.happens_updates_iff (hl : l.Keeps hs) {id : String} (hid : ofId id (hs k) ≠ [])
    (ops : List Operation) :
    l.Happens (Operation.Updates k id) ops ↔ (l.written k ops).any (·.id == id) = true := by
  induction ops generalizing l hs with
  | nil => simp [Happens, written]
  | cons o ops ih =>
    -- The id has its versions after the first operation as well.
    have hid' : ofId id (hs k ++ o.written k l) ≠ [] := by
      rw [History.ofId_append]
      exact List.append_ne_nil_of_left_ne_nil hid _
    rw [Happens, written, List.any_append, Bool.or_eq_true, hl.updates_iff hid, ih (hl.step o) hid']

/-! ## What is kept of a version -/

/-- What holds of a version from the moment on at which it has been returned. The ledger is the one of
that moment. -/
structure Durable (l : Ledger) (k : VersionKind) (r : Version k.Data) : Prop where
  /-- It is read by its own id ever after, with its id, its number and its data, and it is the latest
  until a version is added to its record. Up to that claim it is what the columns of the row have under
  their names. -/
  read : ∀ later, ∃ s, ((l.after later).ofUid? k.Data .strong r.uid).1 = .ok (some s) ∧
    s.id = r.id ∧ s.version = r.version ∧ s.uid = r.uid ∧ (s.data == r.data) = true ∧
    (s.isLatest = true ↔ ¬l.Happens (Operation.Updates k r.id) later) ∧
    Version.ofRow? k.Data r.namedRow = some { s with isLatest := r.isLatest }
  /-- Once it is not the latest, it is never again. -/
  overtaken : ∀ later more s s', ((l.after later).ofUid? k.Data .strong r.uid).1 = .ok (some s) →
    ((l.after (later ++ more)).ofUid? k.Data .strong r.uid).1 = .ok (some s') →
    s.isLatest = false → s'.isLatest = false
  /-- Nothing but adding a version to its record changes what is read. -/
  untouched : ∀ later (o : Operation),
    (∀ record : Version k.Data, o ≠ .versioned k (.append r.id record)) →
    ((o.step (l.after later)).ofUid? k.Data .strong r.uid).1 =
      ((l.after later).ofUid? k.Data .strong r.uid).1
  /-- The rows of its table stay where they are, and keep all but the claim to be the latest. -/
  kept : ∀ later more, ∃ rs rs', (l.after later).cluster.primary.versionRows k = some rs ∧
    (l.after (later ++ more)).cluster.primary.versionRows k = some rs' ∧
    rs.map Version.retired <+: rs'.map Version.retired

/-- The last version of a history that a table keeps is durable. -/
theorem Keeps.durable (hl : l.Keeps hs) {g : List (Version k.Data)} {r : Version k.Data}
    (hr : hs k = g ++ [r]) : l.Durable k r := by
  -- What is read later depends on the versions that have been written since.
  have hafter (later : List Operation) : hs k ++ l.written k later = g ++ r :: l.written k later := by
    rw [hr, List.append_assoc, List.singleton_append]
  have hread (later : List Operation) := (hl.after later).ofUid?_eq_of_mem (hafter later)
  have hrid : ofId r.id (hs k) ≠ [] := by
    rw [hr]
    exact List.ne_nil_of_mem (History.mem_ofId.mpr ⟨by simp, rfl⟩)
  constructor
  case read =>
    intro later
    have hstorable := (hl.keeps k).orderly.storable r (by simp [hr])
    refine ⟨_, hread later, rfl, rfl, rfl, stored_beq hstorable, ?_, ofRow?_namedRow hstorable⟩
    rw [History.row_isLatest, hl.happens_updates_iff hrid, Bool.not_eq_true']
    simp
  case overtaken =>
    intro later more s s' hs hs' hlatest
    rw [hread, Except.ok.injEq, Option.some.injEq] at hs hs'
    subst hs hs'
    rw [History.row_isLatest, Bool.not_eq_false'] at hlatest ⊢
    rw [written_append, List.any_append, hlatest, Bool.true_or]
  case untouched =>
    intro later o ho
    have hid : ofId r.id (hs k ++ l.written k later) ≠ [] := by
      rw [History.ofId_append]
      exact List.append_ne_nil_of_left_ne_nil hrid _
    -- A version of the record could only have been added to it.
    have hnone : ((l.after later).written k [o]).any (·.id == r.id) = false := by
      rw [written, written, List.append_nil, Bool.eq_false_iff, Ne,
        ← (hl.after later).updates_iff hid]
      rintro ⟨record, -, ho', -⟩
      exact ho record ho'
    have hone := hread (later ++ [o])
    rw [after_append, after_cons, after_nil] at hone
    rw [hone, hread later, written_append, List.any_append, hnone, Bool.or_false]
  case kept =>
    intro later more
    refine ⟨_, _, ((hl.after later).keeps k).versionRows_eq,
      ((hl.after (later ++ more)).keeps k).versionRows_eq, ?_⟩
    -- Histories only ever grow at their ends.
    have hprefix : hs k ++ l.written k later <+: hs k ++ l.written k (later ++ more) := by
      rw [written_append, ← List.append_assoc]
      exact List.prefix_append _ _
    rw [History.map_retired_rows, History.map_retired_rows]
    exact hprefix.map (row false)

/-- Whatever operations have been done on an empty primary of the present schema, a version that one
more operation returns is durable. -/
theorem durable_of_written (engine : Engine) (replicas : List Replica) (turn : Nat) (supply : Supply)
    (before : List Operation) (o : Operation) (k : VersionKind) (r : Version k.Data)
    (hr : r ∈ o.written k ((opened engine replicas turn supply).after before)) :
    (o.step ((opened engine replicas turn supply).after before)).Durable k r := by
  have hl := (keeps_opened_after engine replicas turn supply before).step o
  refine hl.durable (g := (opened engine replicas turn supply).written k before) ?_
  rw [Operation.written_eq_singleton hr]

/-- A supply of three ids. -/
private def threeIds : Supply :=
  { ids := fun n => if n = 0 then "job" else if n = 1 then "first" else "second"
    times := fun _ => ""
    drawn := 0 }

/-- A job whose rate is a negative zero. -/
private def unpaidJob : Version Job :=
  { id := "", version := 7, uid := "", isLatest := false
    data :=
      { status := "active", rate := -0.0, title := "title", companyId := "company",
        contractorId := "contractor" } }

theorem durable_of_written_second :
    ∃ r : Version Job, r.version = 2 ∧ r.id = "job" ∧
      (Operation.step (.versioned .job (.append "job" unpaidJob))
        ((opened .plain [] 0 threeIds).after [.versioned .job (.create unpaidJob)])).Durable .job r := by
  let r : Version Job := { unpaidJob with id := "job", version := 2, uid := "second", isLatest := true }
  refine ⟨r, rfl, rfl,
    durable_of_written .plain [] 0 threeIds [.versioned .job (.create unpaidJob)] _ .job r ?_⟩
  exact Operation.mem_written_iff.mpr (Or.inr ⟨"job", unpaidJob, rfl, rfl⟩)

end Ledger

end Payroll
