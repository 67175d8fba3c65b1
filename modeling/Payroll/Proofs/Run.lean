import Payroll.Proofs.Operation
import Payroll.Proofs.Static
import Payroll.Proofs.Write
/-!
# What the ledger keeps

Every operation of the store, whether it succeeds or fails, makes the history of each table of versions
longer by what the operation writes to that table, and does nothing else to those tables.

## Key results

- `Keeps.step`: what one operation does to the histories that the primary keeps
- `Keeps.after`: what any number of operations do to them
- `keeps_opened_after`: what the primary keeps after any operations on an empty one
-/

namespace Payroll

open Database (Extended Reshaped)
open History (Orderly ofId rows)

variable {β : Type} {k : VersionKind} {l : Ledger} {h : List (Version k.Data)}

namespace Ledger

/-! ## Where operations run -/

@[simp] theorem primary_onPrimary (l : Ledger) (f : Step β) :
    (l.onPrimary f).2.cluster.primary = (f l.cluster.primary).2 := rfl

@[simp] theorem outcome_onPrimary (l : Ledger) (f : Step β) :
    (l.onPrimary f).1 = (f l.cluster.primary).1 := rfl

/-- The ledger with these rows in a table of its primary that is changed in place. -/
def withRows (s : StaticKind) (l : Ledger) (rows : List StaticRow) : Ledger :=
  { l with cluster := { l.cluster with
      primary := StaticTable.setRows s.Data (some rows) l.cluster.primary } }

/-- Reading changes nothing on the primary. -/
@[simp] theorem primary_onRead (l : Ledger) (c : Consistency) (f : Reading β) :
    (l.onRead c f).2.cluster.primary = l.cluster.primary := by
  simp only [onRead, Cluster.onRead, Cluster.site]
  split <;> rfl

/-- A strong read sees what is on the primary, and leaves everything as it is. -/
theorem onRead_strong (l : Ledger) (f : Reading β) :
    l.onRead .strong f = (f l.cluster.primary, l) := by
  simp [onRead, Cluster.onRead, Cluster.site, Cluster.database]

@[simp] theorem outcome_onRead_strong (l : Ledger) (f : Reading β) :
    (l.onRead .strong f).1 = f l.cluster.primary := by
  rw [onRead_strong]

/-! ## What is written -/

/-- Creating a record makes the history of its table longer by what it writes. -/
private theorem create_spec (hm : l.cluster.primary.IsMigrated) (hk : l.cluster.primary.Keeps k h)
    (a : k.Data) :
    Orderly (h ++ (l.create a).1.toOption.toList) ∧
      (l.create a).2.cluster.primary = VersionedTable.setRows
        (some (rows (h ++ (l.create a).1.toOption.toList))) l.cluster.primary := by
  have hcases := Versioned.insert_cases hm hk (l.supply.ids l.supply.drawn)
    (l.supply.ids (l.supply.drawn + 1)) a
  simp only [create, outcome_onPrimary, primary_onPrimary, Supply.firstMeta, Supply.id]
  rcases hcases with ⟨fault, heq⟩ | ⟨ho, heq⟩
  · -- A record that is not created adds nothing to the history.
    rw [heq]
    simp only [Except.map, Except.toOption, Option.toList_none, List.append_nil]
    exact ⟨hk.orderly, hk.setRows_eq.symm⟩
  · rw [heq]
    exact ⟨ho, rfl⟩

/-- Adding a version to a record makes the history of its table longer by what it writes. -/
private theorem append_spec (hm : l.cluster.primary.IsMigrated) (hk : l.cluster.primary.Keeps k h)
    (id : String) (a : k.Data) :
    Orderly (h ++ (l.append id a).1.toOption.toList) ∧
      (l.append id a).2.cluster.primary = VersionedTable.setRows
        (some (rows (h ++ (l.append id a).1.toOption.toList))) l.cluster.primary := by
  have hcases := Versioned.append_cases hm hk id (l.supply.ids l.supply.drawn) a
  simp only [append, outcome_onPrimary, primary_onPrimary, Supply.id]
  rcases hcases with ⟨fault, heq⟩ | ⟨next, -, -, -, ho, heq⟩
  · rw [heq]
    simp only [Except.toOption, Option.toList_none, List.append_nil]
    exact ⟨hk.orderly, hk.setRows_eq.symm⟩
  · rw [heq]
    exact ⟨ho, rfl⟩

/-- A record that has been created is at its first version, with the data it was given. -/
theorem create_eq_ok {α : Type} [VersionedTable α] {a : α} {v : Version α}
    (hv : (l.create a).1 = .ok v) : v.version = 1 ∧ v.data = a := by
  simp only [create, outcome_onPrimary, Supply.firstMeta, Supply.id] at hv
  obtain ⟨-, -, rfl⟩ := map_eq_ok_iff.mp hv
  exact ⟨rfl, rfl⟩

/-- A version that has been added to a record has the id of the record, with the data it was given. -/
theorem append_eq_ok (hm : l.cluster.primary.IsMigrated) (hk : l.cluster.primary.Keeps k h)
    {id : String} {a : k.Data} {v : Version k.Data} (hv : (l.append id a).1 = .ok v) :
    v.id = id ∧ v.data = a ∧ ofId id h ≠ [] := by
  simp only [append, outcome_onPrimary, Supply.id] at hv
  rcases Versioned.append_cases hm hk id (l.supply.ids l.supply.drawn) a with
    ⟨fault, heq⟩ | ⟨next, hid, hdata, hne, -, heq⟩
  · rw [heq] at hv
    exact nomatch hv
  · rw [heq] at hv
    rw [← Except.ok.inj hv]
    exact ⟨hid, hdata, hne⟩

end Ledger

/-! ## One operation -/

/-- An operation on the versions of a kind makes the history of the kind longer by what it writes. -/
theorem Versioned.Operation.run_spec (hm : l.cluster.primary.IsMigrated)
    (hk : l.cluster.primary.Keeps k h) (o : Versioned.Operation k.Data) :
    Orderly (h ++ o.written l) ∧
      (o.run l).2.cluster.primary =
        VersionedTable.setRows (some (rows (h ++ o.written l))) l.cluster.primary := by
  -- An operation that only reads writes nothing.
  have hread : ∀ {d}, d = l.cluster.primary → Orderly (h ++ []) ∧
      d = VersionedTable.setRows (some (rows (h ++ []))) l.cluster.primary := by
    rintro d rfl
    rw [List.append_nil, hk.setRows_eq]
    exact ⟨hk.orderly, rfl⟩
  cases o with
  | create record => exact Ledger.create_spec hm hk record.data
  | append id record => exact Ledger.append_spec hm hk id record.data
  | latest c id => exact hread (Ledger.primary_onRead l c _)
  | ofUid c uid => exact hread (Ledger.primary_onRead l c _)
  | latestWhere c f => exact hread (Ledger.primary_onRead l c _)
  | allLatest c => exact hread (Ledger.primary_onRead l c _)
  | history c id => exact hread (Ledger.primary_onRead l c _)
  | query r => exact hread rfl

/-- An operation on records that are changed in place reshapes at most their table. -/
theorem Static.Operation.run_spec (hm : l.cluster.primary.IsMigrated) {s : StaticKind}
    (o : Static.Operation s.Data) :
    Reshaped s.Data l.cluster.primary (o.run l).2.cluster.primary := by
  obtain ⟨rs, hrs⟩ := hm.exists_staticRows s
  have hread : ∀ {d}, d = l.cluster.primary → Reshaped s.Data l.cluster.primary d := by
    rintro d rfl
    exact (Extended.refl hrs).reshaped
  cases o with
  | add record => exact (Static.insertMany_snd hrs _).reshaped
  | addBatch size records => exact Static.insertBatch_snd hrs size _
  | overwriteWhere f record => exact Static.updateWhere_snd hrs f _
  | updateWhere f c => exact Static.updateWhere_snd hrs f c
  | delete id => exact Static.delete_snd hrs id
  | deleteWhere f => exact Static.deleteWhere_snd hrs f
  | first c f => exact hread (Ledger.primary_onRead l c _)
  | allWhere c f => exact hread (Ledger.primary_onRead l c _)
  | get c id => exact hread (Ledger.primary_onRead l c _)

/-! ## Any number of operations -/

/-- A history for each kind of records. -/
abbrev Histories := (k : VersionKind) → List (Version k.Data)

namespace Ledger

/-- The primary has the present schema, and each of its tables of versions keeps its history. -/
structure Keeps (l : Ledger) (hs : Histories) : Prop where
  isMigrated : l.cluster.primary.IsMigrated
  keeps : ∀ k, l.cluster.primary.Keeps k (hs k)

/-- What the primary keeps does not depend on the rest of the ledger. -/
theorem Keeps.congr {hs : Histories} {l' : Ledger} (hl : l.Keeps hs)
    (hp : l'.cluster.primary = l.cluster.primary) : l'.Keeps hs where
  isMigrated := by
    rw [hp]
    exact hl.isMigrated
  keeps k := by
    rw [hp]
    exact hl.keeps k

theorem keeps_opened (engine : Engine) (replicas : List Replica) (turn : Nat) (supply : Supply) :
    (opened engine replicas turn supply).Keeps fun _ => [] where
  isMigrated := Database.isMigrated_freshOn engine
  keeps := Database.keeps_freshOn engine

namespace Keeps

variable {hs : Histories}

/-- An operation makes each history longer by what it writes. -/
theorem step (hl : l.Keeps hs) (o : Operation) :
    (o.step l).Keeps fun k => hs k ++ o.written k l := by
  obtain ⟨hm, hks⟩ := hl
  cases o with
  | versioned k o =>
    obtain ⟨ho, hp⟩ := o.run_spec hm (hks k)
    constructor
    · rw [Operation.step, Operation.run, hp]
      exact hm.setVersionRows k _
    · intro k'
      rw [Operation.step, Operation.run, hp]
      by_cases hkk : k = k'
      · subst hkk
        rw [Operation.written_versioned]
        exact Database.keeps_setRows _ ho
      · -- The table of another kind is as it was, and nothing is written to it.
        rw [Operation.written_versioned_of_ne hkk, List.append_nil]
        refine ⟨?_, (hks k').orderly⟩
        rw [Database.versionRows_setRows_of_ne _ hkk, (hks k').versionRows_eq]
  | static s o =>
    obtain ⟨rs, hp⟩ := o.run_spec hm
    constructor
    · rw [Operation.step, Operation.run, hp]
      exact hm.setStaticRows s rs
    · intro k
      rw [Operation.step, Operation.run, hp, Operation.written_static, List.append_nil]
      refine ⟨?_, (hks k).orderly⟩
      rw [Database.versionRows_setRows_static, (hks k).versionRows_eq]
  | ping =>
    simp only [Operation.written_ping, List.append_nil]
    exact Keeps.congr ⟨hm, hks⟩ rfl
  | migrate =>
    -- There is nothing to migrate on the present schema.
    have hp : (Operation.migrate.step l).cluster.primary = l.cluster.primary := by
      rw [Operation.step, Operation.run, Ledger.migrate, primary_onPrimary, Step.migrate, hm.migrate_eq]
    simp only [Operation.written_migrate, List.append_nil]
    exact Keeps.congr ⟨hm, hks⟩ hp

/-- Only operations on the records of a kind that is changed in place change the rows of its table. -/
theorem staticRows_step (hl : l.Keeps hs) {s : StaticKind} {o : Operation}
    (ho : ∀ o' : Static.Operation s.Data, o ≠ .static s o') :
    (o.step l).cluster.primary.staticRows s = l.cluster.primary.staticRows s := by
  cases o with
  | versioned k o =>
    rw [Operation.step, Operation.run, (o.run_spec hl.isMigrated (hl.keeps k)).2,
      Database.staticRows_setRows_version]
  | static s' o =>
    have hs' : s' ≠ s := by
      rintro rfl
      exact ho o rfl
    obtain ⟨rows, hrows⟩ := o.run_spec hl.isMigrated
    rw [Operation.step, Operation.run, hrows, Database.staticRows_setRows_of_ne _ hs']
  | ping => rfl
  | migrate =>
    rw [Operation.step, Operation.run, Ledger.migrate, primary_onPrimary, Step.migrate,
      hl.isMigrated.migrate_eq]

/-- Operations make each history longer by what they write. -/
theorem after (hl : l.Keeps hs) (ops : List Operation) :
    (l.after ops).Keeps fun k => hs k ++ l.written k ops := by
  induction ops generalizing l hs with
  | nil =>
    simp only [written, List.append_nil]
    exact hl
  | cons o ops ih =>
    -- What the first operation writes comes before all that the others write.
    simp only [written, ← List.append_assoc]
    exact ih (hl.step o)

end Keeps

/-- After any operations on an empty primary, its tables keep what has been written to them. -/
theorem keeps_opened_after (engine : Engine) (replicas : List Replica) (turn : Nat) (supply : Supply)
    (ops : List Operation) :
    ((opened engine replicas turn supply).after ops).Keeps
      fun k => (opened engine replicas turn supply).written k ops := by
  simpa using (keeps_opened engine replicas turn supply).after ops

end Ledger

end Payroll
