import Payroll.Proofs.Migration
import Payroll.Store.Step
/-!
# From the first schema to the second

The second migration makes an index for each table of versions, which allows a pair of an id and a number
once. Making it fails if a pair is in the table twice. The indexes are made one after the other, so the
last one can fail when the others have been made, and then those are gone as well.

## Key results

- `hasDuplicates_eq_false_iff`: what a table holds on which the index can be made
- `run_pairStatements_eq_ok_iff`: when several indexes can be made
- `Step.upgrades_migrate`: what migrating a database of the first schema comes to
-/

namespace Payroll

/-- The index that allows a pair of an id and a number once in the table of a kind. -/
def VersionKind.pairIndex (k : VersionKind) : Index where
  name := "idx_" ++ VersionedData.table k.Data ++ "_id_version"
  table := VersionedData.table k.Data
  columns := ["id", "version"]
  unique := true
  latestOnly := false

/-- The kinds, in the order in which their indexes are made. -/
def VersionKind.all : List VersionKind :=
  [.job, .timelog, .payment]

theorem VersionKind.mem_all (k : VersionKind) : k ∈ all := by
  cases k <;> decide

/-- The statement that makes the index of a kind. -/
def VersionKind.pairStatement (k : VersionKind) : SchemaStatement :=
  .index k.pairIndex.name (VersionedTable.tableId k.Data) k.pairIndex.columns true false

/-- The second migration, which makes the indexes. -/
def Migration.second : Migration where
  version := 2
  description := "unique (id, version) per versioned table"
  statements := VersionKind.all.map VersionKind.pairStatement

namespace Database

variable {d : Database} {k : VersionKind} {ks : List VersionKind}

/-! ## Pairs that are there twice -/

/-- No two rows of a table of versions have one id and one number. -/
def HasNoTwins (d : Database) (k : VersionKind) : Prop :=
  ∀ rows, d.versionRows k = some rows → (rows.map fun r => (r.id, r.version)).Nodup

theorem hasTwins_eq_false_iff {α : Type} {rows : List (Version α)} :
    hasTwins rows = false ↔ (rows.map fun r => (r.id, r.version)).Nodup := by
  induction rows with
  | nil => simp [hasTwins]
  | cons r rows ih =>
    rw [hasTwins, Bool.or_eq_false_iff, ih, List.map_cons, List.nodup_cons, List.any_eq_false]
    -- The pair of the first row is that of a later one, or it is not.
    refine and_congr_left' ⟨fun h hmem => ?_, fun h s hs hpair => h ?_⟩
    · obtain ⟨s, hs, hpair⟩ := List.mem_map.mp hmem
      obtain ⟨hid, hversion⟩ := Prod.mk.inj hpair
      exact h s hs (by simp [hid, hversion])
    · obtain ⟨hid, hversion⟩ := (Bool.and_eq_true _ _).mp hpair
      exact List.mem_map.mpr ⟨s, hs, Prod.ext (beq_iff_eq.mp hid) (beq_iff_eq.mp hversion)⟩

theorem hasDuplicates_eq_false_iff :
    d.hasDuplicates (VersionedTable.tableId k.Data) = false ↔ d.HasNoTwins k := by
  have hrows : d.hasDuplicates (VersionedTable.tableId k.Data) =
      hasTwins ((d.versionRows k).getD []) := by
    cases k <;> rfl
  rw [hrows, hasTwins_eq_false_iff, HasNoTwins]
  cases d.versionRows k with
  | none => simp
  | some rows => simp

/-! ## Making the indexes -/

/-- No table goes by the name of an index. -/
theorem any_tableNames (d : Database) (k : VersionKind) :
    d.tableNames.any (sameName k.pairIndex.name) = false := by
  have htable : ∀ t : Table, sameName k.pairIndex.name t.name = false := by
    intro t
    cases k <;> cases t <;> decide
  have hlog : sameName k.pairIndex.name logName = false := by
    cases k <;> decide
  rw [List.any_eq_false, tableNames]
  intro name hname
  rw [Bool.not_eq_true]
  rcases List.mem_append.mp hname with hname | hname
  · obtain ⟨t, -, rfl⟩ := List.mem_map.mp hname
    exact htable t
  · split at hname
    · cases hname
    · rw [List.mem_singleton.mp hname]
      exact hlog

/-- The database with further indexes. -/
def addIndexes (d : Database) (is : List Index) : Database :=
  { d with indexes := d.indexes ++ is }

@[simp] theorem addIndexes_addIndexes (is is' : List Index) :
    (d.addIndexes is).addIndexes is' = d.addIndexes (is ++ is') := by
  simp [addIndexes]

@[simp] theorem versionRows_addIndexes (is : List Index) (k : VersionKind) :
    (d.addIndexes is).versionRows k = d.versionRows k := by
  cases k <;> rfl

@[simp] theorem hasTable_addIndexes (is : List Index) (t : Table) :
    (d.addIndexes is).hasTable t = d.hasTable t := by
  cases t <;> rfl

theorem hasIndex_addIndexes (is : List Index) (name : String) :
    (d.addIndexes is).hasIndex name = (d.hasIndex name || is.any (sameName ·.name name)) :=
  List.any_append

@[simp] theorem hasNoTwins_addIndexes {is : List Index} :
    (d.addIndexes is).HasNoTwins k ↔ d.HasNoTwins k := by
  simp [HasNoTwins]

/-- An index whose name is not taken is made if no pair is there twice. -/
theorem run_pairStatement_eq_ok_iff (htable : d.hasTable (VersionedTable.tableId k.Data) = true)
    (hfree : d.hasIndex k.pairIndex.name = false) {d' : Database} :
    k.pairStatement.run d = .ok d' ↔ d.HasNoTwins k ∧ d.addIndexes [k.pairIndex] = d' := by
  have hname : (VersionedTable.tableId k.Data).name = k.pairIndex.table := by
    cases k <;> rfl
  have hrun : k.pairStatement.run d = d.createIndex (VersionedTable.tableId k.Data) k.pairIndex := by
    rw [VersionKind.pairStatement, SchemaStatement.run, hname]
    rfl
  rw [hrun, createIndex, htable, any_tableNames, hfree, ← hasDuplicates_eq_false_iff]
  cases d.hasDuplicates (VersionedTable.tableId k.Data) with
  | true => simp [VersionKind.pairIndex]
  | false => simp [VersionKind.pairIndex, addIndexes]

/-- Indexes of several kinds are made if no pair is there twice in any of the tables, all of them or
none. -/
theorem run_pairStatements_eq_ok_iff (htable : ∀ t, d.hasTable t = true)
    (hnames : ks.Pairwise fun k k' => sameName k.pairIndex.name k'.pairIndex.name = false)
    (hfree : ∀ k ∈ ks, d.hasIndex k.pairIndex.name = false) {d' : Database} :
    (ks.map VersionKind.pairStatement).foldlM SchemaStatement.run d = .ok d' ↔
      (∀ k ∈ ks, d.HasNoTwins k) ∧ d.addIndexes (ks.map VersionKind.pairIndex) = d' := by
  induction ks generalizing d with
  | nil => simp [addIndexes, pure, Except.pure]
  | cons k ks ih =>
    obtain ⟨hk, hks⟩ := List.pairwise_cons.mp hnames
    -- The index that has been made does not take the names of the others.
    have hfree' : ∀ k' ∈ ks, (d.addIndexes [k.pairIndex]).hasIndex k'.pairIndex.name = false := by
      intro k' hk'
      rw [hasIndex_addIndexes, hfree k' (List.mem_cons_of_mem k hk'), List.any_cons, hk k' hk']
      rfl
    have hfirst {d₁ : Database} : k.pairStatement.run d = .ok d₁ ↔ _ :=
      run_pairStatement_eq_ok_iff (htable (VersionedTable.tableId k.Data)) (hfree k List.mem_cons_self)
    have htable' : ∀ t, (d.addIndexes [k.pairIndex]).hasTable t = true := by
      simpa using htable
    rw [List.map_cons, List.foldlM_cons, bind_eq_ok_iff, List.forall_mem_cons]
    constructor
    · rintro ⟨d₁, hrun, hruns⟩
      obtain ⟨htwins, rfl⟩ := hfirst.mp hrun
      obtain ⟨hall, rfl⟩ := (ih htable' hks hfree').mp hruns
      exact ⟨⟨htwins, fun k' hk' => hasNoTwins_addIndexes.mp (hall k' hk')⟩,
        (addIndexes_addIndexes [k.pairIndex] _).symm⟩
    · rintro ⟨⟨htwins, hall⟩, rfl⟩
      refine ⟨_, hfirst.mpr ⟨htwins, rfl⟩, (ih htable' hks hfree').mpr ⟨fun k' hk' => ?_, ?_⟩⟩
      · exact hasNoTwins_addIndexes.mpr (hall k' hk')
      · exact addIndexes_addIndexes _ _

/-! ## Migrating -/

theorem pendingMigrations_one : pendingMigrations 1 = [.second] := by
  decide

/-- The database is one of the first schema: all tables are there, the first version is the highest that
the log records, and no index goes by a name that the second migration gives. -/
structure IsFirst (d : Database) : Prop where
  hasTable : ∀ t, d.hasTable t = true
  highest : IsHighest d.log.recorded 1
  free : ∀ k : VersionKind, d.hasIndex k.pairIndex.name = false

/-- The database with the indexes of the second schema, which is recorded in the log. -/
def upgraded (d : Database) : Database :=
  { d.addIndexes (VersionKind.all.map VersionKind.pairIndex) with
    log := .versions (d.log.entries ++ [Migration.second.entry]) }

/-- A log that records something can be read. -/
theorem IsFirst.log_eq (h : d.IsFirst) : d.log = .versions d.log.entries := by
  cases hlog : d.log with
  | versions entries => rfl
  | absent | foreign =>
    rcases h.highest with ⟨-, hzero⟩ | ⟨hmem, -⟩
    · cases hzero
    · rw [hlog] at hmem
      cases hmem

/-- The second migration is recorded once its indexes are made. -/
theorem IsFirst.record_eq (h : d.IsFirst) :
    (d.addIndexes (VersionKind.all.map VersionKind.pairIndex)).record Migration.second.entry =
      .ok d.upgraded := by
  have hlog : (d.addIndexes (VersionKind.all.map VersionKind.pairIndex)).log = .versions d.log.entries :=
    h.log_eq
  -- All versions that have been recorded are below the second.
  have hnew : (d.log.entries.any fun e => e.version == Migration.second.entry.version) = false := by
    rw [List.any_eq_false]
    intro e he hversion
    have htwo : e.version = 2 := beq_iff_eq.mp hversion
    rcases h.highest with ⟨-, hzero⟩ | ⟨-, hall⟩
    · cases hzero
    · have hle := hall e.version (List.mem_map_of_mem he)
      omega
  simp only [record, hlog, hnew]
  rfl

/-- The highest version in the log is the second one then. -/
theorem IsFirst.schemaVersion_upgraded (h : d.IsFirst) : d.upgraded.schemaVersion = .ok 2 := by
  have hrecorded : d.upgraded.log.recorded =
      d.log.recorded ++ (pendingMigrations 1).map fun m => (m.version : Int) := by
    rw [pendingMigrations_one, SchemaLog.recorded, SchemaLog.recorded, upgraded, SchemaLog.entries,
      List.map_append]
    rfl
  refine schemaVersion_eq_ok_iff.mpr ⟨rfl, by decide, ?_⟩
  rw [hrecorded]
  exact h.highest.pending (by decide)

/-- The second migration is applied as a whole if no pair is there twice, and else not at all. -/
theorem IsFirst.migrate_eq (h : d.IsFirst) :
    (∀ k, d.HasNoTwins k) ∧ d.migrate = (.ok 1, d.upgraded) ∨
      ¬(∀ k, d.HasNoTwins k) ∧ ∃ fault, d.migrate = (.error fault, d) := by
  have hmigrate : d.migrate = d.applyAll [.second] := by
    rw [← pendingMigrations_one]
    exact migrate_eq_applyAll h.log_eq h.highest (by decide)
  have hruns {d' : Database} : Migration.second.statements.foldlM SchemaStatement.run d = .ok d' ↔ _ :=
    run_pairStatements_eq_ok_iff h.hasTable (by decide) fun k _ => h.free k
  rw [hmigrate, applyAll]
  by_cases hall : ∀ k, d.HasNoTwins k
  · refine Or.inl ⟨hall, ?_⟩
    rw [apply_eq_ok_iff.mpr ⟨_, hruns.mpr ⟨fun k _ => hall k, rfl⟩, h.record_eq⟩]
    rfl
  · refine Or.inr ⟨hall, ?_⟩
    cases happly : d.apply .second with
    | error fault => exact ⟨fault, rfl⟩
    | ok d' =>
      obtain ⟨d₁, hrun, -⟩ := apply_eq_ok_iff.mp happly
      exact absurd (fun k => (hruns.mp hrun).1 k k.mem_all) hall

end Database

/-- What migrating a database of the first schema comes to. -/
structure Step.Upgrades (d : Database) (outcome : Except StoreFault Nat) (d' : Database) : Prop where
  ok_iff : outcome = .ok 1 ↔ ∀ k, d.HasNoTwins k
  /-- The indexes are there and the second version is recorded. All else is as it was, and so are all
  rows. -/
  made : (∀ k, d.HasNoTwins k) → d'.schemaVersion = .ok 2 ∧
    d' = { d with
      indexes := d.indexes ++ VersionKind.all.map VersionKind.pairIndex
      log := .versions (d.log.entries ++ [Migration.second.entry]) }
  /-- A pair that is there twice in whatever table leaves everything as it was. -/
  refused : ¬(∀ k, d.HasNoTwins k) → (∃ fault, outcome = .error (.migration fault)) ∧ d' = d

/-- Whatever rows a database of the first schema holds, migrating it makes all of the second schema or
nothing of it, and the former if no pair of an id and a number is there twice. -/
theorem Step.upgrades_migrate {d : Database} (h : d.IsFirst) :
    Step.Upgrades d (Step.migrate d).1 (Step.migrate d).2 := by
  rw [Step.migrate]
  rcases h.migrate_eq with ⟨hall, heq⟩ | ⟨htwins, fault, heq⟩
  · rw [heq]
    exact {
      ok_iff := ⟨fun _ => hall, fun _ => rfl⟩
      made := fun _ => ⟨h.schemaVersion_upgraded, rfl⟩
      refused := absurd hall }
  · rw [heq]
    exact {
      ok_iff := ⟨nofun, fun hall => absurd hall htwins⟩
      made := fun hall => absurd hall htwins
      refused := fun _ => ⟨⟨fault, rfl⟩, rfl⟩ }

/-- Two payment line items with one id and one number keep the database at the first schema, although the
indexes of the other tables can be made. -/
theorem Step.upgrades_migrate_payments :
    let p : Version Payment :=
      { id := "1", version := 1, uid := "2", isLatest := true, data := ⟨"3", "4", 1, "due"⟩ }
    let d : Database := { Database.fresh with
      payments := some [p]
      indexes := Database.fresh.indexes.filter fun i => !i.unique
      log := .versions [⟨1, "tables"⟩] }
    let twins : Database := { d with payments := some [p, { p with uid := "5" }] }
    d.IsFirst ∧ twins.IsFirst ∧
      (∃ d', Step.migrate d = (.ok 1, d') ∧ d'.schemaVersion = .ok 2 ∧
        d'.payments = some [p] ∧ d'.indexes = Database.fresh.indexes) ∧
      ∃ fault, Step.migrate twins = (.error (.migration fault), twins) := by
  intro p d twins
  have hd : d.IsFirst := {
    hasTable := by intro t; cases t <;> rfl
    highest := Or.inr (by decide)
    free := by intro k; cases k <;> decide }
  have htwins : twins.IsFirst := {
    hasTable := hd.hasTable
    highest := hd.highest
    free := hd.free }
  have hall : ∀ k, d.HasNoTwins k := by
    intro k rows hrows
    cases k with
    | job | timelog =>
      obtain rfl : [] = rows := Option.some.inj hrows
      exact List.nodup_nil
    | payment =>
      obtain rfl : [p] = rows := Option.some.inj hrows
      decide
  have hpair : ¬∀ k, twins.HasNoTwins k := by
    intro hnone
    exact absurd (hnone .payment _ rfl) (by decide)
  refine ⟨hd, htwins, ?_, ?_⟩
  · have hmade := Step.upgrades_migrate hd
    cases hm : Step.migrate d with
    | mk outcome d' =>
      rw [hm] at hmade
      obtain ⟨hversion, rfl⟩ := hmade.made hall
      obtain rfl := hmade.ok_iff.mpr hall
      exact ⟨_, rfl, hversion, rfl, rfl⟩
  · have hrefused := Step.upgrades_migrate htwins
    obtain ⟨⟨fault, hfault⟩, hsame⟩ := hrefused.refused hpair
    exact ⟨fault, Prod.ext hfault hsame⟩

end Payroll
