import Payroll.Proofs.Kind
import Payroll.Proofs.Outcome
/-!
# Migrations converge

Whatever a database holds, migrating it applies the migrations above the highest version that its log
records, one after the other, up to the first that fails. A migration makes the tables and indexes that
are missing, and records itself; no row is ever touched. So a database that has been migrated stays as it
is when it is migrated again.

## Key results

- `gains_of_statements`: what the statements of a migration change
- `gains_of_apply`: what a migration changes
- `applyAll_cases`, `migrate_cases`: what several migrations change, whether one of them fails or not
- `migrate_converges`: what migrating any database comes to
-/

namespace Payroll

open Database (addTable)

/-! ## What migrations bring -/

/-- The table that a statement makes. -/
def SchemaStatement.table? : SchemaStatement → Option Table
  | .table t => some t
  | .index _ _ _ _ _ => none

/-- The index that a statement makes. -/
def SchemaStatement.index? : SchemaStatement → Option Index
  | .table _ => none
  | .index name t columns unique latestOnly =>
    some { name, table := t.name, columns, unique, latestOnly }

/-- The tables that a migration makes. -/
def Migration.tables (m : Migration) : List Table :=
  m.statements.filterMap SchemaStatement.table?

/-- The indexes that a migration makes. -/
def Migration.indexes (m : Migration) : List Index :=
  m.statements.filterMap SchemaStatement.index?

/-- What is recorded of a migration. -/
def Migration.entry (m : Migration) : LogEntry :=
  ⟨m.version, m.description⟩

/-- The migrations above a version. -/
def pendingMigrations (version : Int) : List Migration :=
  migrations.filter (version < ·.version)

/-- What a log records. One that is no log records nothing. -/
def SchemaLog.entries : SchemaLog → List LogEntry
  | .absent | .foreign => []
  | .versions entries => entries

/-- The versions that a log records. -/
def SchemaLog.recorded (log : SchemaLog) : List Int :=
  log.entries.map (·.version)

/-- The version is the highest of the list, or zero if there is none. -/
def IsHighest (versions : List Int) (v : Int) : Prop :=
  versions = [] ∧ v = 0 ∨ v ∈ versions ∧ ∀ w ∈ versions, w ≤ v

namespace Database

variable {d d' d'' : Database}

/-- The indexes with some more, each of which is left out if its name is taken. -/
def withIndexes (present more : List Index) : List Index :=
  more.foldl (fun is i => if is.any (sameName ·.name i.name) then is else is ++ [i]) present

/-- The database has got the tables and indexes that were missing of those listed, and the log records
more. No row and no trigger is different, and a new table has no rows. -/
structure Gains (d d' : Database) (tables : List Table) (indexes : List Index)
    (entries : List LogEntry) : Prop where
  versionRows : ∀ k, d'.versionRows k = d.versionRows k ∨
    d.versionRows k = none ∧ d'.versionRows k = some []
  staticRows : ∀ s, d'.staticRows s = d.staticRows s ∨
    d.staticRows s = none ∧ d'.staticRows s = some []
  hasTable : ∀ t, d'.hasTable t = true ↔ d.hasTable t = true ∨ t ∈ tables
  indexes : d'.indexes = withIndexes d.indexes indexes
  triggers : d'.triggers = d.triggers
  entries : d'.log.entries = d.log.entries ++ entries
  /-- A table of another shape under the name of the log is left alone. -/
  log : d'.log = d.log ∨ d.log ≠ .foreign ∧ d'.log = .versions d'.log.entries

namespace Gains

theorem refl (d : Database) : Gains d d [] [] [] where
  versionRows _ := Or.inl rfl
  staticRows _ := Or.inl rfl
  hasTable t := by simp
  indexes := rfl
  triggers := rfl
  entries := (List.append_nil _).symm
  log := Or.inl rfl

variable {ts ts' : List Table} {is is' : List Index} {es es' : List LogEntry}

theorem trans (h : Gains d d' ts is es) (h' : Gains d' d'' ts' is' es') :
    Gains d d'' (ts ++ ts') (is ++ is') (es ++ es') where
  versionRows k := by
    -- A table that was made first is there when the rest is made.
    rcases h.versionRows k with heq | ⟨hnone, hnew⟩
    · have := h'.versionRows k
      rwa [heq] at this
    · rcases h'.versionRows k with heq' | ⟨hnone', -⟩
      · exact Or.inr ⟨hnone, by rw [heq', hnew]⟩
      · rw [hnew] at hnone'
        cases hnone'
  staticRows s := by
    rcases h.staticRows s with heq | ⟨hnone, hnew⟩
    · have := h'.staticRows s
      rwa [heq] at this
    · rcases h'.staticRows s with heq' | ⟨hnone', -⟩
      · exact Or.inr ⟨hnone, by rw [heq', hnew]⟩
      · rw [hnew] at hnone'
        cases hnone'
  hasTable t := by
    rw [h'.hasTable, h.hasTable, List.mem_append, or_assoc]
  indexes := by
    rw [h'.indexes, h.indexes, withIndexes, withIndexes, withIndexes, List.foldl_append]
  triggers := h'.triggers.trans h.triggers
  entries := by
    rw [h'.entries, h.entries, List.append_assoc]
  log := by
    rcases h.log with heq | ⟨hne, heq⟩
    · rcases h'.log with heq' | ⟨hne', heq'⟩
      · exact Or.inl (heq'.trans heq)
      · rw [heq] at hne'
        exact Or.inr ⟨hne', heq'⟩
    · rcases h'.log with heq' | ⟨-, heq'⟩
      · exact Or.inr ⟨hne, by rw [heq', ← heq]⟩
      · exact Or.inr ⟨hne, heq'⟩

end Gains

/-! ## Statements and migrations -/

theorem hasTable_addTable (d : Database) (t t' : Table) :
    (d.addTable t).hasTable t' = true ↔ d.hasTable t' = true ∨ t' = t := by
  cases t <;> cases t' <;> simp [addTable, hasTable]

/-- Rows that are made if there are none are as they were, or there were none. -/
private theorem or_some_nil {β : Type} (rows : Option (List β)) :
    rows.or (some []) = rows ∨ rows = none ∧ rows.or (some []) = some [] := by
  cases rows with
  | none => exact Or.inr ⟨rfl, rfl⟩
  | some rows => exact Or.inl rfl

theorem gains_addTable (d : Database) (t : Table) : Gains d (d.addTable t) [t] [] [] where
  versionRows k := by
    cases t <;> cases k <;> first | exact Or.inl rfl | exact or_some_nil _
  staticRows s := by
    cases t <;> cases s <;> first | exact Or.inl rfl | exact or_some_nil _
  hasTable t' := by
    rw [hasTable_addTable, List.mem_singleton]
  indexes := by cases t <;> rfl
  triggers := by cases t <;> rfl
  entries := by cases t <;> exact (List.append_nil _).symm
  log := Or.inl (by cases t <;> rfl)

/-- A table that is there already is not made again. -/
theorem gains_createTable {t : Table} (h : d.createTable t = .ok d') : Gains d d' [t] [] [] := by
  rw [createTable] at h
  split at h
  · rename_i ht
    obtain rfl := Except.ok.inj h
    -- Nothing is made, and the table is among those that are there.
    have hrefl := Gains.refl d
    refine { hrefl with hasTable := fun t' => ?_ }
    rw [List.mem_singleton]
    constructor
    · exact Or.inl
    · rintro (ht' | rfl)
      · exact ht'
      · exact ht
  · split at h
    · cases h
    · rw [← Except.ok.inj h]
      exact gains_addTable d t

/-- Another log and other indexes leave all tables as they are. -/
theorem gains_withSchema {log : SchemaLog} {entries : List LogEntry} (is : List Index)
    (hentries : log.entries = d.log.entries ++ entries)
    (hlog : log = d.log ∨ d.log ≠ .foreign ∧ log = .versions log.entries) :
    Gains d { d with log, indexes := withIndexes d.indexes is } [] is entries where
  versionRows k := by cases k <;> exact Or.inl rfl
  staticRows s := by cases s <;> exact Or.inl rfl
  hasTable t := by cases t <;> simp [hasTable]
  indexes := rfl
  triggers := rfl
  entries := hentries
  log := hlog

/-- An index whose name is taken is not made. -/
theorem gains_createIndex {t : Table} {i : Index} (h : d.createIndex t i = .ok d') :
    Gains d d' [] [i] [] := by
  have hgains : Gains d { d with indexes := withIndexes d.indexes [i] } [] [i] [] :=
    gains_withSchema [i] (List.append_nil _).symm (Or.inl rfl)
  -- What is gained is the index, unless its name is taken.
  rw [withIndexes, List.foldl_cons, List.foldl_nil] at hgains
  rw [createIndex] at h
  split at h
  · cases h
  · split at h
    · cases h
    · split at h
      · rename_i hname
        rw [hasIndex] at hname
        rw [if_pos hname] at hgains
        rwa [← Except.ok.inj h]
      · rename_i hname
        rw [hasIndex] at hname
        rw [if_neg hname] at hgains
        split at h
        · cases h
        · rwa [← Except.ok.inj h]

/-- What is recorded is recorded after all that is in the log. -/
theorem gains_record {e : LogEntry} (h : d.record e = .ok d') : Gains d d' [] [] [e] := by
  rw [record] at h
  split at h
  · cases h
  · cases h
  · rename_i entries hlog
    split at h
    · cases h
    · rw [← Except.ok.inj h]
      refine gains_withSchema [] ?_ (Or.inr ⟨?_, rfl⟩)
      · rw [hlog]
        rfl
      · rw [hlog]
        exact nofun

/-- The log is made if there is none, and records nothing then. -/
theorem gains_createLog (h : d.createLog = .ok d') : Gains d d' [] [] [] := by
  rw [createLog] at h
  split at h
  · rename_i hlog
    split at h
    · cases h
    · rw [← Except.ok.inj h]
      refine gains_withSchema [] ?_ (Or.inr ⟨?_, rfl⟩)
      · rw [hlog]
        rfl
      · rw [hlog]
        intro habsent
        cases habsent
  · rw [← Except.ok.inj h]
    exact .refl d

/-- What the statements of a migration change. -/
theorem gains_of_statements {ss : List SchemaStatement}
    (h : ss.foldlM SchemaStatement.run d = .ok d') :
    Gains d d' (ss.filterMap SchemaStatement.table?) (ss.filterMap SchemaStatement.index?) [] := by
  induction ss generalizing d with
  | nil =>
    rw [← Except.ok.inj h]
    exact .refl d
  | cons s ss ih =>
    rw [List.foldlM_cons] at h
    obtain ⟨d₁, hs, hss⟩ := bind_eq_ok_iff.mp h
    cases s with
    | table t => exact (gains_createTable hs).trans (ih hss)
    | index name t columns unique latestOnly => exact (gains_createIndex hs).trans (ih hss)

/-- A migration is applied if its statements can be run and it can be recorded after that. -/
theorem apply_eq_ok_iff {m : Migration} : d.apply m = .ok d' ↔
    ∃ d₁, m.statements.foldlM SchemaStatement.run d = .ok d₁ ∧ d₁.record m.entry = .ok d' := by
  rw [apply, Migration.entry]
  constructor
  · intro h
    split at h
    · cases h
    · rename_i d₁ hrun
      split at h
      · cases h
      · rename_i d₂ hrecord
        rw [← Except.ok.inj h]
        exact ⟨d₁, hrun, hrecord⟩
  · rintro ⟨d₁, hrun, hrecord⟩
    simp only [hrun, hrecord]

/-- A migration that is applied makes what it brings and records itself. -/
theorem gains_of_apply {m : Migration} (h : d.apply m = .ok d') :
    Gains d d' m.tables m.indexes [m.entry] := by
  obtain ⟨d₁, hrun, hrecord⟩ := apply_eq_ok_iff.mp h
  have hgains := (gains_of_statements hrun).trans (gains_record hrecord)
  rwa [List.append_nil, List.append_nil] at hgains

/-! ## Several migrations -/

/-- The database has got what migrations bring, and they are recorded. -/
def GainsAll (d d' : Database) (ms : List Migration) : Prop :=
  Gains d d' (ms.flatMap Migration.tables) (ms.flatMap Migration.indexes) (ms.map Migration.entry)

/-- Migrations take effect one after the other, up to the first that fails, which leaves no trace. -/
theorem applyAll_cases (d : Database) (ms : List Migration) :
    ∃ applied, applied <+: ms ∧ GainsAll d (d.applyAll ms).2 applied ∧
      ∀ n, (d.applyAll ms).1 = .ok n → applied = ms ∧ n = ms.length := by
  induction ms generalizing d with
  | nil =>
    refine ⟨[], List.nil_prefix, .refl d, fun n hn => ⟨rfl, ?_⟩⟩
    exact (Except.ok.inj hn).symm
  | cons m ms ih =>
    rw [applyAll]
    cases hm : d.apply m with
    | error fault =>
      -- The transaction of the migration is rolled back, and those after it are not begun.
      exact ⟨[], List.nil_prefix, .refl d, nofun⟩
    | ok d₁ =>
      obtain ⟨applied, hpre, hgains, hok⟩ := ih d₁
      refine ⟨m :: applied, List.cons_prefix_cons.mpr ⟨rfl, hpre⟩, ?_, fun n hn => ?_⟩
      · exact (gains_of_apply hm).trans hgains
      · obtain ⟨count, hcount, rfl⟩ := map_eq_ok_iff.mp hn
        obtain ⟨rfl, rfl⟩ := hok count hcount
        exact ⟨rfl, rfl⟩

end Database

/-! ## The highest version -/

/-- The greatest of a list that goes on from a number is that number or in the list, and above both. -/
private theorem foldl_max_spec (v : Int) (vs : List Int) :
    (vs.foldl max v = v ∨ vs.foldl max v ∈ vs) ∧ v ≤ vs.foldl max v ∧ ∀ w ∈ vs, w ≤ vs.foldl max v := by
  induction vs generalizing v with
  | nil => simp
  | cons w vs ih =>
    obtain ⟨hmem, hle, hall⟩ := ih (max v w)
    rw [List.foldl_cons]
    refine ⟨?_, by omega, fun u hu => ?_⟩
    · rcases hmem with heq | hmem
      · rw [heq, List.mem_cons]
        rcases Int.le_total w v with hle | hle
        · exact Or.inl (Int.max_eq_left hle)
        · exact Or.inr (Or.inl (Int.max_eq_right hle))
      · exact Or.inr (List.mem_cons_of_mem w hmem)
    · rcases List.mem_cons.mp hu with rfl | hu
      · omega
      · exact hall u hu

theorem isHighest_greatest (vs : List Int) : IsHighest vs (greatest vs) := by
  cases vs with
  | nil => exact Or.inl ⟨rfl, rfl⟩
  | cons v vs =>
    obtain ⟨hmem, hle, hall⟩ := foldl_max_spec v vs
    refine Or.inr ⟨List.mem_cons.mpr hmem, fun w hw => ?_⟩
    rcases List.mem_cons.mp hw with rfl | hw
    · exact hle
    · exact hall w hw

/-- There is only one highest version. -/
theorem IsHighest.unique {vs : List Int} {v w : Int} (hv : IsHighest vs v) (hw : IsHighest vs w) :
    v = w := by
  rcases hv with ⟨rfl, rfl⟩ | ⟨hv, hall⟩
  · rcases hw with ⟨-, rfl⟩ | ⟨hw, -⟩
    · rfl
    · cases hw
  · rcases hw with ⟨rfl, rfl⟩ | ⟨hw, hall'⟩
    · cases hv
    · exact Int.le_antisymm (hall' v hv) (hall w hw)

/-- With all pending migrations recorded, the highest version is at least that of the last one. -/
theorem IsHighest.pending {vs : List Int} {v : Int} (h : IsHighest vs v) (hv : 0 ≤ v) :
    IsHighest (vs ++ (pendingMigrations v).map fun m => (m.version : Int)) (max v 2) := by
  have hpending : (pendingMigrations v).map (fun m => (m.version : Int)) =
      [1, 2].filter fun w => v < w := by
    rw [pendingMigrations, show ([1, 2] : List Int) = migrations.map fun m => (m.version : Int) from rfl,
      List.filter_map]
    rfl
  -- What was recorded is at most `v`, and zero is below all migrations.
  have hle : ∀ w ∈ vs, w ≤ v := by
    rcases h with ⟨rfl, rfl⟩ | ⟨-, hall⟩
    · exact nofun
    · exact hall
  rw [hpending]
  refine Or.inr ⟨?_, fun w hw => ?_⟩
  · rcases Int.lt_or_le v 2 with hlt | hge
    · have hmem : (2 : Int) ∈ [1, 2].filter fun w => v < w := by simp [hlt]
      rw [Int.max_eq_right (Int.le_of_lt hlt)]
      exact List.mem_append_right vs hmem
    · rw [Int.max_eq_left hge]
      rcases h with ⟨-, rfl⟩ | ⟨hmem, -⟩
      · omega
      · exact List.mem_append_left _ hmem
  · rcases List.mem_append.mp hw with hw | hw
    · have := hle w hw
      omega
    · have hmem : w = 1 ∨ w = 2 := by simpa using (List.mem_filter.mp hw).1
      omega

/-! ## Migrating a database -/

namespace Database

variable {d d' : Database}

/-- The version of the schema can be read if there is a log whose highest version fits 32 bits. -/
theorem schemaVersion_eq_ok_iff {n : Nat} :
    d.schemaVersion = .ok n ↔
      d.log = .versions d.log.entries ∧ n < UInt32.size ∧ IsHighest d.log.recorded n := by
  have hhighest := isHighest_greatest d.log.recorded
  rw [schemaVersion, recorded, logEntries]
  cases hlog : d.log with
  | absent => simp [Except.map, SchemaLog.entries]
  | foreign => simp [Except.map, SchemaLog.entries]
  | versions entries =>
    -- The greatest of the recorded versions is the only one that can be the highest.
    rw [hlog, SchemaLog.recorded, SchemaLog.entries] at hhighest
    simp only [Except.map, SchemaLog.entries, SchemaLog.recorded, true_and]
    constructor
    · intro h
      split at h
      · rename_i hfits
        obtain rfl := Except.ok.inj h
        refine ⟨by omega, ?_⟩
        rwa [Int.toNat_of_nonneg hfits.1]
      · cases h
    · rintro ⟨hfits, hn⟩
      have heq := hhighest.unique hn
      rw [if_pos (by omega), heq, Int.toNat_natCast]

/-- What migrating a database comes to, where `v` is the highest version that its log records. -/
structure Converges (d : Database) (v : Int) : Prop where
  highest : IsHighest d.log.recorded v
  /-- Migrating makes all that is pending, and a second time it makes nothing. -/
  succeeds : ∀ n d', d.migrate = (.ok n, d') →
    n = (pendingMigrations v).length ∧ GainsAll d d' (pendingMigrations v) ∧
      IsHighest d'.log.recorded (max v 2) ∧ d'.migrate = (.ok 0, d')
  /-- A failure leaves what the migrations before it have made. -/
  fails : ∀ fault d', d.migrate = (.error fault, d') →
    ∃ applied, applied <+: pendingMigrations v ∧ GainsAll d d' applied

/-- The migrations that are chosen by the version that has been read. -/
private theorem filter_migrations (n : Nat) :
    migrations.filter (n < ·.version) = pendingMigrations n := by
  rw [pendingMigrations]
  refine List.filter_congr fun m _ => ?_
  rw [decide_eq_decide]
  omega

/-- Where the log can be read, the migrations above its highest version are applied. -/
theorem migrate_eq_applyAll (hlog : d.log = .versions d.log.entries) {n : Nat}
    (hn : IsHighest d.log.recorded n) (hlt : n < UInt32.size) :
    d.migrate = d.applyAll (pendingMigrations n) := by
  have hlogged : d.createLog = .ok d := by
    rw [createLog, if_neg]
    rw [hlog]
    intro habsent
    cases habsent
  have hversion : d.schemaVersion = .ok n := schemaVersion_eq_ok_iff.mpr ⟨hlog, hlt, hn⟩
  rw [migrate, hlogged]
  simp only [hversion]
  rw [filter_migrations]

/-- There is nothing to migrate if the highest version is at least that of the last migration. -/
theorem migrate_of_highest (hlog : d.log = .versions d.log.entries) {v : Int}
    (hv : IsHighest d.log.recorded v) (hle : 2 ≤ v) (hlt : v < UInt32.size) :
    d.migrate = (.ok 0, d) := by
  have hnone : pendingMigrations v.toNat = [] := by
    have hall : ∀ m ∈ migrations, m.version ≤ 2 := by decide
    refine List.filter_eq_nil_iff.mpr fun m hm => ?_
    have := hall m hm
    rw [decide_eq_true_iff]
    omega
  have hn : IsHighest d.log.recorded v.toNat := by
    rwa [Int.toNat_of_nonneg (by omega)]
  rw [migrate_eq_applyAll hlog hn (by omega), hnone]
  rfl

/-- A migration fails before anything is applied, or applies what is above the version that it reads. -/
theorem migrate_cases (d : Database) :
    (∃ fault d₁, d.migrate = (.error fault, d₁) ∧ GainsAll d d₁ []) ∨
      ∃ (n : Nat) (d₁ : Database), d.migrate = d₁.applyAll (pendingMigrations n) ∧ GainsAll d d₁ [] ∧
        d₁.log = .versions d₁.log.entries ∧ n < UInt32.size ∧ IsHighest d₁.log.recorded n := by
  rw [migrate]
  cases hlog : d.createLog with
  | error cause => exact Or.inl ⟨_, _, rfl, .refl d⟩
  | ok d₁ =>
    have hgains : GainsAll d d₁ [] := gains_createLog hlog
    dsimp only
    cases hversion : d₁.schemaVersion with
    | error fault => exact Or.inl ⟨_, _, rfl, hgains⟩
    | ok n =>
      refine Or.inr ⟨n, d₁, ?_, hgains, schemaVersion_eq_ok_iff.mp hversion⟩
      rw [← filter_migrations]

/-- The versions of migrations are recorded after those that were. -/
theorem GainsAll.recorded {ms : List Migration} (h : GainsAll d d' ms) :
    d'.log.recorded = d.log.recorded ++ ms.map fun m => (m.version : Int) := by
  rw [SchemaLog.recorded, h.entries, List.map_append, List.map_map]
  rfl

/-- A log that can be read still can once migrations are applied. -/
theorem GainsAll.log_eq {ms : List Migration} (h : GainsAll d d' ms)
    (hlog : d.log = .versions d.log.entries) : d'.log = .versions d'.log.entries := by
  rcases h.log with heq | ⟨-, heq⟩
  · rw [heq]
    exact hlog
  · exact heq

/-- Any database converges when it is migrated. -/
theorem migrate_converges (d : Database) : ∃ v, d.Converges v := by
  rcases migrate_cases d with ⟨fault, d₁, hfail, hgains⟩ | ⟨v, d₁, heq, hgains, hlog, hlt, hhighest⟩
  · -- The log cannot be made or read.
    refine ⟨_, isHighest_greatest _, fun n d' h => ?_, fun fault' d' h => ?_⟩
    · rw [hfail] at h
      cases h
    · rw [hfail] at h
      obtain ⟨-, rfl⟩ := Prod.mk.inj h
      exact ⟨[], List.nil_prefix, hgains⟩
  · have hv : IsHighest d.log.recorded v := by
      have hrecorded := hgains.recorded
      rw [List.map_nil, List.append_nil] at hrecorded
      rwa [hrecorded] at hhighest
    obtain ⟨applied, hpre, happlied, hok⟩ := applyAll_cases d₁ (pendingMigrations v)
    -- The log is made before the first migration.
    have hall : GainsAll d (d₁.applyAll (pendingMigrations v)).2 applied := hgains.trans happlied
    rw [← heq] at hall hok
    refine ⟨v, hv, fun n d' h => ?_, fun fault d' h => ⟨applied, hpre, ?_⟩⟩
    · rw [h] at hall hok
      obtain ⟨rfl, rfl⟩ := hok n rfl
      have hnow : IsHighest d'.log.recorded (max v 2) := by
        rw [hall.recorded]
        exact hv.pending (Int.natCast_nonneg v)
      refine ⟨rfl, hall, hnow, ?_⟩
      -- The highest version is now that of the last migration, or was above it before.
      rw [← heq, h] at happlied
      have hsize : (UInt32.size : Int) = 4294967296 := rfl
      exact migrate_of_highest (happlied.log_eq hlog) hnow (by omega) (by omega)
    · rw [h] at hall
      exact hall

end Database

end Payroll
