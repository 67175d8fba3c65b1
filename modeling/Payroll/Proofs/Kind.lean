import Payroll.Database.Migration
import Payroll.Database.Versions
import Payroll.Record.Named
/-!
# Kinds of records

The three kinds of records that are kept in versions and the two that are changed in place, each with
its table. A statement about every table is one about every kind. Main statements: what is put into one
table leaves the other tables, the log, the indexes and the triggers as they are.
-/

namespace Payroll

/-- The kinds of records that are kept in versions. -/
inductive VersionKind where
  | job
  | timelog
  | payment
deriving DecidableEq

/-- The data of a version of the kind. -/
def VersionKind.Data : VersionKind → Type
  | .job => Job
  | .timelog => Timelog
  | .payment => Payment

instance : (k : VersionKind) → VersionedTable k.Data
  | .job => inferInstanceAs (VersionedTable Job)
  | .timelog => inferInstanceAs (VersionedTable Timelog)
  | .payment => inferInstanceAs (VersionedTable Payment)

instance : (k : VersionKind) → NamedData k.Data
  | .job => inferInstanceAs (NamedData Job)
  | .timelog => inferInstanceAs (NamedData Timelog)
  | .payment => inferInstanceAs (NamedData Payment)

/-- Data are the same if all their fields are, floats being compared as numbers. -/
instance : (k : VersionKind) → BEq k.Data
  | .job => inferInstanceAs (BEq Job)
  | .timelog => inferInstanceAs (BEq Timelog)
  | .payment => inferInstanceAs (BEq Payment)

/-- The kinds of records that are changed in place. -/
inductive StaticKind where
  | company
  | contractor
deriving DecidableEq

/-- A record of the kind. -/
def StaticKind.Data : StaticKind → Type
  | .company => Company
  | .contractor => Contractor

instance : (s : StaticKind) → StaticTable s.Data
  | .company => inferInstanceAs (StaticTable Company)
  | .contractor => inferInstanceAs (StaticTable Contractor)

namespace Database

/-- The rows of a table of versions, if it is there. -/
def versionRows (k : VersionKind) (d : Database) : Option (List (Version k.Data)) :=
  VersionedTable.rows? d

/-- The rows of a table that is changed in place, if it is there. -/
def staticRows (s : StaticKind) (d : Database) : Option (List StaticRow) :=
  StaticTable.rows? s.Data d

/-! ## Tables stand apart -/

section Apart

variable (d : Database) (k : VersionKind) (s : StaticKind)

@[simp] theorem versionRows_setRows (rows : Option (List (Version k.Data))) :
    (VersionedTable.setRows rows d).versionRows k = rows :=
  VersionedTable.rows?_setRows rows d

@[simp] theorem staticRows_setRows (rows : Option (List StaticRow)) :
    (StaticTable.setRows s.Data rows d).staticRows s = rows :=
  StaticTable.rows?_setRows rows d

/-- Rows of one kind put into their table leave those of another kind alone. -/
theorem versionRows_setRows_of_ne {k k' : VersionKind} (h : k' ≠ k)
    (rows : Option (List (Version k'.Data))) :
    (VersionedTable.setRows rows d).versionRows k = d.versionRows k := by
  -- Each table is a field of its own of the database.
  cases k <;> cases k' <;> first | rfl | exact absurd rfl h

theorem staticRows_setRows_of_ne {s s' : StaticKind} (h : s' ≠ s) (rows : Option (List StaticRow)) :
    (StaticTable.setRows s'.Data rows d).staticRows s = d.staticRows s := by
  cases s <;> cases s' <;> first | rfl | exact absurd rfl h

@[simp] theorem versionRows_setRows_static (rows : Option (List StaticRow)) :
    (StaticTable.setRows s.Data rows d).versionRows k = d.versionRows k := by
  cases s <;> cases k <;> rfl

@[simp] theorem staticRows_setRows_version (rows : Option (List (Version k.Data))) :
    (VersionedTable.setRows rows d).staticRows s = d.staticRows s := by
  cases s <;> cases k <;> rfl

@[simp] theorem triggers_setRows_static (rows : Option (List StaticRow)) :
    (StaticTable.setRows s.Data rows d).triggers = d.triggers := by
  cases s <;> rfl

end Apart

/-! ## The present schema -/

/-- The database has every table and index of the present schema, its log says so, and no trigger
watches a table. -/
structure IsMigrated (d : Database) : Prop where
  log : d.log = fresh.log
  indexes : d.indexes = fresh.indexes
  triggers : d.triggers = []
  hasTable : ∀ t, d.hasTable t = true

theorem isMigrated_freshOn (engine : Engine) : (freshOn engine).IsMigrated where
  log := rfl
  indexes := rfl
  triggers := rfl
  hasTable t := by cases t <;> rfl

@[simp] theorem versionRows_freshOn (engine : Engine) (k : VersionKind) :
    (freshOn engine).versionRows k = some [] := by
  cases k <;> rfl

@[simp] theorem staticRows_freshOn (engine : Engine) (s : StaticKind) :
    (freshOn engine).staticRows s = some [] := by
  cases s <;> rfl

namespace IsMigrated

variable {d : Database}

/-- New rows in a table of versions change nothing about the schema. -/
theorem setVersionRows (h : d.IsMigrated) (k : VersionKind) (rows : List (Version k.Data)) :
    (VersionedTable.setRows (some rows) d).IsMigrated := by
  obtain ⟨hlog, hindexes, htriggers, htable⟩ := h
  constructor
  · cases k <;> exact hlog
  · cases k <;> exact hindexes
  · cases k <;> exact htriggers
  · intro t
    have := htable t
    cases k <;> cases t <;> first | rfl | exact this

/-- New rows in a table that is changed in place change nothing about the schema. -/
theorem setStaticRows (h : d.IsMigrated) (s : StaticKind) (rows : List StaticRow) :
    (StaticTable.setRows s.Data (some rows) d).IsMigrated := by
  obtain ⟨hlog, hindexes, htriggers, htable⟩ := h
  constructor
  · cases s <;> exact hlog
  · cases s <;> exact hindexes
  · cases s <;> exact htriggers
  · intro t
    have := htable t
    cases s <;> cases t <;> first | rfl | exact this

/-- Every table of versions allows one row for each pair of id and version. -/
theorem uniqueVersions (h : d.IsMigrated) (k : VersionKind) :
    Database.uniqueVersions d (VersionedData.table k.Data) = true := by
  rw [Database.uniqueVersions, h.indexes]
  cases k <;> decide

/-- No trigger objects to retiring a version. -/
theorem retiringObjection?_eq_none (h : d.IsMigrated) (t : Table) : d.retiringObjection? t = none := by
  rw [retiringObjection?, h.triggers, List.findSome?_nil]

/-- A table that is changed in place is there. -/
theorem exists_staticRows (h : d.IsMigrated) (s : StaticKind) :
    ∃ rows, d.staticRows s = some rows := by
  cases s with
  | company => exact Option.isSome_iff_exists.mp (h.hasTable .company)
  | contractor => exact Option.isSome_iff_exists.mp (h.hasTable .contractor)

/-- There is nothing to migrate. -/
theorem migrate_eq (h : d.IsMigrated) : d.migrate = (.ok 0, d) := by
  -- The log is there, so it is not created, and its last entry is the last change of the schema.
  have hlog : d.createLog = .ok d := by
    have : d.log ≠ .absent := by rw [h.log]; decide
    rw [Database.createLog, if_neg this]
  have hversion : d.schemaVersion = .ok 2 := by
    rw [schemaVersion, recorded, logEntries, h.log]
    rfl
  rw [Database.migrate, hlog]
  simp only [hversion]
  rfl

end IsMigrated

end Database

end Payroll
