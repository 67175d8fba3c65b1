import Payroll.Proofs.Kind
import Payroll.Store.Versioned
/-!
# What a filter keeps

A filter that asks for texts in columns of texts and for integers in columns of integers keeps exactly
the versions that have these values in these columns.

## Key results

- `termHolds_iff`: a term holds of a version that has the value in the column
- `holds_iff`: a filter keeps a version of which all of its terms hold
-/

namespace Payroll

open Sql (Filter Value)

variable {k : VersionKind}

/-- The value is one of those that the column is for, a text or an integer. -/
def Column.IsFor (c : Column) : Value → Prop
  | .text _ => c.affinity = .text
  | .int _ => c.affinity = .integer
  | _ => False

instance (c : Column) : (v : Value) → Decidable (c.IsFor v)
  | .text _ => inferInstanceAs (Decidable (c.affinity = .text))
  | .int _ => inferInstanceAs (Decidable (c.affinity = .integer))
  | .null | .real _ | .blob _ => inferInstanceAs (Decidable False)

/-- The filter names columns that it may name, and asks for texts in columns of texts and for integers in
columns of integers. -/
def Sql.Filter.Typed (α : Type) [VersionedData α] (f : Filter) : Prop :=
  ∀ t ∈ f.terms, t.1 ∈ Versioned.filterable α ∧ ∀ c ∈ versionColumns α, c.name = t.1 → c.IsFor t.2

instance (α : Type) [VersionedData α] (f : Filter) : Decidable (f.Typed α) :=
  inferInstanceAs (Decidable (∀ t ∈ f.terms, t.1 ∈ Versioned.filterable α ∧
    ∀ c ∈ versionColumns α, c.name = t.1 → c.IsFor t.2))

/-- The value that a version has in the column of this name. -/
def Version.value? {α : Type} [VersionedData α] (r : Version α) (name : String) : Option Value :=
  (cell? (versionColumns α) r.values name).map (·.2)

/-! ## Comparing texts and integers -/

theorem compareText_eq_iff (a b : String) : Value.compareText a b = .eq ↔ a = b := by
  rw [Value.compareText]
  by_cases hab : a = b
  · subst hab
    simp
  · rw [if_neg hab]
    split <;> simp [hab]

/-- Two texts are equal in a column of texts if they are the same. -/
theorem compareUnder_text (a b : String) :
    (Sql.compareUnder .text (.text a) (.text b) == some .eq) = true ↔ a = b := by
  rw [← compareText_eq_iff]
  simp [Sql.compareUnder, Value.isNull, Value.isText, Value.asText, Value.order]

/-- Two integers are equal in a column of integers if they are the same. -/
theorem compareUnder_int (a b : Int) :
    (Sql.compareUnder .integer (.int a) (.int b) == some .eq) = true ↔ a = b := by
  simp [Sql.compareUnder, Value.isNull, Value.asNumber, Value.order]

/-! ## Columns of a version -/

/-- The value is one that a version may have in the column. -/
def Column.Admits (c : Column) (v : Value) : Prop :=
  (c.affinity = .text → ∃ s, v = .text s) ∧ (c.affinity = .integer → ∃ i, v = .int i) ∧
    (c.affinity = .real → ∃ x, v = realCell x)

theorem Column.admits_text (name s : String) : Column.Admits ⟨name, .text⟩ (.text s) :=
  ⟨fun _ => ⟨s, rfl⟩, nofun, nofun⟩

theorem Column.admits_int (name : String) (i : Int) : Column.Admits ⟨name, .integer⟩ (.int i) :=
  ⟨nofun, fun _ => ⟨i, rfl⟩, nofun⟩

theorem Column.admits_real (name : String) (x : Float) : Column.Admits ⟨name, .real⟩ (realCell x) :=
  ⟨nofun, nofun, fun _ => ⟨x, rfl⟩⟩

/-- A version has a text in each column of texts, an integer in each column of integers and a number, if
anything, in each column of reals. -/
theorem admits_of_mem_zip {r : Version k.Data} :
    ∀ p ∈ (versionColumns k.Data).zip r.values, p.1.Admits p.2 := by
  cases k with
  | job =>
    change ∀ p ∈ (versionColumns Job).zip (Version.values (α := Job) r), p.1.Admits p.2
    simp [versionColumns, Version.values, VersionedData.columns, VersionedData.cells,
      Column.admits_text, Column.admits_int, Column.admits_real]
  | timelog =>
    change ∀ p ∈ (versionColumns Timelog).zip (Version.values (α := Timelog) r), p.1.Admits p.2
    simp [versionColumns, Version.values, VersionedData.columns, VersionedData.cells,
      Column.admits_text, Column.admits_int]
  | payment =>
    change ∀ p ∈ (versionColumns Payment).zip (Version.values (α := Payment) r), p.1.Admits p.2
    simp [versionColumns, Version.values, VersionedData.columns, VersionedData.cells,
      Column.admits_text, Column.admits_int, Column.admits_real]

/-- A filter may name columns of the table only. -/
theorem exists_column {name : String} (hn : name ∈ Versioned.filterable k.Data) :
    ∃ c ∈ versionColumns k.Data, c.name = name := by
  simp only [Versioned.filterable, List.mem_append, List.mem_cons, List.mem_map,
    List.not_mem_nil, or_false] at hn
  simp only [versionColumns, List.mem_append, List.mem_cons, List.not_mem_nil, or_false]
  rcases hn with (rfl | rfl | rfl) | ⟨c, hc, rfl⟩
  · exact ⟨⟨"id", .text⟩, by simp, rfl⟩
  · exact ⟨⟨"version", .integer⟩, by simp, rfl⟩
  · exact ⟨⟨"uid", .text⟩, by simp, rfl⟩
  · exact ⟨c, Or.inr hc, rfl⟩

/-- A version has a value in each column that a filter may name. -/
private theorem exists_cell? {r : Version k.Data} {name : String}
    (hn : name ∈ Versioned.filterable k.Data) :
    ∃ c v, cell? (versionColumns k.Data) r.values name = some (c, v) := by
  obtain ⟨c, hc, rfl⟩ := exists_column hn
  -- There is a value for each column, so the column is found with its value.
  have hlength : (versionColumns k.Data).length = r.values.length := by cases k <;> rfl
  rw [← List.map_fst_zip (Nat.le_of_eq hlength)] at hc
  obtain ⟨p, hp, rfl⟩ := List.mem_map.mp hc
  have hsome : (cell? (versionColumns k.Data) r.values p.1.name).isSome = true := by
    rw [cell?, List.find?_isSome]
    exact ⟨p, hp, beq_self_eq_true _⟩
  obtain ⟨q, hq⟩ := Option.isSome_iff_exists.mp hsome
  exact ⟨q.1, q.2, hq⟩

/-- A term holds of a version that has the value in the column. -/
theorem termHolds_iff (r : Version k.Data) {t : String × Value}
    (hn : t.1 ∈ Versioned.filterable k.Data)
    (ht : ∀ c ∈ versionColumns k.Data, c.name = t.1 → c.IsFor t.2) :
    termHolds (versionColumns k.Data) r.values t = true ↔ r.value? t.1 = some t.2 := by
  obtain ⟨c, v, hcell⟩ := exists_cell? (r := r) hn
  have hmem : (c, v) ∈ (versionColumns k.Data).zip r.values := List.mem_of_find?_eq_some hcell
  have hname : c.name = t.1 := by simpa using List.find?_some hcell
  have hfor := ht c (List.of_mem_zip hmem).1 hname
  -- The column is for the value of the term, so it holds a value of that type.
  obtain ⟨htext, hint, -⟩ := admits_of_mem_zip _ hmem
  obtain ⟨name, value⟩ := t
  rw [termHolds, Version.value?]
  simp only at hcell hfor
  simp only [hcell, Option.map_some, Option.some.injEq]
  cases value with
  | text s =>
    obtain ⟨s', rfl⟩ := htext hfor
    have haff : c.affinity = .text := hfor
    simpa [Value.isNull, Value.bound, haff] using compareUnder_text s' s
  | int i =>
    obtain ⟨i', rfl⟩ := hint hfor
    have haff : c.affinity = .integer := hfor
    simpa [Value.isNull, Value.bound, haff] using compareUnder_int i' i
  | null | real | blob => exact absurd hfor id

/-- A filter keeps a version that has the values in the columns that it names. -/
theorem holds_iff (r : Version k.Data) {f : Filter} (hf : f.Typed k.Data) :
    f.holds (versionColumns k.Data) r.values = true ↔ ∀ t ∈ f.terms, r.value? t.1 = some t.2 := by
  rw [Sql.Filter.holds, List.all_eq_true]
  constructor
  · intro h t ht
    exact (termHolds_iff r (hf t ht).1 (hf t ht).2).mp (h t ht)
  · intro h t ht
    exact (termHolds_iff r (hf t ht).1 (hf t ht).2).mpr (h t ht)

example : (Sql.Filter.mk [("contractor_id", .text "3"), ("version", .int 2)]).Typed Job := by decide

/-- A filter that names columns that it may name is not refused. -/
theorem validate_eq_ok {f : Filter} (hf : f.Typed k.Data) :
    f.validate (Versioned.filterable k.Data) = .ok () :=
  Sql.Filter.validate_eq_ok_iff.mpr fun t ht => (hf t ht).1

end Payroll
