import Payroll.Proofs.Kind
/-!
# What becomes of records that are changed in place

An operation that succeeds adds records to their table, gives columns of some of them other texts, or
takes some of them away. What a record has become is known from what has been done since it was added: it
keeps its id, and each of its columns holds the last text that it was given.

## Key results

- `id_outlive`: a record keeps its id
- `textOf_outlive`: a column holds the last text that it was given
- `foldl_apply`: records that are added one after the other are listed in that order
-/

namespace Payroll.Static

open Sql (Changes Filter Value)

/-! ## Records and their columns -/

/-- What is under a key is changed as the pair with the key is. -/
theorem lookup_map {β γ : Type} (g : String → β → γ) (key : String) (ps : List (String × β)) :
    (ps.map fun p => (p.1, g p.1 p.2)).lookup key = (ps.lookup key).map (g key) := by
  induction ps with
  | nil => rfl
  | cons p ps ih =>
    rw [List.map_cons, List.lookup_cons, List.lookup_cons, ih]
    by_cases hkey : key == p.1
    · obtain rfl := beq_iff_eq.mp hkey
      simp only [beq_self_eq_true, Option.map_some]
    · rw [Bool.not_eq_true] at hkey
      simp only [hkey]

/-- There is something under a key of one of the pairs. -/
theorem exists_lookup {β : Type} {key : String} {ps : List (String × β)}
    (hkey : key ∈ ps.map (·.1)) : ∃ b, ps.lookup key = some b := by
  obtain ⟨p, hp, rfl⟩ := List.mem_map.mp hkey
  exact Option.isSome_iff_exists.mp (List.lookup_isSome_iff.mpr ⟨p, hp, beq_self_eq_true p.1⟩)

section Columns

variable {α : Type} [StaticData α]

/-- The text in a column of a record. -/
def textOf (a : α) (column : String) : Option String :=
  ((StaticData.columns α).zip (StaticData.texts a)).lookup column

/-- The record with the texts that are given to its columns. -/
def revised (given : String → Option String) (a : α) : α :=
  (StaticData.ofTexts? (StaticData.id a) (((StaticData.columns α).zip (StaticData.texts a)).map
    fun (column, text) => (given column).getD text)).getD a

/-- The record passes the filter. -/
def passes (f : Filter) (a : α) : Bool :=
  f.holds (staticColumns α) (StaticRow.ofData a).values

/-- The text that changes give to a column, the last one if there are several. -/
def textGiven (c : Changes) (column : String) : Option String :=
  match c.value? column with
  | some (.text text) => some text
  | _ => none

end Columns

section Kinds

variable {s : StaticKind}

@[simp] theorem id_revised (given : String → Option String) (a : s.Data) :
    StaticData.id (revised given a) = StaticData.id a := by
  cases s <;> rfl

/-- A column holds the text that it is given, or else the one that it held. -/
theorem textOf_revised (given : String → Option String) (a : s.Data) {column text : String}
    (h : textOf a column = some text) :
    textOf (revised given a) column = some ((given column).getD text) := by
  have hrevised : (((StaticData.columns s.Data).zip (StaticData.texts a)).map fun p =>
      (p.1, (given p.1).getD p.2)).lookup column = some ((given column).getD text) := by
    rw [lookup_map fun column text => (given column).getD text]
    exact congrArg (Option.map _) h
  -- Every column has a field of its own, which is given its own text.
  cases s <;> exact hrevised

/-- The row of a record with other texts. -/
theorem ofData_revised (given : String → Option String) (a : s.Data) :
    StaticRow.ofData (revised given a) =
      { StaticRow.ofData a with
        cells := ((StaticData.columns s.Data).zip (StaticData.texts a)).map fun (column, text) =>
          Value.text ((given column).getD text) } := by
  cases s <;> rfl

end Kinds

/-! ## What has been done -/

/-- What an operation has done to a table: it has added records, given texts to the columns of those that
it chose, or taken away those that it chose. -/
inductive Deed (α : Type) where
  | add (records : List α)
  | revise (chosen : α → Bool) (given : String → Option String)
  | remove (chosen : α → Bool)

namespace Deed

variable {α : Type}

/-- The records that are added. -/
def added : Deed α → List α
  | add records => records
  | revise _ _ | remove _ => []

variable [StaticData α]

/-- What becomes of a record that is there, which is nothing if it is taken away. -/
def fate : Deed α → α → Option α
  | add _, a => some a
  | revise chosen given, a => some (if chosen a then revised given a else a)
  | remove chosen, a => if chosen a then none else some a

/-- The text that a column of a record is given. -/
def text? : Deed α → α → String → Option String
  | revise chosen given, a, column => if chosen a then given column else none
  | add _, _, _ | remove _, _, _ => none

/-- The records after what has been done. -/
def apply (d : Deed α) (as : List α) : List α :=
  as.filterMap d.fate ++ d.added

@[simp] theorem apply_add (records as : List α) : (add records).apply as = as ++ records := by
  have hstay : as.filterMap (add records).fate = as := List.filterMap_some
  rw [apply, hstay, added]

@[simp] theorem apply_revise (chosen : α → Bool) (given : String → Option String) (as : List α) :
    (revise chosen given).apply as = as.map fun a => if chosen a then revised given a else a := by
  rw [apply, added, List.append_nil]
  exact congrFun List.filterMap_eq_map as

@[simp] theorem apply_remove (chosen : α → Bool) (as : List α) :
    (remove chosen).apply as = as.filter fun a => !chosen a := by
  rw [apply, added, List.append_nil]
  induction as with
  | nil => rfl
  | cons a as ih =>
    rw [List.filterMap_cons, List.filter_cons, ih, fate]
    cases chosen a <;> rfl

end Deed

variable {α : Type} [StaticData α]

/-- What becomes of a record in the end. -/
def outlive : List (Deed α) → α → Option α
  | [], a => some a
  | d :: ds, a => (d.fate a).bind (outlive ds)

/-- The records that are added and not taken away again, in the order in which they are added. -/
def survivors : List (Deed α) → List α
  | [] => []
  | d :: ds => d.added.filterMap (outlive ds) ++ survivors ds

/-- The texts that a column of a record is given, one after the other, for as long as the record is
there. -/
def textsGiven (column : String) : List (Deed α) → α → List String
  | [], _ => []
  | d :: ds, a =>
    (d.text? a column).toList ++
      match d.fate a with
      | some b => textsGiven column ds b
      | none => []

/-- What has been done one after the other leaves what becomes of the records that were there, and then
of those that were added. -/
theorem foldl_apply (ds : List (Deed α)) (as : List α) :
    ds.foldl (fun as d => d.apply as) as = as.filterMap (outlive ds) ++ survivors ds := by
  induction ds generalizing as with
  | nil => simp [outlive, survivors]
  | cons d ds ih =>
    -- What is added now meets the same end as what was there, one deed later.
    rw [List.foldl_cons, ih, Deed.apply, List.filterMap_append, List.filterMap_filterMap, survivors,
      List.append_assoc]
    rfl

section Kinds

variable {s : StaticKind} {ds : List (Deed s.Data)} {a b : s.Data}

theorem id_fate {d : Deed s.Data} (h : d.fate a = some b) : StaticData.id b = StaticData.id a := by
  cases d with
  | add records => rw [← Option.some.inj h]
  | revise chosen given =>
    rw [← Option.some.inj h]
    split
    · exact id_revised given a
    · rfl
  | remove chosen =>
    rw [Deed.fate] at h
    split at h
    · cases h
    · rw [← Option.some.inj h]

/-- A record keeps its id. -/
theorem id_outlive (h : outlive ds a = some b) : StaticData.id b = StaticData.id a := by
  induction ds generalizing a with
  | nil => rw [← Option.some.inj h]
  | cons d ds ih =>
    obtain ⟨c, hfate, hrest⟩ := Option.bind_eq_some_iff.mp h
    exact (ih hrest).trans (id_fate hfate)

theorem textOf_fate {d : Deed s.Data} (h : d.fate a = some b) {column text : String}
    (ha : textOf a column = some text) :
    textOf b column = some ((d.text? a column).getD text) := by
  cases d with
  | add records =>
    rw [← Option.some.inj h]
    exact ha
  | revise chosen given =>
    rw [← Option.some.inj h, Deed.text?]
    split
    · exact textOf_revised given a ha
    · exact ha
  | remove chosen =>
    rw [Deed.fate] at h
    split at h
    · cases h
    · rw [← Option.some.inj h]
      exact ha

/-- A column holds the last text that it was given since the record was added, or else the text with which
the record was added. -/
theorem textOf_outlive (h : outlive ds a = some b) {column text : String}
    (ha : textOf a column = some text) :
    textOf b column = some ((textsGiven column ds a).getLastD text) := by
  induction ds generalizing a text with
  | nil =>
    rw [← Option.some.inj h]
    exact ha
  | cons d ds ih =>
    obtain ⟨c, hfate, hrest⟩ := Option.bind_eq_some_iff.mp h
    rw [ih hrest (textOf_fate hfate ha), textsGiven, hfate]
    dsimp only
    -- A text that is given now stays only until another one is given.
    cases d.text? a column with
    | none => rfl
    | some now =>
      cases textsGiven column ds c with
      | nil => rfl
      | cons later texts => simp [List.getLast?_cons]

end Kinds

end Payroll.Static
