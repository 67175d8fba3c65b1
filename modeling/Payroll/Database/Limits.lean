import Payroll.Database.Fault
/-!
How large a statement may be. The bounds are taken over from SQLite as it is built by default; all else
follows from them and from how deep the parts of a statement are. While the conditions of a statement are
read, its places for values are counted, and so is how deep the conditions nest: words between them join to
the left, so a list of terms is about as deep as it is long. Main statements: terms are read unless they are
too deep, and then they are refused for that.
-/

namespace Payroll

open Sql (Changes Condition Filter)

namespace Database

/-- The most values that one statement may bind. -/
def maxParameters : Nat := 32766

/-- The deepest that conditions may nest. -/
def maxDepth : Nat := 1000

/-- The most terms that may stand together, since terms are nested. -/
def maxTerms : Nat := 998

/-- The most changes that a statement may make to a row, and the most keys that it may sort by. -/
def maxColumns : Nat := 2000

/-- The most tables that a query may name. -/
def maxSources : Nat := 200

/-- The most tables that a query can join. -/
def maxTables : Nat := 64

end Database

open Database (maxColumns maxDepth maxParameters maxTerms)

/-- What a condition is to the reader of a statement: a test of some depth with places for some values, or
an alternative to what stands before it. -/
inductive Part where
  | test (places depth : Nat)
  | alternative
deriving DecidableEq

/-- A column that is compared, with as many values as there are places. -/
def Part.term (places : Nat) : Part := .test places 3

/-- The depth of conditions with a word between them, zero for no condition. -/
def joinedDepth (a b : Nat) : Nat :=
  if a = 0 then b else if b = 0 then a else max a b + 1

/-- Refuses what nests too deep. -/
def nested (depth : Nat) : Except DatabaseFault Nat :=
  if maxDepth < depth then .error .tooDeep else .ok depth

/-- What has been read of the conditions of a statement: how many places there are so far, how deep the
alternatives are that are complete, and how deep the one that is being read. -/
structure Extent where
  places : Nat
  complete : Nat
  current : Nat

namespace Extent

/-- Reads one more condition. -/
def read (e : Extent) : Part → Except DatabaseFault Extent
  | .test places depth => do
    if maxParameters < e.places + places then throw .tooManyParameters
    return { e with places := e.places + places, current := ← nested (joinedDepth e.current depth) }
  | .alternative => do
    -- The text of an alternative ends the one before it with a test, and is a test itself.
    let last ← nested (joinedDepth e.current 1)
    return { e with complete := ← nested (joinedDepth e.complete last), current := 1 }

/-- How deep all conditions are. -/
def depth (e : Extent) : Except DatabaseFault Nat :=
  nested (joinedDepth e.complete e.current)

end Extent

/-- Reads conditions in front of which there are places already. -/
def readParts (places : Nat) (parts : List Part) : Except DatabaseFault Extent :=
  parts.foldlM Extent.read ⟨places, 0, 0⟩

/-- How deep conditions are in front of which there are places already. -/
def depthAfter (places : Nat) (parts : List Part) : Except DatabaseFault Nat := do
  (← readParts places parts).depth

/-! ## Terms -/

/-- Each of the parts compares a column with one value at most. -/
def AreTerms (parts : List Part) : Prop :=
  ∀ p ∈ parts, ∃ places ≤ 1, p = .term places

/-- How deep a number of terms is. -/
def termsDepth (n : Nat) : Nat :=
  if n = 0 then 0 else n + 2

/-- Only more terms than there may be are too deep. -/
theorem maxDepth_lt_termsDepth_iff {n : Nat} : maxDepth < termsDepth n ↔ maxTerms < n := by
  rw [termsDepth, maxDepth, maxTerms]
  split <;> omega

/-- One more term is one deeper. -/
theorem joinedDepth_termsDepth (n : Nat) : joinedDepth (termsDepth n) 3 = termsDepth (n + 1) := by
  cases n with
  | zero => rfl
  | succ n =>
    have hmax : max (n + 1 + 2) 3 = n + 1 + 2 := Nat.max_eq_left (by omega)
    rw [termsDepth, termsDepth, joinedDepth, if_neg (Nat.succ_ne_zero _), if_neg (by omega),
      if_neg (by decide), hmax, if_neg (Nat.succ_ne_zero _)]

/-- Terms are read until they are too deep. -/
theorem foldlM_read_terms {parts : List Part} (h : AreTerms parts) {places n : Nat}
    (hn : termsDepth n ≤ maxDepth) (hplaces : places ≤ maxColumns + n) :
    if maxDepth < termsDepth (n + parts.length) then
      parts.foldlM Extent.read ⟨places, 0, termsDepth n⟩ = .error .tooDeep
    else ∃ places', parts.foldlM Extent.read ⟨places, 0, termsDepth n⟩ =
      .ok ⟨places', 0, termsDepth (n + parts.length)⟩ := by
  induction parts generalizing places n with
  | nil =>
    rw [List.length_nil, Nat.add_zero, if_neg (Nat.not_lt.mpr hn)]
    exact ⟨places, rfl⟩
  | cons p parts ih =>
    obtain ⟨⟨more, hmore, rfl⟩, hparts⟩ := List.forall_mem_cons.mp h
    have hlength : n + 1 + parts.length = n + (Part.term more :: parts).length := by
      rw [List.length_cons]
      omega
    -- As many places as terms are far from too many.
    have hfew : ¬maxParameters < places + more := by
      rw [termsDepth] at hn
      simp only [maxParameters, maxColumns, maxDepth] at hn hplaces ⊢
      split at hn <;> omega
    have hread : Extent.read ⟨places, 0, termsDepth n⟩ (.term more) =
        (nested (termsDepth (n + 1))).map fun current => ⟨places + more, 0, current⟩ := by
      rw [← joinedDepth_termsDepth, Part.term, Extent.read, if_neg hfew]
      rfl
    rw [List.foldlM_cons, hread, nested, ← hlength]
    by_cases hdeep : maxDepth < termsDepth (n + 1)
    · have hmono : termsDepth (n + 1) ≤ termsDepth (n + 1 + parts.length) := by
        rw [termsDepth, termsDepth, if_neg (by omega), if_neg (by omega)]
        omega
      rw [if_pos hdeep, if_pos (Nat.lt_of_lt_of_le hdeep hmono)]
      rfl
    · rw [if_neg hdeep]
      exact ih hparts (Nat.not_lt.mp hdeep) (by omega)

/-- Terms are read unless there are more of them than there may be. -/
theorem depthAfter_terms {parts : List Part} (h : AreTerms parts) {places : Nat}
    (hplaces : places ≤ maxColumns) :
    depthAfter places parts =
      if maxTerms < parts.length then .error .tooDeep else .ok (termsDepth parts.length) := by
  have hread := foldlM_read_terms h (n := 0) (Nat.zero_le _) hplaces
  simp only [Nat.zero_add, maxDepth_lt_termsDepth_iff] at hread
  rw [depthAfter, readParts]
  split at hread
  · rename_i hlong
    have hread : parts.foldlM Extent.read ⟨places, 0, 0⟩ = .error .tooDeep := hread
    rw [hread, if_pos hlong]
    rfl
  · rename_i hshort
    obtain ⟨places', hread⟩ := hread
    have hread : parts.foldlM Extent.read ⟨places, 0, 0⟩ = .ok ⟨places', 0, termsDepth parts.length⟩ :=
      hread
    rw [hread, if_neg hshort]
    show nested (joinedDepth 0 (termsDepth parts.length)) = _
    rw [joinedDepth, if_pos rfl, nested, if_neg (mt maxDepth_lt_termsDepth_iff.mp hshort)]

/-! ## Filters, conditions and changes -/

/-- The terms of a filter. Null is asked for without a place. -/
def Sql.Filter.parts (f : Filter) : List Part :=
  f.terms.map fun (_, value) => .term (if value.isNull then 0 else 1)

theorem Sql.Filter.length_parts (f : Filter) : f.parts.length = f.terms.length :=
  List.length_map ..

theorem areTerms_parts (f : Filter) : AreTerms f.parts := by
  intro p hp
  obtain ⟨t, -, rfl⟩ := List.mem_map.mp hp
  exact ⟨_, by split <;> omega, rfl⟩

/-- A filter is read unless it has more terms than there may be. -/
theorem depthAfter_filter {places : Nat} (hplaces : places ≤ maxColumns) (f : Filter) :
    depthAfter places f.parts =
      if maxTerms < f.terms.length then .error .tooDeep else .ok (termsDepth f.terms.length) := by
  rw [depthAfter_terms (areTerms_parts f) hplaces, Sql.Filter.length_parts]

/-- With one more term in front of it, a filter may have one term less. -/
theorem depthAfter_term_filter (f : Filter) :
    depthAfter 0 (.term 0 :: f.parts) =
      if maxTerms ≤ f.terms.length then .error .tooDeep else .ok (termsDepth (f.terms.length + 1)) := by
  have hterms : AreTerms (.term 0 :: f.parts) :=
    List.forall_mem_cons.mpr ⟨⟨0, Nat.zero_le _, rfl⟩, areTerms_parts f⟩
  rw [depthAfter_terms hterms (Nat.zero_le _), List.length_cons, Sql.Filter.length_parts]
  simp only [Nat.lt_succ_iff]

/-- The number of values that a condition's text has places for. -/
def Sql.Condition.places : Condition → Nat
  | .compare _ _ _ => 1
  | .raw text _ => text.toList.count '?'

/-- What a condition is to the reader of a statement. -/
def Sql.Condition.part : Condition → Part
  | .compare _ _ _ => .term 1
  | .raw "1) OR (1" _ => .alternative
  | .raw text values => .test (Condition.places (.raw text values)) 2

/-- Refuses to change rows by a statement that is too large. -/
def checkUpdate (c : Changes) (f : Filter) : Except DatabaseFault Unit := do
  if maxParameters < c.terms.length then throw .tooManyParameters
  if maxColumns < c.terms.length then
    -- The changes are counted at the end of the statement, in the same step in which the last term is.
    let _ ← readParts c.terms.length f.parts.dropLast
    throw .tooManyAssignments
  let _ ← depthAfter c.terms.length f.parts

/-- With no more changes than there may be, a statement is too large if the filter is. -/
theorem checkUpdate_eq {c : Changes} (h : c.terms.length ≤ maxColumns) (f : Filter) :
    checkUpdate c f = if maxTerms < f.terms.length then .error .tooDeep else .ok () := by
  have hfew : ¬maxParameters < c.terms.length := by
    simp only [maxParameters, maxColumns] at h ⊢
    omega
  rw [checkUpdate, if_neg hfew, if_neg (Nat.not_lt.mpr h), depthAfter_filter h]
  split <;> rfl

end Payroll
