import Mathlib
import Payroll.Proofs.Placeholder
import Payroll.Proofs.Refined
/-!
# The text of a query that succeeds

What a refinement asks of a database and the text that asks for it come from the same joins, conditions and
sort keys. Where the database gives anything, the text closes every name that it opens and has a place for
each of its values: no name that can be made out has a quote in it, and a condition that is a text of its own
is only read if it leaves no name open and has no place.

## Key results

- `Cell.unquoted_of_find`: a name that can be made out has no quote in it
- `Database.isComplete_of_query`: the clauses of a query that succeeds ask for the values that they have
- `Database.lineUp_of_query`: what its text says with its values
-/

namespace Payroll

open Sql (ColumnRef Comparison Condition IsPlain LineUp Refinement SortKey Value columnList
  places? places?_of_read? qualified quoted read?_append_plain_append read?_columnList read?_place read?_plain
  read?_qualified)

/-! ## Names without quotes -/

/-- There is no quote in the name. -/
def Unquoted (name : String) : Prop :=
  '"' ∉ name.toList

instance (name : String) : Decidable (Unquoted name) :=
  inferInstanceAs (Decidable ('"' ∉ name.toList))

/-- Only a quote is a quote in lower case. -/
theorem toLower_eq_quote_iff {c : Char} : c.toLower = '"' ↔ c = '"' := by
  constructor
  · intro h
    -- What becomes a quote is no letter, so it stays as it is.
    have halpha : c.isAlpha = false := by
      rw [← Char.isAlpha_toLower_eq_isAlpha, h]
      rfl
    rw [Char.isAlpha, Bool.or_eq_false_iff] at halpha
    rwa [Char.toLower_eq_of_not_isUpper (Bool.not_eq_true _ ▸ halpha.1)] at h
  · rintro rfl
    rfl

/-- A name is without quotes if one is that is the same. -/
theorem Unquoted.of_sameName {a b : String} (hb : Unquoted b) (h : sameName a b = true) : Unquoted a := by
  intro hmem
  have hlower : '"' ∈ a.toList.map Char.toLower := List.mem_map.mpr ⟨'"', hmem, rfl⟩
  rw [beq_iff_eq.mp h] at hlower
  obtain ⟨c, hc, hquote⟩ := List.mem_map.mp hlower
  rw [toLower_eq_quote_iff.mp hquote] at hc
  exact hb hc

theorem sameName_comm (a b : String) : sameName a b = sameName b a := by
  rw [sameName, sameName, Bool.eq_iff_iff, beq_iff_eq, beq_iff_eq, eq_comm]

theorem doubleQuotes_eq_self {cs : List Char} (h : '"' ∉ cs) : Sql.doubleQuotes cs = cs := by
  induction cs with
  | nil => rfl
  | cons c cs ih =>
    rw [List.mem_cons, not_or] at h
    rw [Sql.doubleQuotes, if_neg (Ne.symm h.1), ih h.2]

/-- In quotes, a name without quotes stands as it is. -/
theorem quoted_eq {name : String} (h : Unquoted name) : quoted name = "\"" ++ name ++ "\"" := by
  -- Between the two quotes there is nothing that has to be doubled.
  apply String.toList_injective
  rw [quoted, String.toList_ofList, doubleQuotes_eq_self h, String.toList_append, String.toList_append]
  rfl

/-- The names of a heading are without quotes. -/
structure Heading.IsUnquoted (h : Heading) : Prop where
  tables : ∀ table ∈ h.tables, Unquoted table
  column : Unquoted h.column.name

namespace Heading

theorem isUnquoted_named {name : String} (hname : Unquoted name) {columns : List Column}
    (hcolumns : ∀ c ∈ columns, Unquoted c.name) : ∀ h ∈ named name columns, h.IsUnquoted := by
  intro h hh
  obtain ⟨c, hc, rfl⟩ := List.mem_map.mp hh
  exact ⟨fun table htable => by rwa [List.mem_singleton.mp htable], hcolumns c hc⟩

theorem isUnquoted_place {names : List String} (hnames : ∀ name ∈ names, Unquoted name) :
    (place names).IsUnquoted :=
  ⟨hnames, (by decide : Unquoted "rowid")⟩

/-- The name of a table that a heading goes by is without quotes. -/
theorem IsUnquoted.of_ofTable {h : Heading} (hh : h.IsUnquoted) {table : String}
    (htable : h.ofTable table = true) : Unquoted table := by
  obtain ⟨table', hmem, hsame⟩ := List.any_eq_true.mp htable
  exact (hh.tables table' hmem).of_sameName hsame

end Heading

/-- A name that can be made out has no quote in it. -/
theorem Cell.unquoted_of_find {headings : List Heading} (hh : ∀ h ∈ headings, h.IsUnquoted)
    {ref : ColumnRef} {cell : Cell} (h : Cell.find headings ref = .ok cell) :
    Unquoted ref.table ∧ Unquoted ref.column := by
  have hamong {p : Heading → Bool} (hp : among headings p ≠ []) : ∃ h ∈ headings, p h = true := by
    obtain ⟨cell, hcell⟩ := List.exists_mem_of_ne_nil _ hp
    obtain ⟨⟨h, place⟩, hh, -⟩ := List.mem_map.mp hcell
    obtain ⟨hmem, hpicked⟩ := List.mem_filter.mp hh
    exact ⟨h, List.fst_mem_of_mem_zipIdx hmem, hpicked⟩
  by_cases hnamed : among headings (·.isNamed ref) = []
  · -- The name is one of the place of a row.
    have hplace : among headings (·.isPlace ref) ≠ [] := by
      intro hnil
      simp only [find, hnamed, hnil] at h
      exact nomatch h
    obtain ⟨heading, hmem, hplace⟩ := hamong hplace
    simp only [Heading.isPlace, Bool.and_eq_true] at hplace
    obtain ⟨name, hname, hsame⟩ := List.any_eq_true.mp hplace.2
    have hnames : ∀ name ∈ placeNames, Unquoted name := by decide
    exact ⟨(hh _ hmem).of_ofTable hplace.1.2, (hnames name hname).of_sameName hsame⟩
  · obtain ⟨heading, hmem, hnamed⟩ := hamong hnamed
    simp only [Heading.isNamed, Bool.and_eq_true] at hnamed
    rw [sameName_comm] at hnamed
    exact ⟨(hh _ hmem).of_ofTable hnamed.1.2, (hh _ hmem).column.of_sameName hnamed.2⟩

/-! ## Tables -/

namespace Database

variable {k : VersionKind} {d : Database} {r : Refinement}

theorem unquoted_versionColumns (k : VersionKind) : ∀ c ∈ versionColumns k.Data, Unquoted c.name := by
  cases k <;> decide

theorem unquoted_staticColumns (s : StaticKind) : ∀ c ∈ staticColumns s.Data, Unquoted c.name := by
  cases s <;> decide

theorem isUnquoted_latestHeadings (k : VersionKind) : ∀ h ∈ latestHeadings k.Data, h.IsUnquoted := by
  refine Heading.isUnquoted_named (by cases k <;> decide) fun c hc => ?_
  rcases List.mem_cons.mp hc with rfl | hc
  · decide
  · exact unquoted_versionColumns k c hc

variable {name : String} {relation : Relation}

/-- A table with a name without quotes has its place before its columns. -/
theorem isUnquoted_table (hname : Unquoted name) {columns : List Column}
    (hcolumns : ∀ c ∈ columns, Unquoted c.name) :
    ∀ h ∈ Heading.place [name] :: Heading.named name columns, h.IsUnquoted :=
  List.forall_mem_cons.mpr ⟨Heading.isUnquoted_place (by simpa using hname),
    Heading.isUnquoted_named hname hcolumns⟩

theorem isUnquoted_versionRelation (k : VersionKind) (hname : Unquoted name)
    (hrelation : d.versionRelation k.Data name = .ok relation) : ∀ h ∈ relation.headings, h.IsUnquoted := by
  rw [versionRelation] at hrelation
  split at hrelation
  · rw [← Except.ok.inj hrelation]
    exact isUnquoted_table hname (unquoted_versionColumns k)
  · cases hrelation

theorem isUnquoted_staticRelation (s : StaticKind) (hname : Unquoted name)
    (hrelation : d.staticRelation s.Data name = .ok relation) : ∀ h ∈ relation.headings, h.IsUnquoted := by
  rw [staticRelation] at hrelation
  split at hrelation
  · rw [← Except.ok.inj hrelation]
    exact isUnquoted_table hname (unquoted_staticColumns s)
  · cases hrelation

theorem isUnquoted_logRelation (hname : Unquoted name) (hrelation : d.logRelation name = .ok relation) :
    ∀ h ∈ relation.headings, h.IsUnquoted := by
  rw [logRelation] at hrelation
  split at hrelation
  · cases hrelation
  · rw [← Except.ok.inj hrelation]
    exact isUnquoted_table hname (by decide)
  · rw [← Except.ok.inj hrelation]
    exact isUnquoted_table hname (by decide)

theorem isUnquoted_catalogRelation {names : List String} (hnames : ∀ name ∈ names, Unquoted name)
    (entries : List CatalogEntry) : ∀ h ∈ (catalogRelation names entries).headings, h.IsUnquoted := by
  refine List.forall_mem_cons.mpr ⟨Heading.isUnquoted_place hnames, fun h hh => ?_⟩
  obtain ⟨c, hc, rfl⟩ := List.mem_map.mp hh
  have hcolumns : ∀ c ∈ (⟨"type", .text⟩ :: ⟨"name", .text⟩ :: ⟨"tbl_name", .text⟩ ::
      ⟨"rootpage", .integer⟩ :: [⟨"sql", .text⟩] : List Column), Unquoted c.name := by decide
  exact ⟨hnames, hcolumns c hc⟩

/-- The headings of a table that is joined are without quotes, also where its name is written in letters of
another case. -/
theorem isUnquoted_relation (hrelation : d.relation name = .ok relation) :
    ∀ h ∈ relation.headings, h.IsUnquoted := by
  -- The name is that of a table of the ledger, of the log or of a catalog, each of them without quotes.
  rw [Database.relation] at hrelation
  cases hfound : Table.ofName? name with
  | some t =>
    have hname : Unquoted name := by
      have hsame := List.find?_some hfound
      rw [sameName_comm] at hsame
      exact Unquoted.of_sameName (by cases t <;> decide) hsame
    rw [hfound] at hrelation
    cases t with
    | company => exact isUnquoted_staticRelation .company hname hrelation
    | contractor => exact isUnquoted_staticRelation .contractor hname hrelation
    | job => exact isUnquoted_versionRelation .job hname hrelation
    | timelog => exact isUnquoted_versionRelation .timelog hname hrelation
    | payment => exact isUnquoted_versionRelation .payment hname hrelation
  | none =>
    simp only [hfound] at hrelation
    split at hrelation
    · rename_i hlog
      exact isUnquoted_logRelation (Unquoted.of_sameName (by decide) hlog) hrelation
    · split at hrelation
      · rw [← Except.ok.inj hrelation]
        exact isUnquoted_catalogRelation (by decide) _
      · split at hrelation
        · rw [← Except.ok.inj hrelation]
          exact isUnquoted_catalogRelation (by decide) _
        · cases hrelation

/-! ## Clauses of a query that succeeds -/

/-- A reference without quotes is the column's name after its table's. -/
theorem text_eq_qualified {ref : ColumnRef} (h : Unquoted ref.table ∧ Unquoted ref.column) :
    ref.text = qualified ref.table ref.column := by
  rw [ColumnRef.text, qualified, quoted_eq h.1, quoted_eq h.2]
  simp only [String.append_assoc]
  rfl

/-- A column that is compared has a place for the value behind it. -/
theorem places?_compare {ref : ColumnRef} (h : Unquoted ref.table ∧ Unquoted ref.column)
    (comparison : Comparison) (value : Value) :
    places? [(Condition.compare ref comparison value).text] = some 1 := by
  have hglue : IsPlain (" " ++ comparison.text ++ " ") := by
    cases comparison <;> decide
  have hne : " " ++ comparison.text ++ " " ≠ "" := by
    cases comparison <;> decide
  have hread := read?_append_plain_append (read?_qualified ref.table ref.column) hglue hne (read?_place value)
  have htext : (Condition.compare ref comparison value).text =
      qualified ref.table ref.column ++ (" " ++ comparison.text ++ " " ++ "?") := by
    rw [Condition.text, text_eq_qualified h]
    simp only [String.append_assoc]
    rfl
  rw [htext]
  exact places?_of_read? hread

/-- Columns that are equal have no place. -/
theorem places?_join {left right : ColumnRef} (hleft : Unquoted left.table ∧ Unquoted left.column)
    (hright : Unquoted right.table ∧ Unquoted right.column) :
    places? [left.text ++ " = " ++ right.text] = some 0 := by
  have hread := read?_append_plain_append (read?_qualified (β := Value) left.table left.column)
    (show IsPlain " = " by decide) (by decide) (read?_qualified right.table right.column)
  rw [text_eq_qualified hleft, text_eq_qualified hright, String.append_assoc]
  exact places?_of_read? hread

/-- A column to sort by has no place. -/
theorem places?_key {key : SortKey} (h : Unquoted key.column.table ∧ Unquoted key.column.column) :
    places? [key.text] = some 0 := by
  have hread := read?_qualified (β := Value) key.column.table key.column.column
  rw [SortKey.text, text_eq_qualified h]
  cases key.descending with
  | false =>
    rw [if_neg Bool.false_ne_true, String.append_empty]
    exact places?_of_read? hread
  | true =>
    rw [if_pos rfl]
    exact places?_of_read? (Sql.read?_append hread (read?_plain (show IsPlain " DESC" by decide)) (by decide))

/-- Only a few texts are read as conditions, and none of them has a place. -/
theorem places?_raw {headings : List Heading} {text : String} {values : List Value} {c : Clause}
    (h : clause headings (.raw text values) = .ok c) :
    Condition.places (.raw text values) = 0 ∧ places? [text] = some 0 := by
  rw [clause.eq_def] at h
  split at h
  · rename_i heq
    cases heq
  · rename_i heq
    obtain ⟨rfl, -⟩ := Condition.raw.inj heq
    exact ⟨rfl, by decide⟩
  · rename_i heq
    obtain ⟨rfl, -⟩ := Condition.raw.inj heq
    exact ⟨rfl, by decide⟩
  · rename_i heq
    obtain ⟨rfl, -⟩ := Condition.raw.inj heq
    exact ⟨rfl, by decide⟩
  · cases h

/-- A condition that is read is a text with its own number of places. -/
theorem places?_condition {headings : List Heading} (hh : ∀ h ∈ headings, h.IsUnquoted) {condition : Condition}
    {c : Clause} (h : clause headings condition = .ok c) :
    places? [condition.text] = some condition.places := by
  cases condition with
  | compare column comparison value =>
    obtain ⟨cell, hcell, -⟩ := bind_eq_ok_iff.mp (clause.eq_def headings _ ▸ h)
    exact places?_compare (Cell.unquoted_of_find hh hcell) comparison value
  | raw text values =>
    obtain ⟨hnone, htext⟩ := places?_raw h
    rw [hnone]
    exact htext

/-- A condition that is read has as many values as places, or more. -/
theorem places_le_length_params {headings : List Heading} {condition : Condition} {c : Clause}
    (h : clause headings condition = .ok c) : condition.places ≤ condition.params.length := by
  cases condition with
  | compare column comparison value => exact Nat.le_refl 1
  | raw text values =>
    rw [(places?_raw h).1]
    exact Nat.zero_le _

/-- Where there are as many values as places in all and no condition has too few, each has its own. -/
theorem places_eq_length_params {conditions : List Condition}
    (hle : ∀ c ∈ conditions, c.places ≤ c.params.length)
    (hcount : (conditions.flatMap Condition.params).length =
      conditions.foldl (fun n c => n + c.places) 0) :
    ∀ c ∈ conditions, c.places = c.params.length := by
  have hsum : (conditions.map fun c => c.params.length).sum = (conditions.map Condition.places).sum := by
    rw [← List.length_flatMap, hcount, List.sum_eq_foldl, List.foldl_map]
  -- With too many values for one of them there are too many in all.
  by_contra hne
  push Not at hne
  obtain ⟨c, hc, hne⟩ := hne
  have hlt := List.sum_lt_sum Condition.places (fun c => c.params.length) hle
    ⟨c, hc, Nat.lt_of_le_of_ne (hle c hc) hne⟩
  exact Nat.ne_of_gt hlt hsum

/-- The clauses of a query whose names can be made out, and which has as many values as places, ask for the
values that they have. -/
theorem isComplete_of_plan {headings : List Heading} (hh : ∀ h ∈ headings, h.IsUnquoted) {p : Plan}
    (hp : plan k.Data headings r = .ok p)
    (hcount : r.params.length = r.conditions.foldl (fun n c => n + c.places) 0) :
    r.clauses.IsComplete := by
  -- A plan is made by making out all names, so none of them is left that cannot be made out.
  obtain ⟨-, -, hp⟩ := bind_eq_ok_iff.mp hp
  obtain ⟨clauses, hclauses, hp⟩ := bind_eq_ok_iff.mp hp
  obtain ⟨joins, hjoins, hp⟩ := bind_eq_ok_iff.mp hp
  obtain ⟨keys, hkeys, -⟩ := bind_eq_ok_iff.mp hp
  refine ⟨fun on hon => ?_, fun statement hstatement => ?_, fun text htext => ?_⟩
  · obtain ⟨j, hj, rfl⟩ := List.mem_map.mp hon
    obtain ⟨test, htest⟩ := exists_mapM_eq_ok_iff.mp ⟨joins, hjoins⟩ j hj
    obtain ⟨left, hleft, htest⟩ := bind_eq_ok_iff.mp htest
    obtain ⟨right, hright, -⟩ := bind_eq_ok_iff.mp htest
    exact places?_join (Cell.unquoted_of_find hh hleft) (Cell.unquoted_of_find hh hright)
  · obtain ⟨condition, hcondition, rfl⟩ := List.mem_map.mp hstatement
    have hread := exists_mapM_eq_ok_iff.mp ⟨clauses, hclauses⟩
    have hle : ∀ c ∈ r.conditions, c.places ≤ c.params.length := fun c hc =>
      places_le_length_params (hread c hc).choose_spec
    rw [← places_eq_length_params hle hcount condition hcondition]
    exact places?_condition hh (hread condition hcondition).choose_spec
  · obtain ⟨key, hkey, rfl⟩ := List.mem_map.mp htext
    obtain ⟨sorted, hsorted⟩ := exists_mapM_eq_ok_iff.mp ⟨keys, hkeys⟩ key hkey
    obtain ⟨cell, hcell, -⟩ := bind_eq_ok_iff.mp hsorted
    exact places?_key (Cell.unquoted_of_find hh hcell)

/-- A query that succeeds closes every name that it opens, and has a place for each of its values. -/
theorem isComplete_of_query {vs : List (Version k.Data)} (h : d.query k.Data r = .ok vs) :
    r.clauses.IsComplete := by
  obtain ⟨-, rows, joined, p, -, hjoined, hp, hcount, -, -⟩ := query_eq_ok_iff.mp h
  refine isComplete_of_plan (fun h hh => ?_) hp hcount
  rcases List.mem_append.mp hh with hh | hh
  · exact isUnquoted_latestHeadings k h hh
  · obtain ⟨relation, hrelation, hh⟩ := List.mem_flatMap.mp hh
    obtain ⟨j, -, hj⟩ := exists_of_mem_mapM_ok hjoined hrelation
    exact isUnquoted_relation hj h hh

/-- The text of a query that succeeds has a place for each of its values, and with the values in their
places it says what the clauses say. -/
theorem lineUp_of_query {vs : List (Version k.Data)} (h : d.query k.Data r = .ok vs) :
    let table := VersionedData.table k.Data
    let select := columnList table (selected k.Data)
    LineUp [r.render table select] r.params (r.clauses.queryParts table select) := by
  intro table select
  have hselect : places? [select] = some 0 := places?_of_read? (read?_columnList (β := Value) table _)
  rw [← Refinement.values_query_clauses r table select]
  exact Sql.lineUp_of_read? (Sql.Clauses.read?_query (isComplete_of_query h) hselect)

end Database

end Payroll
