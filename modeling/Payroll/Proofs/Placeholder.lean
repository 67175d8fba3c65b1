import Mathlib.Data.List.Forall2
import Payroll.Proofs.Kept
import Payroll.Proofs.Quoting
import Payroll.Sql.Refinement
import Payroll.Store.Static
/-!
# Placeholders and values

A statement is handed over as SQL text and a list of values, and the first value goes to the first
placeholder of the text. The two are built apart from each other, each from the same terms, assignments,
rows and conditions. So they line up: with the values in their places, every assignment gives its column
its own value, every condition compares its column with its own, and every row has its own cells.

## Key results

- `isSome_fill_iff`: values can be put into their places if there are as many of each
- `read?_withWhere`: conditions take up their values after those of the statement before them
- `read?_update`, `read?_query`: what statements say with their values
- `placeholders_lineUp`: texts and values line up in all that is built, and what the values are does not show
  in a text
-/

namespace Payroll.Sql

variable {β ι : Type}

/-! ## Counting places -/

/-- Values can be put into their places if there are as many of each. -/
theorem isSome_fill_iff {ts : List (Token Unit)} {values : List β} :
    (fill ts values).isSome ↔ ts.countP Token.isPlace = values.length := by
  induction ts generalizing values with
  | nil => cases values <;> simp [fill]
  | cons t ts ih =>
    cases t with
    | place u => cases values <;> simp [fill, ih, List.countP_cons]
    | name text | char c => simp [fill, ih]

/-- The tokens of texts that are read one after the other, each for itself. -/
def tokensEach? : List String → Option (List (Token Unit))
  | [] => some []
  | text :: texts => (tokens? text).bind fun ts => (tokensEach? texts).map (ts ++ ·)

/-- The number of places for values in texts. -/
def places? (texts : List String) : Option Nat :=
  (tokensEach? texts).map (·.countP Token.isPlace)

/-- The texts have as many places as there are values, and this is what they say with the values in
them, the first value in the first place. -/
structure LineUp (texts : List String) (values : List β) (parts : List (Token β)) : Prop where
  count : places? texts = some values.length
  reading : (tokensEach? texts).bind (fill · values) = some parts

theorem lineUp_of_tokens {texts : List String} {values : List β} {parts : List (Token β)}
    {ts : List (Token Unit)} (hts : tokensEach? texts = some ts) (h : fill ts values = some parts) :
    LineUp texts values parts :=
  ⟨by simp [places?, hts, isSome_fill_iff.mp (Option.isSome_of_mem h)], by simp [hts, h]⟩

theorem tokensEach?_singleton (text : String) : tokensEach? [text] = tokens? text := by
  cases h : tokens? text <;> simp [tokensEach?, h]

theorem lineUp_of_read? {text : String} {values : List β} {parts : List (Token β)}
    (h : read? text values = some parts) : LineUp [text] values parts := by
  obtain ⟨ts, hts, hparts⟩ := read?_eq_some_iff.mp h
  exact lineUp_of_tokens (by rwa [tokensEach?_singleton]) hparts

/-- Texts line up with the values of all of them if each does with its own. -/
theorem lineUp_map {text : ι → String} {values : ι → List β} {parts : ι → List (Token β)} {xs : List ι}
    (h : ∀ x ∈ xs, read? (text x) (values x) = some (parts x)) :
    LineUp (xs.map text) (xs.flatMap values) (xs.flatMap parts) := by
  obtain ⟨ts, hts, hparts⟩ : ∃ ts, tokensEach? (xs.map text) = some ts ∧
      fill ts (xs.flatMap values) = some (xs.flatMap parts) := by
    -- The first text uses up its own values, and those of the others are left.
    induction xs with
    | nil => exact ⟨[], rfl, rfl⟩
    | cons x xs ih =>
      obtain ⟨hx, hxs⟩ := List.forall_mem_cons.mp h
      obtain ⟨ts, hts, hparts⟩ := ih hxs
      obtain ⟨us, hus, hus'⟩ := read?_eq_some_iff.mp hx
      exact ⟨us ++ ts, by simp [tokensEach?, hus, hts], fill_append hus' hparts⟩
  exact lineUp_of_tokens hts hparts

/-- What a text says with values in its places; nothing if they cannot be put there. -/
def said (text : String) (values : List β) : List (Token β) :=
  (read? text values).getD []

/-- A text with as many places as there are values says something. -/
theorem read?_of_places? {text : String} {values : List β} (h : places? [text] = some values.length) :
    read? text values = some (said text values) := by
  rw [places?, tokensEach?_singleton, Option.map_eq_some_iff] at h
  obtain ⟨ts, hts, hcount⟩ := h
  obtain ⟨parts, hparts⟩ := Option.isSome_iff_exists.mp (isSome_fill_iff.mpr hcount)
  have hread : read? text values = some parts := read?_eq_some_iff.mpr ⟨ts, hts, hparts⟩
  rw [said, hread, Option.getD_some]

theorem read?_of_places?_zero {text : String} (h : places? [text] = some 0) :
    read? text ([] : List β) = some (said text []) :=
  read?_of_places? h

/-! ## Filters and changes -/

/-- What is said by a term of a filter: its column has its value, or none. -/
def termParts (table : String) (t : String × Value) : List (Token Value) :=
  columnParts table t.1 ++ if t.2.isNull then plain " IS NULL" else plain " = " ++ [.place t.2]

/-- What is said by an assignment: its column gets its value. -/
def assignmentParts (t : String × Value) : List (Token Value) :=
  .name t.1 :: (plain " = " ++ [.place t.2])

/-- What is said by conditions behind a statement, all of which have to hold. -/
def whereParts (conditions : List (List (Token β))) : List (Token β) :=
  if conditions.isEmpty then [] else plain " WHERE " ++ (plain " AND ").intercalate conditions

namespace Filter

/-- The condition of a term. -/
def condition (table : String) (t : String × Value) : String :=
  if t.2.isNull then qualified table t.1 ++ " IS NULL" else qualified table t.1 ++ " = ?"

/-- The values that a term has for the placeholders. -/
def given (t : String × Value) : List Value :=
  if t.2.isNull then [] else [t.2]

theorem conditions_eq_map (f : Filter) (table : String) :
    f.conditions table = f.terms.map (condition table) := rfl

theorem params_eq_flatMap (f : Filter) : f.params = f.terms.flatMap given := by
  rw [params]
  induction f.terms with
  | nil => rfl
  | cons t terms ih =>
    rw [List.map_cons, List.flatMap_cons, ← ih]
    cases hnull : t.2.isNull <;> simp [given, hnull]

/-- A condition says what its term asks for. A null takes up no value. -/
theorem read?_condition (table : String) (t : String × Value) :
    read? (condition table t) (given t) = some (termParts table t) := by
  have hcolumn := read?_qualified (β := Value) table t.1
  cases hnull : t.2.isNull with
  | true =>
    have := read?_append hcolumn (read?_plain (show IsPlain " IS NULL" by decide)) (by decide)
    simpa [condition, given, termParts, hnull] using this
  | false =>
    have := read?_append_plain_append hcolumn (show IsPlain " = " by decide) (by decide) (read?_place t.2)
    simpa [condition, given, termParts, hnull] using this

end Filter

theorem read?_assignment (t : String × Value) :
    read? (quoted t.1 ++ " = ?") [t.2] = some (assignmentParts t) := by
  have := read?_append_plain_append (read?_quoted t.1) (show IsPlain " = " by decide) (by decide)
    (read?_place t.2)
  simpa [assignmentParts] using this

/-- Conditions behind a statement take up their values after those of the statement. -/
theorem read?_withWhere {statement : String} {vs : List β} {ps : List (Token β)}
    (hstatement : read? statement vs = some ps) {text : ι → String} {values : ι → List β}
    {parts : ι → List (Token β)} {xs : List ι} (h : ∀ x ∈ xs, read? (text x) (values x) = some (parts x)) :
    read? (withWhere statement (xs.map text)) (vs ++ xs.flatMap values) =
      some (ps ++ whereParts (xs.map parts)) := by
  cases xs with
  | nil => simpa [withWhere, whereParts] using hstatement
  | cons x xs =>
    have hconditions := read?_intercalate (show IsPlain " AND " by decide) (by decide) h
    have := read?_append_plain_append hstatement (show IsPlain " WHERE " by decide) (by decide) hconditions
    simpa [withWhere, whereParts, String.append_assoc] using this

namespace Statement

/-- What is said by a statement that gives columns new values. -/
def updateParts (table : String) (c : Changes) (f : Filter) : List (Token Value) :=
  plain "UPDATE " ++ (.name table :: (plain " SET " ++
    ((plain ", ").intercalate (c.terms.map assignmentParts) ++
      whereParts (f.terms.map (termParts table)))))

/-- The values of the assignments are taken up before those of the conditions. -/
theorem read?_update (table : String) (c : Changes) (f : Filter) :
    read? (update table c f).text (update table c f).values = some (updateParts table c f) := by
  have hassignments := read?_intercalate (show IsPlain ", " by decide) (by decide)
    fun t (_ : t ∈ c.terms) => read?_assignment t
  have hstatement := read?_plain_append (show IsPlain "UPDATE " by decide) <|
    read?_append_plain_append (read?_quoted table) (show IsPlain " SET " by decide) (by decide) hassignments
  have := read?_withWhere hstatement fun t (_ : t ∈ f.terms) => Filter.read?_condition table t
  rw [← Filter.conditions_eq_map, ← Filter.params_eq_flatMap] at this
  simpa [update, updateParts, Changes.assignments, Changes.params, String.append_assoc,
    List.map_eq_flatMap] using this

end Statement

/-! ## Queries -/

/-- What is written for a number is plain. -/
theorem isPlain_toString (n : Nat) : IsPlain (toString n) := by
  have hdigit : ∀ c ∈ (toString n).toList, c.isDigit = true := by
    intro c hc
    rw [Nat.toString_eq_ofList_toDigits, String.toList_ofList] at hc
    exact Nat.isDigit_of_mem_toDigits (by decide) (by decide) hc
  exact ⟨fun h => absurd (hdigit _ h) (by decide), fun h => absurd (hdigit _ h) (by decide)⟩

/-- Pieces that all start with something else than a quote are read one after the other. -/
theorem read?_join {text : ι → String} {parts : ι → List (Token β)} {xs : List ι}
    (h : ∀ x ∈ xs, read? (text x) ([] : List β) = some (parts x))
    (hstart : ∀ x ∈ xs, ∃ c cs, (text x).toList = c :: cs ∧ c ≠ '"') :
    read? (String.join (xs.map text)) ([] : List β) = some (xs.flatMap parts) ∧
      (String.join (xs.map text)).toList.head? ≠ some '"' := by
  induction xs with
  | nil => exact ⟨read?_empty, by simp⟩
  | cons x xs ih =>
    obtain ⟨hx, hxs⟩ := List.forall_mem_cons.mp h
    obtain ⟨⟨c, cs, hcs, hc⟩, hstarts⟩ := List.forall_mem_cons.mp hstart
    obtain ⟨hread, hhead⟩ := ih hxs hstarts
    exact ⟨by simpa using read?_append hx hread hhead, by simpa [hcs] using hc⟩

namespace Clauses

/-- The clauses ask for the values that they have: a condition has as many placeholders as values, and no
other text has any. Each text closes the names that it opens. -/
structure IsComplete (c : Clauses) : Prop where
  joins : ∀ j ∈ c.joins, places? [j.2] = some 0
  conditions : ∀ k ∈ c.conditions, places? [k.text] = some k.values.length
  order : ∀ key ∈ c.order, places? [key] = some 0

/-- What is said by the table that is read, of which only the latest rows are there. -/
def sourceParts (table select : String) : List (Token Value) :=
  plain "SELECT " ++ (said select [] ++ (plain " FROM (SELECT rowid AS " ++
    (.name Refinement.placeColumn :: (plain ", * FROM " ++ (.name table :: (plain " WHERE " ++
      (.name "is_latest" :: (plain " = 1) AS " ++ [.name table]))))))))

/-- What is said by a table that is joined. -/
def joinParts (j : String × String) : List (Token Value) :=
  plain " INNER JOIN " ++ (.name j.1 :: (plain " ON " ++ said j.2 []))

/-- What is said by a condition, with its own values. -/
def conditionParts (k : Statement) : List (Token Value) :=
  plain "(" ++ (said k.text k.values ++ plain ")")

/-- What is said by the order of the rows. -/
def orderParts (c : Clauses) (table : String) : List (Token Value) :=
  (plain ", ").intercalate <|
    if c.order.isEmpty then [columnParts table Refinement.placeColumn] else c.order.map fun key => said key []

/-- What is said by the limit. -/
def limitParts (c : Clauses) : List (Token Value) :=
  match c.limit with
  | some n => plain (" LIMIT " ++ toString n)
  | none => []

/-- What is said by the whole query. -/
def queryParts (c : Clauses) (table select : String) : List (Token Value) :=
  sourceParts table select ++ c.joins.flatMap joinParts ++ whereParts (c.conditions.map conditionParts) ++
    (plain " ORDER BY " ++ c.orderParts table) ++ c.limitParts

theorem read?_source (table : String) {select : String} (h : places? [select] = some 0) :
    read? ("SELECT " ++ select ++ " FROM (SELECT rowid AS " ++ quoted Refinement.placeColumn ++
      ", * FROM " ++ quoted table ++ " WHERE " ++ quoted "is_latest" ++ " = 1) AS " ++ quoted table) [] =
      some (sourceParts table select) := by
  have hselect := read?_of_places?_zero (β := Value) h
  have := read?_plain_append (show IsPlain "SELECT " by decide) <|
    read?_append_plain_append hselect (show IsPlain " FROM (SELECT rowid AS " by decide) (by decide) <|
    read?_append_plain_append (read?_quoted Refinement.placeColumn) (show IsPlain ", * FROM " by decide)
      (by decide) <|
    read?_append_plain_append (read?_quoted table) (show IsPlain " WHERE " by decide) (by decide) <|
    read?_append_plain_append (read?_quoted "is_latest") (show IsPlain " = 1) AS " by decide) (by decide) <|
    read?_quoted table
  simpa [sourceParts, String.append_assoc] using this

theorem read?_joins {joins : List (String × String)} (h : ∀ j ∈ joins, places? [j.2] = some 0) :
    read? (String.join (joins.map fun j => " INNER JOIN " ++ quoted j.1 ++ " ON " ++ j.2)) [] =
      some (joins.flatMap joinParts) ∧
    (String.join (joins.map fun j => " INNER JOIN " ++ quoted j.1 ++ " ON " ++ j.2)).toList.head? ≠
      some '"' := by
  refine read?_join (fun j hj => ?_) fun j _ => ?_
  · have hon := read?_of_places?_zero (β := Value) (h j hj)
    have := read?_plain_append (show IsPlain " INNER JOIN " by decide) <|
      read?_append_plain_append (read?_quoted j.1) (show IsPlain " ON " by decide) (by decide) hon
    simpa [joinParts, String.append_assoc] using this
  · exact ⟨' ', _, by simp only [String.toList_append]; rfl, by decide⟩

theorem read?_keys {c : Clauses} (h : ∀ key ∈ c.order, places? [key] = some 0) (table : String) :
    read? (", ".intercalate
      (if c.order.isEmpty then [qualified table Refinement.placeColumn] else c.order)) [] =
      some (c.orderParts table) := by
  cases hempty : c.order.isEmpty with
  | true => simpa [orderParts, hempty] using read?_qualified table Refinement.placeColumn
  | false =>
    have := read?_intercalate_nil (show IsPlain ", " by decide) (by decide)
      fun key hkey => read?_of_places?_zero (β := Value) (h key hkey)
    simpa [orderParts, hempty] using this

/-- A query takes up the values of its conditions, each its own. -/
theorem read?_query {c : Clauses} (hc : c.IsComplete) {table select : String}
    (hselect : places? [select] = some 0) :
    read? (c.query table select).text (c.query table select).values =
      some (c.queryParts table select) := by
  obtain ⟨hjoins, hstart⟩ := read?_joins hc.joins
  -- From left to right. Only the conditions have values, so theirs are those of the whole query.
  have hjoined := read?_append (read?_source table hselect) hjoins hstart
  have hconditions : ∀ k ∈ c.conditions, read? ("(" ++ k.text ++ ")") k.values = some (conditionParts k) :=
    fun k hk => read?_bracketed (read?_of_places? (hc.conditions k hk))
  have hfiltered := read?_withWhere hjoined hconditions
  have hordered := read?_append_plain_append hfiltered (show IsPlain " ORDER BY " by decide) (by decide)
    (read?_keys hc.order table)
  cases hlimit : c.limit with
  | none => simpa [query, queryParts, limitParts, hlimit, String.append_assoc] using hordered
  | some n =>
    have hplain : IsPlain (" LIMIT " ++ toString n) := by
      have := isPlain_toString n
      simp_all [IsPlain]
    have := read?_append hordered (read?_plain hplain) (by simp)
    simpa [query, queryParts, limitParts, hlimit, String.append_assoc] using this

end Clauses

theorem places?_of_read? {text : String} {values : List β} {parts : List (Token β)}
    (h : read? text values = some parts) : places? [text] = some values.length :=
  (lineUp_of_read? h).count

end Payroll.Sql

namespace Payroll.Static

open Sql (Value Token read? insertParts read?_insertStatement)

variable {s : StaticKind}

/-! ## Inserting statements -/

/-- What is said by a statement that inserts records: each row has the cells of its record. -/
def insertionParts (s : StaticKind) (records : List s.Data) : List (Token Value) :=
  insertParts (StaticData.table s.Data) (filterable s.Data)
    (records.map fun a => (StaticRow.ofData a).values)

theorem read?_insertion (records : List s.Data) :
    read? (insertion s.Data (records.map .ofData)).text (insertion s.Data (records.map .ofData)).values =
      some (insertionParts s records) := by
  have hrows : ∀ row ∈ records.map (fun a => (StaticRow.ofData a).values),
      row.length = (filterable s.Data).length := by
    intro row hrow
    obtain ⟨a, -, rfl⟩ := List.mem_map.mp hrow
    rw [Database.length_values_ofData, filterable, List.length_cons]
  have := @read?_insertStatement Value (StaticData.table s.Data) _ _ hrows
  simpa [insertion, Sql.Statement.insert, insertionParts, Function.comp_def] using this

/-- Records are inserted piece by piece. -/
theorem insertions_eq (records : List s.Data) :
    insertions records = (Database.pieces (Database.rowsPerStatement s.Data) records).map
      fun piece => insertion s.Data (piece.map .ofData) := by
  rw [insertions, Database.pieces_map, List.map_map]
  rfl

/-- How many records there are says what the statements are. -/
theorem texts_insertions (records : List s.Data) :
    (insertions records).map (·.text) =
      (Database.pieces (Database.rowsPerStatement s.Data) (List.replicate records.length ())).map
        fun piece => Sql.insertStatement (StaticData.table s.Data) (filterable s.Data) piece.length := by
  rw [← List.map_const', Database.pieces_map, insertions_eq, List.map_map, List.map_map]
  simp [Function.comp_def, insertion, Sql.Statement.insert]

end Payroll.Static

namespace Payroll.Sql

/-! ## Values and texts -/

/-- The terms name the same columns, and where the one has a null so has the other. -/
def Revalued (terms terms' : List (String × Value)) : Prop :=
  List.Forall₂ (fun t t' => t.1 = t'.1 ∧ t.2.isNull = t'.2.isNull) terms terms'

/-- What is made of columns and nulls alone is the same of both. -/
theorem Revalued.map_eq {γ : Type} {terms terms' : List (String × Value)} (h : Revalued terms terms')
    {f : String × Value → γ} (hf : ∀ t t', t.1 = t'.1 → t.2.isNull = t'.2.isNull → f t = f t') :
    terms.map f = terms'.map f := by
  induction h with
  | nil => rfl
  | cons ht _ ih => rw [List.map_cons, List.map_cons, hf _ _ ht.1 ht.2, ih]

theorem Filter.conditions_congr {f f' : Filter} (h : Revalued f.terms f'.terms) (table : String) :
    f.conditions table = f'.conditions table :=
  h.map_eq fun t t' hcolumn hnull => by
    show condition table t = condition table t'
    rw [condition, condition, hcolumn, hnull]

theorem Changes.assignments_congr {c c' : Changes} (h : Revalued c.terms c'.terms) :
    c.assignments = c'.assignments :=
  h.map_eq fun t t' hcolumn _ => by
    show quoted t.1 ++ " = ?" = quoted t'.1 ++ " = ?"
    rw [hcolumn]

theorem Clauses.text_query_congr {c : Clauses} {conditions : List Statement}
    (h : conditions.map (·.text) = c.conditions.map (·.text)) (table select : String) :
    ({ c with conditions }.query table select).text = (c.query table select).text := by
  have htexts : conditions.map (fun k => "(" ++ k.text ++ ")") =
      c.conditions.map fun k => "(" ++ k.text ++ ")" := by
    simpa [Function.comp_def] using congrArg (List.map fun text => "(" ++ text ++ ")") h
  simp only [query, htexts]

/-- The statement has a place for each of its values and no other, and this is what it says with the
values in them, the first in the first place. -/
def Statement.Says (s : Statement) (parts : List (Token Value)) : Prop :=
  LineUp [s.text] s.values parts

/-- The conditions of a filter, the statements that change and insert rows, and the queries with complete
clauses have a place for each of their values, and with the values in their places every term, assignment,
row and condition has its own. What the values are does not show in the texts. -/
theorem placeholders_lineUp :
    (∀ table (f : Filter),
      LineUp (f.conditions table) f.params (f.terms.flatMap (termParts table))) ∧
    (∀ table c f, (Statement.update table c f).Says (Statement.updateParts table c f)) ∧
    (∀ table columns rows, (∀ row ∈ rows, row.length = columns.length) →
      (Statement.insert table columns rows).Says (insertParts table columns rows)) ∧
    (∀ (s : StaticKind) (records : List s.Data), ∃ pieces : List (List s.Data), pieces.flatten = records ∧
      List.Forall₂ (fun statement piece => statement.Says (Static.insertionParts s piece))
        (Static.insertions records) pieces) ∧
    (∀ c : Clauses, c.IsComplete → ∀ table select, places? [select] = some 0 →
      (c.query table select).Says (c.queryParts table select)) ∧
    (∀ r : Refinement, r.clauses.IsComplete → ∀ table select, places? [select] = some 0 →
      LineUp [r.render table select] r.params (r.clauses.queryParts table select)) ∧
    (∀ table columns, places? [columnList table columns] = some 0) ∧
    (∀ table (f f' : Filter), Revalued f.terms f'.terms → f.conditions table = f'.conditions table) ∧
    (∀ table c c' f f', Revalued c.terms c'.terms → Revalued f.terms f'.terms →
      (Statement.update table c f).text = (Statement.update table c' f').text) ∧
    (∀ (s : StaticKind) (records records' : List s.Data), records.length = records'.length →
      (Static.insertions records).map (·.text) = (Static.insertions records').map (·.text)) ∧
    ∀ (c : Clauses) conditions, conditions.map Statement.text = c.conditions.map Statement.text →
      ∀ table select, ({ c with conditions }.query table select).text = (c.query table select).text := by
  refine ⟨fun table f => ?_, fun table c f => ?_, fun table columns rows h => ?_, fun s records => ?_,
    fun c hc table select hselect => ?_, fun r hr table select hselect => ?_, fun table columns => ?_,
    ?_, ?_, ?_, ?_⟩
  · rw [Filter.conditions_eq_map, Filter.params_eq_flatMap]
    exact lineUp_map fun t _ => Filter.read?_condition table t
  · exact lineUp_of_read? (Statement.read?_update table c f)
  · exact lineUp_of_read? (read?_insertStatement h)
  · refine ⟨_, Database.flatten_pieces (Database.rowsPerStatement s.Data) records, ?_⟩
    rw [Static.insertions_eq, List.forall₂_map_left_iff, List.forall₂_same]
    exact fun piece _ => lineUp_of_read? (Static.read?_insertion piece)
  · exact lineUp_of_read? (Clauses.read?_query hc hselect)
  · rw [← Refinement.values_query_clauses r table select]
    exact lineUp_of_read? (Clauses.read?_query hr hselect)
  · exact places?_of_read? (read?_columnList (β := Value) table columns)
  · exact fun table f f' h => Filter.conditions_congr h table
  · intro table c c' f f' hc hf
    simp only [Statement.update, Changes.assignments_congr hc, Filter.conditions_congr hf]
  · intro s records records' h
    rw [Static.texts_insertions, Static.texts_insertions, h]
  · exact fun c conditions h table select => Clauses.text_query_congr h table select

/-- Names and conditions in which there are quotes and question marks, a null among the values, and other
values in place of those that are no nulls. -/
theorem placeholders_lineUp_quoting :
    let f : Filter := ⟨[("a\"?", .null), ("b", .text "?")]⟩
    let f' : Filter := ⟨[("a\"?", .null), ("b", .int 7)]⟩
    let rows : List (List Value) := [[.int 1, .null], [.int 2, .text "?"]]
    let r : Refinement :=
      { joins := [⟨"j?", ⟨"j?", "k"⟩, ⟨"t", "k"⟩⟩]
        conditions := [.compare ⟨"t", "?"⟩ .ne (.text "?"), .raw "a = ? OR \"?\" = ?" [.int 1, .null],
          .raw "1 = 1" []]
        order := [⟨⟨"t", "?"⟩, true⟩]
        limit := some 5 }
    let c : Clauses := r.clauses
    let conditions : List Statement :=
      [⟨"\"t\".\"?\" != ?", [.int 2]⟩, ⟨"a = ? OR \"?\" = ?", [.text "?", .null]⟩, ⟨"1 = 1", []⟩]
    let records : List StaticKind.company.Data := [Company.mk "i" "a" "t" "t"]
    let records' : List StaticKind.company.Data := [Company.mk "j" "\"?\"" "t" "t"]
    ((∀ row ∈ rows, row.length = ["a?", "b\""].length) ∧
      (Statement.insert "t" ["a?", "b\""] rows).Says (insertParts "t" ["a?", "b\""] rows)) ∧
    (c.IsComplete ∧ places? ["\"t\".\"?\""] = some 0 ∧
      (c.query "t" "\"t\".\"?\"").Says (c.queryParts "t" "\"t\".\"?\"") ∧
      LineUp [r.render "t" "\"t\".\"?\""] r.params (c.queryParts "t" "\"t\".\"?\"")) ∧
    (Revalued f.terms f'.terms ∧ f.conditions "t" = f'.conditions "t" ∧
      (Statement.update "t" ⟨f.terms⟩ f).text = (Statement.update "t" ⟨f'.terms⟩ f').text) ∧
    (records.length = records'.length ∧
      (Static.insertions records).map (·.text) = (Static.insertions records').map (·.text)) ∧
    conditions.map Statement.text = c.conditions.map Statement.text ∧
      ({ c with conditions }.query "t" "*").text = (c.query "t" "*").text := by
  intro f f' rows r c conditions records records'
  obtain ⟨-, -, hinsert, -, hquery, hrender, -, hfilter, hupdate, hinsertions, hconditions⟩ :=
    placeholders_lineUp
  have hrows : ∀ row ∈ rows, row.length = ["a?", "b\""].length := by decide
  have hc : c.IsComplete :=
    { joins := by decide
      conditions := by decide
      order := by decide }
  have hselect : places? ["\"t\".\"?\""] = some 0 := by decide
  have hf : Revalued f.terms f'.terms := .cons ⟨rfl, rfl⟩ (.cons ⟨rfl, rfl⟩ .nil)
  exact ⟨⟨hrows, hinsert _ _ _ hrows⟩, ⟨hc, hselect, hquery c hc _ _ hselect, hrender r hc _ _ hselect⟩,
    ⟨hf, hfilter _ _ _ hf, hupdate _ _ _ _ _ hf hf⟩,
    ⟨rfl, hinsertions .company records records' rfl⟩, rfl, hconditions c conditions rfl _ _⟩

/-- If a condition leaves a name open, a name can reach from it to another condition. Here no condition has
more placeholders than values or fewer, and yet the query has a value without a placeholder, since that
is in a name. -/
theorem not_lineUp_of_open_name :
    let r : Refinement :=
      { joins := [], conditions := [.raw "\"a" [], .raw "b = ?" [.int 1], .raw "c\"" []], order := [],
        limit := none }
    (∀ k ∈ r.conditions, k.text.toList.count '?' = k.params.length) ∧ places? ["*"] = some 0 ∧
      places? [r.render "job" "*"] = some 0 ∧ r.params.length = 1 := by
  refine ⟨by decide, by decide, by decide +kernel, rfl⟩

end Payroll.Sql
