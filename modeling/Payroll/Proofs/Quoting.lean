import Mathlib.Data.List.Basic
import Mathlib.Logic.Function.Basic
import Payroll.Sql.Name
/-!
# Reading quoted names

SQL text is read from the left: a double quote opens a name, two in a row stand for one inside it, and
another one closes it. What is written for a name is read as that name and ends where it ends, whatever
the name holds, so from the text of a list of columns or of an inserting statement the names in it can be
told, and no two of them have the same text.

Reading is done with values in view: the places for values, which are the question marks outside of names,
take them up in order. Without values it is reading alone.

## Key results

- `scan_append`: texts are read one after the other if the second does not go on with a quote
- `read?_quoted`: a quoted name is read as that name
- `read?_intercalate`: so are lists of pieces, with something plain between them
- `losesNothing`: what is read from names, and that their texts tell them apart
-/

namespace Payroll.Sql

variable {β ι : Type}

/-! ## Tokens -/

/-- What SQL text is made of: names in quotes, places for values, and other characters. -/
inductive Token (β : Type) where
  | name (text : String)
  | place (value : β)
  | char (c : Char)
deriving DecidableEq

namespace Token

/-- A character outside of names. A question mark is the place for a value. -/
def ofChar (c : Char) : Token Unit :=
  if c = '?' then .place () else .char c

/-- The name, if the token is one. -/
def name? : Token β → Option String
  | .name text => some text
  | _ => none

/-- The token is the place for a value. -/
def isPlace : Token β → Bool
  | .place _ => true
  | _ => false

@[simp] theorem name?_name (text : String) : (name text : Token β).name? = some text := rfl

@[simp] theorem name?_place (v : β) : (place v).name? = none := rfl

@[simp] theorem name?_char (c : Char) : (char c : Token β).name? = none := rfl

@[simp] theorem isPlace_name (text : String) : (name text : Token β).isPlace = false := rfl

@[simp] theorem isPlace_place (v : β) : (place v).isPlace = true := rfl

@[simp] theorem isPlace_char (c : Char) : (char c : Token β).isPlace = false := rfl

end Token

/-- Where the reader of a text is: outside of names, in a name of which it has read some characters, or
at a quote in a name, which closes it unless another one follows. -/
inductive Spot where
  | outside
  | inside (read : List Char)
  | atQuote (read : List Char)

/-- The tokens of a text from a spot on. A name that is left open is not read. -/
def scan : Spot → List Char → Option (List (Token Unit))
  | .outside, [] => some []
  | .inside _, [] => none
  | .atQuote read, [] => some [.name (.ofList read)]
  | .outside, c :: cs =>
    if c = '"' then scan (.inside []) cs else (scan .outside cs).map (.ofChar c :: ·)
  | .inside read, c :: cs =>
    if c = '"' then scan (.atQuote read) cs else scan (.inside (read ++ [c])) cs
  | .atQuote read, c :: cs =>
    if c = '"' then scan (.inside (read ++ ['"'])) cs
    else (scan .outside cs).map (.name (.ofList read) :: .ofChar c :: ·)

/-- The tokens of a text. -/
def tokens? (text : String) : Option (List (Token Unit)) :=
  scan .outside text.toList

/-- The tokens with values in the places for them, the first value in the first place. There has to be a
place for each value, and a value for each place. -/
def fill : List (Token Unit) → List β → Option (List (Token β))
  | [], [] => some []
  | [], _ :: _ => none
  | .place () :: ts, v :: vs => (fill ts vs).map (.place v :: ·)
  | .place () :: _, [] => none
  | .name text :: ts, vs => (fill ts vs).map (.name text :: ·)
  | .char c :: ts, vs => (fill ts vs).map (.char c :: ·)

/-- What a text says with values in its places. -/
def read? (text : String) (values : List β) : Option (List (Token β)) :=
  (tokens? text).bind (fill · values)

/-! ## Reading on -/

/-- A text is read as it is when nothing follows it that could go on with a name in it. -/
theorem scan_append {spot : Spot} {cs : List Char} {ts : List (Token Unit)} (h : scan spot cs = some ts)
    {rest : List Char} (hrest : rest.head? ≠ some '"') :
    scan spot (cs ++ rest) = (scan .outside rest).map (ts ++ ·) := by
  -- The spot is general: a name may be open anywhere in the text, though not at its end.
  induction cs generalizing spot ts with
  | nil =>
    cases spot with
    | outside => simp_all [scan]
    | inside read => simp [scan] at h
    | atQuote read =>
      obtain rfl : [.name (.ofList read)] = ts := by simpa [scan] using h
      -- The text ends in a quote. What follows does not start with one, so the name is closed.
      cases rest with
      | nil => simp [scan]
      | cons c rest =>
        have hc : c ≠ '"' := by simpa using hrest
        simp [scan, hc, Function.comp_def]
  | cons c cs ih =>
    cases spot with
    | inside read =>
      by_cases hc : c = '"' <;> simp only [scan, hc, if_true, if_false, List.cons_append] at h ⊢ <;>
        exact ih h
    | outside | atQuote read =>
      by_cases hc : c = '"'
      · simp only [scan, hc, if_true, List.cons_append] at h ⊢
        exact ih h
      · simp only [scan, hc, if_false, List.cons_append] at h ⊢
        obtain ⟨us, hus, rfl⟩ := Option.map_eq_some_iff.mp h
        simp [ih hus, Function.comp_def]

/-- Text without quotes is read character by character, whatever follows. -/
theorem scan_plain_append {cs : List Char} (h : '"' ∉ cs) (rest : List Char) :
    scan .outside (cs ++ rest) = (scan .outside rest).map (cs.map Token.ofChar ++ ·) := by
  induction cs with
  | nil => simp
  | cons c cs ih =>
    simp only [List.mem_cons, not_or] at h
    simp [scan, Ne.symm h.1, ih h.2, Function.comp_def]

/-- In a name, its characters are read as they were before their quotes were doubled. -/
theorem scan_doubleQuotes (name read rest : List Char) :
    scan (.inside read) (doubleQuotes name ++ '"' :: rest) = scan (.atQuote (read ++ name)) rest := by
  induction name generalizing read with
  | nil => simp [doubleQuotes, scan]
  | cons c name ih =>
    by_cases hc : c = '"'
    · simp [doubleQuotes, scan, hc, ih]
    · simp [doubleQuotes, scan, hc, ih]

/-- A quoted name is that name, and ends where it ends. -/
theorem tokens?_quoted (name : String) : tokens? (quoted name) = some [.name name] := by
  rw [tokens?, quoted, String.toList_ofList]
  simpa [scan] using scan_doubleQuotes name.toList [] []

/-- Values fill the places of tokens in a row if they fill those of each part. -/
theorem fill_append {ts us : List (Token Unit)} {vs ws : List β} {ps qs : List (Token β)}
    (hts : fill ts vs = some ps) (hus : fill us ws = some qs) :
    fill (ts ++ us) (vs ++ ws) = some (ps ++ qs) := by
  induction ts generalizing vs ps with
  | nil =>
    cases vs with
    | nil => simp_all [fill]
    | cons v vs => simp [fill] at hts
  | cons t ts ih =>
    cases t with
    | place u =>
      cases vs with
      | nil => simp [fill] at hts
      | cons v vs =>
        simp only [fill, List.cons_append] at hts ⊢
        obtain ⟨rs, hrs, rfl⟩ := Option.map_eq_some_iff.mp hts
        simp [ih hrs]
    | name text | char c =>
      simp only [fill, List.cons_append] at hts ⊢
      obtain ⟨rs, hrs, rfl⟩ := Option.map_eq_some_iff.mp hts
      simp [ih hrs]

/-! ## Pieces of text -/

/-- Nothing in the text opens a name or is a place for a value. -/
def IsPlain (text : String) : Prop :=
  '"' ∉ text.toList ∧ '?' ∉ text.toList

instance (text : String) : Decidable (IsPlain text) :=
  inferInstanceAs (Decidable (_ ∧ _))

/-- The text, character by character. -/
def plain (text : String) : List (Token β) :=
  text.toList.map .char

theorem fill_plain_append {cs : List Char} (h : '?' ∉ cs) {ts : List (Token Unit)} {values : List β}
    {parts : List (Token β)} (hts : fill ts values = some parts) :
    fill (cs.map Token.ofChar ++ ts) values = some (cs.map .char ++ parts) := by
  induction cs with
  | nil => exact hts
  | cons c cs ih =>
    simp only [List.mem_cons, not_or] at h
    simp [Token.ofChar, Ne.symm h.1, fill, ih h.2]

theorem read?_eq_some_iff {text : String} {values : List β} {parts : List (Token β)} :
    read? text values = some parts ↔ ∃ ts, tokens? text = some ts ∧ fill ts values = some parts := by
  simp [read?, Option.bind_eq_some_iff]

theorem read?_empty : read? "" ([] : List β) = some [] := rfl

/-- A question mark is the place for a value. -/
theorem read?_place (v : β) : read? "?" [v] = some [.place v] := rfl

/-- A quoted name is read as that name. -/
theorem read?_quoted (name : String) : read? (quoted name) ([] : List β) = some [.name name] := by
  simp [read?, tokens?_quoted, fill]

section Pieces

variable {a b glue : String} {vs ws : List β} {ps qs : List (Token β)}

/-- Two texts in a row are read one after the other, unless the second starts with a quote. -/
theorem read?_append (ha : read? a vs = some ps) (hb : read? b ws = some qs)
    (hstart : b.toList.head? ≠ some '"') : read? (a ++ b) (vs ++ ws) = some (ps ++ qs) := by
  obtain ⟨ts, hts, hps⟩ := read?_eq_some_iff.mp ha
  obtain ⟨us, hus, hqs⟩ := read?_eq_some_iff.mp hb
  refine read?_eq_some_iff.mpr ⟨ts ++ us, ?_, fill_append hps hqs⟩
  rw [tokens?] at hts hus ⊢
  rw [String.toList_append, scan_append hts hstart, hus]
  rfl

/-- Plain text before a text is read as it stands, also where a name starts behind it. -/
theorem read?_plain_append (hglue : IsPlain glue) (hb : read? b ws = some qs) :
    read? (glue ++ b) ws = some (plain glue ++ qs) := by
  obtain ⟨us, hus, hqs⟩ := read?_eq_some_iff.mp hb
  refine read?_eq_some_iff.mpr ⟨glue.toList.map Token.ofChar ++ us, ?_, fill_plain_append hglue.2 hqs⟩
  rw [tokens?] at hus ⊢
  rw [String.toList_append, scan_plain_append hglue.1, hus]
  rfl

theorem read?_plain (hglue : IsPlain glue) : read? glue ([] : List β) = some (plain glue) := by
  simpa using read?_plain_append hglue read?_empty

/-- With something plain between them, two texts are read one after the other. -/
theorem read?_append_plain_append (ha : read? a vs = some ps) (hglue : IsPlain glue) (hne : glue ≠ "")
    (hb : read? b ws = some qs) :
    read? (a ++ (glue ++ b)) (vs ++ ws) = some (ps ++ (plain glue ++ qs)) := by
  refine read?_append ha (read?_plain_append hglue hb) ?_
  -- The text between the two starts with a character that is no quote.
  cases hcs : glue.toList with
  | nil => exact absurd (String.toList_eq_nil_iff.mp hcs) hne
  | cons c cs =>
    intro hc
    have hmem : '"' ∈ glue.toList := by simp_all
    exact hglue.1 hmem

/-- Between brackets, a text is read as it is. -/
theorem read?_bracketed (ha : read? a vs = some ps) :
    read? ("(" ++ a ++ ")") vs = some (plain "(" ++ (ps ++ plain ")")) := by
  have hclosed := read?_append ha (read?_plain (show IsPlain ")" by decide)) (by decide)
  rw [List.append_nil] at hclosed
  rw [String.append_assoc]
  exact read?_plain_append (by decide) hclosed

/-- Pieces with something plain between them are read one after the other. -/
theorem read?_intercalate {text : ι → String} {values : ι → List β} {parts : ι → List (Token β)}
    (hglue : IsPlain glue) (hne : glue ≠ "") {xs : List ι}
    (h : ∀ x ∈ xs, read? (text x) (values x) = some (parts x)) :
    read? (glue.intercalate (xs.map text)) (xs.flatMap values) =
      some ((plain glue).intercalate (xs.map parts)) := by
  induction xs with
  | nil => exact read?_empty
  | cons x xs ih =>
    obtain ⟨hx, hxs⟩ := List.forall_mem_cons.mp h
    cases xs with
    | nil => simpa using hx
    | cons y ys =>
      have := read?_append_plain_append hx hglue hne (ih hxs)
      simpa [String.append_assoc] using this

/-- So are pieces without values. -/
theorem read?_intercalate_nil {text : ι → String} {parts : ι → List (Token β)} (hglue : IsPlain glue)
    (hne : glue ≠ "") {xs : List ι} (h : ∀ x ∈ xs, read? (text x) ([] : List β) = some (parts x)) :
    read? (glue.intercalate (xs.map text)) ([] : List β) =
      some ((plain glue).intercalate (xs.map parts)) := by
  have hnone : xs.flatMap (fun _ => ([] : List β)) = [] := by simp
  rw [← read?_intercalate hglue hne h, hnone]

end Pieces

/-! ## Columns and rows -/

/-- What is said by a column behind its table. -/
def columnParts (table column : String) : List (Token β) :=
  [.name table, .char '.', .name column]

theorem read?_qualified (table column : String) :
    read? (qualified table column) ([] : List β) = some (columnParts table column) := by
  have := read?_append_plain_append (read?_quoted (β := β) table) (show IsPlain "." by decide)
    (by decide) (read?_quoted column)
  simpa [qualified, columnParts, plain, String.append_assoc] using this

/-- What is said by a list of columns. -/
def columnsParts (table : String) (columns : List String) : List (Token β) :=
  (plain ", ").intercalate (columns.map (columnParts table))

theorem read?_columnList (table : String) (columns : List String) :
    read? (columnList table columns) ([] : List β) = some (columnsParts table columns) :=
  read?_intercalate_nil (by decide) (by decide) fun column _ => read?_qualified table column

/-- What is said by a row of values. -/
def rowParts (row : List β) : List (Token β) :=
  plain "(" ++ ((plain ", ").intercalate (row.map fun v => [.place v]) ++ plain ")")

/-- A row of placeholders takes up a row of values. -/
theorem read?_placeholderRow (row : List β) :
    read? (placeholderRow row.length) row = some (rowParts row) := by
  have hplaces := read?_intercalate (show IsPlain ", " by decide) (by decide)
    fun v (_ : v ∈ row) => read?_place v
  simpa [placeholderRow, rowParts] using read?_bracketed hplaces

/-- What is said by a statement that inserts rows of values. -/
def insertParts (table : String) (columns : List String) (rows : List (List β)) : List (Token β) :=
  plain "INSERT INTO " ++ (.name table :: (plain " (" ++
    ((plain ", ").intercalate (columns.map fun c => [.name c]) ++ (plain ") VALUES " ++
      (plain ", ").intercalate (rows.map rowParts)))))

/-- An inserting statement takes up rows that have a value for each column. -/
theorem read?_insertStatement {table : String} {columns : List String} {rows : List (List β)}
    (h : ∀ row ∈ rows, row.length = columns.length) :
    read? (insertStatement table columns rows.length) rows.flatten =
      some (insertParts table columns rows) := by
  have hnames := read?_intercalate_nil (show IsPlain ", " by decide) (by decide)
    fun c (_ : c ∈ columns) => read?_quoted (β := β) c
  have hrows := read?_intercalate (show IsPlain ", " by decide) (by decide)
    fun row (_ : row ∈ rows) => read?_placeholderRow row
  have htuples : rows.map (fun row => placeholderRow row.length) =
      List.replicate rows.length (placeholderRow columns.length) := by
    rw [← List.map_const']
    exact List.map_congr_left fun row hrow => by rw [h row hrow]
  have := read?_plain_append (show IsPlain "INSERT INTO " by decide) <|
    read?_append_plain_append (read?_quoted table) (show IsPlain " (" by decide) (by decide) <|
    read?_append_plain_append hnames (show IsPlain ") VALUES " by decide) (by decide) hrows
  simpa [insertStatement, insertParts, htuples, String.append_assoc] using this

/-! ## Telling texts apart -/

theorem eq_of_fill_unit {ts : List (Token Unit)} {values : List Unit} {parts : List (Token Unit)}
    (h : fill ts values = some parts) : parts = ts := by
  induction ts generalizing values parts with
  | nil => cases values <;> simp_all [fill]
  | cons t ts ih =>
    cases t with
    | place u =>
      cases values with
      | nil => simp [fill] at h
      | cons v values =>
        simp only [fill, Option.map_eq_some_iff] at h
        obtain ⟨rest, hrest, rfl⟩ := h
        rw [ih hrest]
    | name text | char c =>
      simp only [fill, Option.map_eq_some_iff] at h
      obtain ⟨rest, hrest, rfl⟩ := h
      rw [ih hrest]

/-- With nothing to tell the values by, what is said are the tokens of the text. -/
theorem tokens?_of_read? {text : String} {values : List Unit} {parts : List (Token Unit)}
    (h : read? text values = some parts) : tokens? text = some parts := by
  obtain ⟨ts, hts, hparts⟩ := read?_eq_some_iff.mp h
  rw [hts, eq_of_fill_unit hparts]

/-- What is picked from pieces in a row is picked from each of them, if there is nothing to pick between. -/
theorem filterMap_intercalate {α γ : Type} {f : α → Option γ} {glue : List α}
    (h : glue.filterMap f = []) (pieces : List (List α)) :
    (glue.intercalate pieces).filterMap f = pieces.flatMap (List.filterMap f) := by
  induction pieces with
  | nil => rfl
  | cons piece pieces ih =>
    cases pieces with
    | nil => simp
    | cons next pieces =>
      rw [List.intercalate_cons_cons, List.filterMap_append, List.filterMap_append, h, ih]
      simp

@[simp] theorem names_plain (text : String) : (plain (β := β) text).filterMap Token.name? = [] := by
  simp [plain]

theorem names_columnsParts (table : String) (columns : List String) :
    (columnsParts (β := β) table columns).filterMap Token.name? = columns.flatMap fun c => [table, c] := by
  rw [columnsParts, filterMap_intercalate (names_plain _), List.flatMap_map]
  rfl

theorem names_rowParts (row : List β) : (rowParts row).filterMap Token.name? = [] := by
  simp only [rowParts, List.filterMap_append, filterMap_intercalate (names_plain _), List.flatMap_map,
    names_plain]
  simp

theorem names_insertParts (table : String) (columns : List String) (rows : List (List β)) :
    (insertParts table columns rows).filterMap Token.name? = table :: columns := by
  simp only [insertParts, List.filterMap_append, List.filterMap_cons, Token.name?_name,
    filterMap_intercalate (names_plain _), List.flatMap_map, names_rowParts, names_plain]
  simp

/-- A bracket that opens. -/
def Token.opening? : Token β → Option Unit
  | .char c => if c = '(' then some () else none
  | _ => none

theorem openings_rowParts (row : List β) : (rowParts row).filterMap Token.opening? = [()] := by
  have hglue : (plain (β := β) ", ").filterMap Token.opening? = [] := by simp [plain, Token.opening?]
  simp only [rowParts, List.filterMap_append, filterMap_intercalate hglue, List.flatMap_map]
  simp [plain, Token.opening?]

/-- One bracket opens before the columns and one before each row. -/
theorem length_openings_insertParts (table : String) (columns : List String) (rows : List (List β)) :
    ((insertParts table columns rows).filterMap Token.opening?).length = rows.length + 1 := by
  have hglue : (plain (β := β) ", ").filterMap Token.opening? = [] := by simp [plain, Token.opening?]
  simp only [insertParts, List.filterMap_append, List.filterMap_cons, filterMap_intercalate hglue,
    List.flatMap_map, openings_rowParts]
  simp [plain, Token.opening?]

/-- Under a table's name, columns are told by the names in turn, and so is the table if there are any. -/
theorem eq_of_flatMap_pair {table table' : String} {columns columns' : List String} (hne : columns ≠ [])
    (h : (columns.flatMap fun c => [table, c]) = columns'.flatMap fun c => [table', c]) :
    table = table' ∧ columns = columns' := by
  induction columns generalizing columns' with
  | nil => exact absurd rfl hne
  | cons c columns ih =>
    cases columns' with
    | nil => simp at h
    | cons c' columns' =>
      simp only [List.flatMap_cons, List.cons_append, List.nil_append, List.cons.injEq] at h
      obtain ⟨rfl, rfl, hrest⟩ := h
      refine ⟨rfl, ?_⟩
      cases columns with
      | nil => cases columns' <;> simp_all
      | cons d columns => rw [(ih (by simp) hrest).2]

theorem tokens?_qualified (table column : String) :
    tokens? (qualified table column) = some [.name table, .char '.', .name column] :=
  tokens?_of_read? (read?_qualified table column)

theorem tokens?_columnList (table : String) (columns : List String) :
    tokens? (columnList table columns) = some (columnsParts table columns) :=
  tokens?_of_read? (read?_columnList table columns)

theorem tokens?_insertStatement (table : String) (columns : List String) (rows : Nat) :
    tokens? (insertStatement table columns rows) =
      some (insertParts table columns (List.replicate rows (List.replicate columns.length ()))) := by
  have hrows : ∀ row ∈ List.replicate rows (List.replicate columns.length ()),
      row.length = columns.length := by simp
  have := tokens?_of_read? (@read?_insertStatement Unit table columns _ hrows)
  rwa [List.length_replicate] at this

/-- Lists of columns of different tables, or of different columns, have different texts. -/
theorem columnList_inj {table table' : String} {columns columns' : List String} (hne : columns ≠ [])
    (h : columnList table columns = columnList table' columns') : table = table' ∧ columns = columns' := by
  have htokens := congrArg tokens? h
  rw [tokens?_columnList, tokens?_columnList, Option.some.injEq] at htokens
  have hnames := congrArg (List.filterMap Token.name?) htokens
  rw [names_columnsParts, names_columnsParts] at hnames
  exact eq_of_flatMap_pair hne hnames

/-- So have statements that insert into different tables, other columns or other numbers of rows. -/
theorem insertStatement_inj {table table' : String} {columns columns' : List String} {rows rows' : Nat}
    (h : insertStatement table columns rows = insertStatement table' columns' rows') :
    table = table' ∧ columns = columns' ∧ rows = rows' := by
  have htokens := congrArg tokens? h
  rw [tokens?_insertStatement, tokens?_insertStatement, Option.some.injEq] at htokens
  have hnames := congrArg (List.filterMap Token.name?) htokens
  rw [names_insertParts, names_insertParts, List.cons.injEq] at hnames
  -- The names do not tell how many rows there are. Each of them opens a bracket.
  have hrows := congrArg (fun parts => (parts.filterMap Token.opening?).length) htokens
  simp only [length_openings_insertParts, List.length_replicate] at hrows
  exact ⟨hnames.1, hnames.2, by omega⟩

/-- A column behind its table is read as the table's name, a point and the column's name, with nothing left
over. Names, columns, lists of columns and inserting statements that differ have texts that differ. -/
theorem losesNothing :
    (∀ table column, tokens? (qualified table column) =
      some [.name table, .char '.', .name column]) ∧
    Function.Injective quoted ∧
    Function.Injective2 qualified ∧
    (∀ table table' columns columns', columns ≠ [] → columns' ≠ [] →
      (table, columns) ≠ (table', columns') → columnList table columns ≠ columnList table' columns') ∧
    ∀ table table' columns columns' rows rows', (table, columns, rows) ≠ (table', columns', rows') →
      insertStatement table columns rows ≠ insertStatement table' columns' rows' := by
  refine ⟨tokens?_qualified, ?_, ?_, ?_, ?_⟩
  · intro name name' h
    have htokens := congrArg tokens? h
    simpa [tokens?_quoted] using htokens
  · intro table table' column column' h
    have htokens := congrArg tokens? h
    simpa [tokens?_qualified] using htokens
  · intro table table' columns columns' hne _ hdiffer h
    obtain ⟨rfl, rfl⟩ := columnList_inj hne h
    exact hdiffer rfl
  · intro table table' columns columns' rows rows' hdiffer h
    obtain ⟨rfl, rfl, rfl⟩ := insertStatement_inj h
    exact hdiffer rfl

/-- Names that hold what stands between two names do not pass for two. -/
theorem losesNothing_imitating :
    tokens? (qualified "a\".\"b" "c") = some [.name "a\".\"b", .char '.', .name "c"] ∧
    quoted "a\", \"b" ≠ quoted "a" ∧
    qualified "a\".\"b" "c" ≠ qualified "a" "b\".\"c" ∧
    (["x\", \"t\".\"y"] ≠ [] ∧ ["x", "y"] ≠ [] ∧ ("t", ["x\", \"t\".\"y"]) ≠ ("t", ["x", "y"]) ∧
      columnList "t" ["x\", \"t\".\"y"] ≠ columnList "t" ["x", "y"]) ∧
    ("t", ["?\", \"?"], 1) ≠ ("t", ["?", "?"], 1) ∧
      insertStatement "t" ["?\", \"?"] 1 ≠ insertStatement "t" ["?", "?"] 1 := by
  obtain ⟨hread, hquoted, hqualified, hcolumns, hinsert⟩ := losesNothing
  refine ⟨hread _ _, hquoted.ne (by decide), fun h => absurd (hqualified h).1 (by decide), ?_, ?_⟩
  · exact ⟨by decide, by decide, by decide,
      hcolumns _ _ _ _ (by decide) (by decide) (by decide)⟩
  · exact ⟨by decide, hinsert _ _ _ _ _ _ (by decide)⟩

end Payroll.Sql
