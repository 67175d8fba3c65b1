import Payroll.Proofs.Register
/-!
# Records that can be read back

A record that is changed in place is read from a row that has a text in each of its columns. Nulls are
kept out of the columns and numbers become texts in them, but bytes stay bytes. So all records of a kind
can be read for as long as no change gives bytes to a column of one of them.

## Key results

- `StaticRow.exists_decode_iff`: the rows that can be read
- `Database.isLegible_changed_iff`: the changes of a row after which it can be read
- `Operation.isLegible_step_iff`: the operations after which all rows of a kind can be read
- `Ledger.isListable_after`: what can be read after any operations
-/

namespace Payroll

open Sql (Changes Filter Value)

variable {s : StaticKind} {d d' : Database} {r : StaticRow} {c : Changes}

/-! ## Values -/

/-- What a column gets to hold is a text, unless it is a null or bytes. -/
theorem Sql.Value.isText_asText_bound {v : Value} (hnull : v.bound.asText.isNull = false)
    (hbytes : ∀ bytes, v ≠ .blob bytes) : v.bound.asText.isText = true := by
  cases v with
  | null => cases hnull
  | int | text => rfl
  | real x =>
    by_cases hx : x.isNaN = true
    · have hbound : (Value.real x).bound = .null := if_pos hx
      rw [hbound] at hnull
      cases hnull
    · have hbound : (Value.real x).bound = .real x := if_neg hx
      rw [hbound]
      rfl
  | blob bytes => exact absurd rfl (hbytes bytes)

/-! ## Rows -/

/-- The texts of cells are read if each cell that has a column holds one. -/
theorem exists_cellTexts_iff (place : Nat) (columns : List String) (cells : List Value) :
    (∃ texts, cellTexts place columns cells = .ok texts) ↔
      ∀ p ∈ columns.zip cells, p.2.isText = true := by
  -- The place only says which cell is at fault, so it may be any.
  induction columns generalizing place cells with
  | nil => simp [cellTexts]
  | cons column columns ih =>
    cases cells with
    | nil => simp [cellTexts]
    | cons cell cells =>
      cases cell with
      | text text =>
        have htext : (Value.text text).isText = true := rfl
        simp only [cellTexts, map_eq_ok_iff, List.zip_cons_cons, List.forall_mem_cons, htext, true_and,
          ← ih (place + 1) cells]
        constructor
        · rintro ⟨-, texts, hok, rfl⟩
          exact ⟨texts, hok⟩
        · rintro ⟨texts, hok⟩
          exact ⟨_, texts, hok, rfl⟩
      | null | int | real | blob => simp [cellTexts, Value.isText]

/-- One text is read from each cell that has a column. -/
theorem length_cellTexts {place : Nat} {columns texts : List String} {cells : List Value}
    (hok : cellTexts place columns cells = .ok texts) :
    texts.length = min columns.length cells.length := by
  induction columns generalizing place cells texts with
  | nil =>
    rw [cellTexts] at hok
    · simp [← Except.ok.inj hok]
    · simp
  | cons column columns ih =>
    cases cells with
    | nil =>
      rw [cellTexts] at hok
      · simp [← Except.ok.inj hok]
      · simp
    | cons cell cells =>
      cases cell with
      | text text =>
        obtain ⟨rest, hrest, rfl⟩ := map_eq_ok_iff.mp hok
        simp only [List.length_cons, ih hrest]
        omega
      | null | int | real | blob => cases hok

/-- A record has the id and the texts of which it is made. -/
theorem eq_texts_of_ofTexts? {id : String} {texts : List String} {a : s.Data}
    (ha : StaticData.ofTexts? id texts = some a) :
    id = StaticData.id a ∧ texts = StaticData.texts a := by
  -- Only a list of the right length is taken apart.
  cases s with
  | company =>
    change StaticData.ofTexts? (α := Company) id texts = some a at ha
    simp only [StaticData.ofTexts?] at ha
    split at ha
    · obtain rfl := Option.some.inj ha
      exact ⟨rfl, rfl⟩
    · cases ha
  | contractor =>
    change StaticData.ofTexts? (α := Contractor) id texts = some a at ha
    simp only [StaticData.ofTexts?] at ha
    split at ha
    · obtain rfl := Option.some.inj ha
      exact ⟨rfl, rfl⟩
    · cases ha

/-- Texts are those of a record if there is one for each column. -/
theorem exists_ofTexts?_iff (id : String) (texts : List String) :
    (∃ a : s.Data, StaticData.ofTexts? id texts = some a) ↔
      texts.length = (StaticData.columns s.Data).length := by
  constructor
  · rintro ⟨a, ha⟩
    rw [(eq_texts_of_ofTexts? ha).2]
    cases s <;> rfl
  · intro hlen
    cases s with
    | company =>
      match texts, hlen with
      | [_, _, _], _ => exact ⟨_, rfl⟩
    | contractor =>
      match texts, hlen with
      | [_, _, _, _, _], _ => exact ⟨_, rfl⟩

namespace StaticRow

/-- The row has a text in each column. -/
def IsLegible (s : StaticKind) (r : StaticRow) : Prop :=
  (StaticData.columns s.Data).length ≤ r.cells.length ∧
    ∀ p ∈ (StaticData.columns s.Data).zip r.cells, p.2.isText = true

/-- A record can be read from a row that has a text in each column, and from no other one. -/
theorem exists_decode_iff : (∃ a, r.decode s.Data = .ok a) ↔ r.IsLegible s := by
  rw [IsLegible, ← exists_cellTexts_iff 1]
  constructor
  · rintro ⟨a, hok⟩
    obtain ⟨texts, htexts, hok⟩ := bind_eq_ok_iff.mp hok
    refine ⟨?_, texts, htexts⟩
    split at hok
    · rename_i a' ha'
      have := (exists_ofTexts?_iff r.id texts).mp ⟨a', ha'⟩
      have := length_cellTexts htexts
      omega
    · cases hok
  · rintro ⟨hlen, texts, htexts⟩
    have := length_cellTexts htexts
    obtain ⟨a, ha⟩ := (exists_ofTexts?_iff (s := s) r.id texts).mpr (by omega)
    exact ⟨a, bind_eq_ok_iff.mpr ⟨texts, htexts, by rw [ha]; rfl⟩⟩

theorem isLegible_ofData (a : s.Data) : (ofData a).IsLegible s :=
  exists_decode_iff.mp ⟨a, by cases s <;> rfl⟩

end StaticRow

namespace Database

/-- Each column of a row that is changed has the value it is given, or else the one it had. -/
theorem zip_cells_changed (c : Changes) (r : StaticRow) :
    (StaticData.columns s.Data).zip (changed s.Data c r).cells =
      ((StaticData.columns s.Data).zip r.cells).map fun p =>
        (p.1, ((c.value? p.1).map fun v => v.bound.asText).getD p.2) := by
  rw [changed]
  generalize StaticData.columns s.Data = columns
  generalize r.cells = cells
  induction columns generalizing cells with
  | nil => rfl
  | cons column columns ih =>
    cases cells with
    | nil => rfl
    | cons cell cells =>
      simp only [List.zip_cons_cons, List.map_cons, ih]
      cases c.value? column <;> rfl

/-- A row that can be read can be read once it is changed, if the change gives no bytes to its columns. -/
theorem isLegible_changed_iff (hr : r.IsLegible s)
    (hfull : emptyColumn? s.Data (changed s.Data c r) = none) :
    (changed s.Data c r).IsLegible s ↔
      ∀ column ∈ StaticData.columns s.Data, ∀ bytes, c.value? column ≠ some (.blob bytes) := by
  obtain ⟨hlen, htexts⟩ := hr
  rw [emptyColumn?, Option.map_eq_none_iff, List.find?_eq_none, zip_cells_changed] at hfull
  rw [StaticRow.IsLegible, zip_cells_changed]
  constructor
  · rintro ⟨-, hchanged⟩ column hcolumn bytes hbytes
    -- There is a cell in the column, and it holds the bytes.
    obtain ⟨i, hi, rfl⟩ := List.getElem_of_mem hcolumn
    have hcell : ((StaticData.columns s.Data)[i], r.cells[i]) ∈
        (StaticData.columns s.Data).zip r.cells :=
      List.mem_iff_getElem.mpr ⟨i, by rw [List.length_zip]; omega, List.getElem_zip⟩
    have := hchanged _ (List.mem_map_of_mem hcell)
    simp [hbytes, Value.bound, Value.asText, Value.isText] at this
  · intro hbytes
    refine ⟨by simp [changed, hlen], fun p hp => ?_⟩
    have hnull := hfull p hp
    obtain ⟨q, hq, rfl⟩ := List.mem_map.mp hp
    cases hv : c.value? q.1 with
    | none => exact htexts q hq
    | some v =>
      -- No column is left without a value, so this one is no null.
      rw [hv] at hnull
      refine Value.isText_asText_bound (by simpa using hnull) fun bytes hblob => ?_
      exact hbytes q.1 (List.of_mem_zip hq).1 bytes (by rw [hv, hblob])

/-! ## Statements -/

/-- The table of the kind is there, and every row of it can be read. -/
def IsLegible (s : StaticKind) (d : Database) : Prop :=
  ∃ rows, d.staticRows s = some rows ∧ ∀ r ∈ rows, r.IsLegible s

theorem isLegible_freshOn (engine : Engine) (s : StaticKind) : (freshOn engine).IsLegible s :=
  ⟨[], staticRows_freshOn engine s, nofun⟩

/-- All records of a kind are read if every row can be read, and else none is. -/
theorem exists_allWhere_iff (hd : ∃ rows, d.staticRows s = some rows) :
    (∃ records, Static.allWhere s.Data .all d = .ok records) ↔ d.IsLegible s := by
  obtain ⟨rows, hrows⟩ := hd
  have hall : rowsWhere s.Data d .all = .ok rows := by
    rw [rowsWhere_eq hrows, if_neg (by decide)]
    exact congrArg Except.ok (List.filter_eq_self.mpr fun _ _ => rfl)
  have hread (records : List s.Data) : Static.allWhere s.Data .all d = .ok records ↔
      rows.mapM (StaticRow.decode s.Data) = .ok records := by
    have hfilter : Filter.all.validate (Static.filterable s.Data) = .ok () := rfl
    rw [Static.allWhere, hfilter, Database.allWhere, hall]
    exact ofDatabase_eq_ok_iff
  simp only [hread, exists_mapM_eq_ok_iff, StaticRow.exists_decode_iff]
  constructor
  · intro hlegible
    exact ⟨rows, hrows, hlegible⟩
  · rintro ⟨rows', hrows', hlegible⟩
    obtain rfl := Option.some.inj (hrows.symm.trans hrows')
    exact hlegible

section

variable (h : d.IsLegible s)
include h

/-- If every row can be read, so can those that pass a filter that is not too long, and the first of
them. -/
theorem IsLegible.exists_where {f : Filter} (hf : f.validate (Static.filterable s.Data) = .ok ())
    (hshort : f.terms.length ≤ maxTerms) :
    (∃ records, Static.allWhere s.Data f d = .ok records) ∧
      ∃ first, Static.first? s.Data f d = .ok first := by
  obtain ⟨rows, hrows, hlegible⟩ := h
  have hdecode : ∀ r ∈ rows.filter fun r => f.holds (staticColumns s.Data) r.values,
      ∃ a, r.decode s.Data = .ok a := fun r hr =>
    StaticRow.exists_decode_iff.mpr (hlegible r (List.mem_filter.mp hr).1)
  rw [Static.allWhere, Static.first?, hf, Database.allWhere, Database.first?, rowsWhere_eq hrows,
    if_neg (Nat.not_lt.mpr hshort)]
  generalize (rows.filter fun r => f.holds (staticColumns s.Data) r.values) = passing at hdecode ⊢
  constructor
  · obtain ⟨records, hrecords⟩ := exists_mapM_eq_ok_iff.mpr hdecode
    exact ⟨records, ofDatabase_eq_ok_iff.mpr hrecords⟩
  · cases passing with
    | nil => exact ⟨none, rfl⟩
    | cons r rest =>
      obtain ⟨a, ha⟩ := hdecode r List.mem_cons_self
      have hfirst : (r.decode s.Data >>= fun a => pure (some a)) = .ok (some a) :=
        bind_eq_ok_iff.mpr ⟨a, ha, rfl⟩
      exact ⟨some a, ofDatabase_eq_ok_iff.mpr hfirst⟩

theorem IsLegible.insertRows {new : List StaticRow} (hnew : ∀ r ∈ new, ∃ a : s.Data, r = .ofData a)
    (hok : Database.insertRows s.Data d new = .ok d') : d'.IsLegible s := by
  obtain ⟨rows, hrows, hlegible⟩ := h
  obtain ⟨rows', hrows', -, rfl⟩ := insertRows_eq_ok_iff.mp hok
  obtain rfl := Option.some.inj (hrows.symm.trans hrows')
  refine ⟨_, staticRows_setRows d s _, fun r hr => ?_⟩
  rcases List.mem_append.mp hr with hr | hr
  · exact hlegible r hr
  · -- Only its place is given to a row that is new.
    have hmem : r.unplaced ∈ new.map StaticRow.unplaced := by
      rw [← (placedAfter_spec (lastPlace rows) new).1]
      exact List.mem_map_of_mem hr
    obtain ⟨r', hr', hsame⟩ := List.mem_map.mp hmem
    obtain ⟨a, rfl⟩ := hnew r' hr'
    have hcells : r.unplaced.cells = (StaticRow.ofData a).cells := by rw [← hsame]; rfl
    have := StaticRow.isLegible_ofData a
    rwa [StaticRow.IsLegible, ← hcells] at this

/-- All rows can be read once those that pass are changed, unless there are some and they get bytes. -/
theorem IsLegible.updateWhere_iff {f : Filter} {n : Nat}
    (hc : c.validate (StaticData.columns s.Data) = .ok ())
    (hok : d.updateWhere s.Data f c = .ok (n, d')) :
    d'.IsLegible s ↔ ¬(0 < n ∧ ∃ column bytes, c.value? column = some (.blob bytes)) := by
  obtain ⟨rows, hrows, hlegible⟩ := h
  obtain ⟨rows', hrows', hfull, rfl, rfl⟩ := updateWhere_eq_ok hok
  obtain rfl := Option.some.inj (hrows.symm.trans hrows')
  have hchanged : ∀ r ∈ rows.filter fun r => f.holds (staticColumns s.Data) r.values,
      ((changed s.Data c r).IsLegible s ↔
        ∀ column ∈ StaticData.columns s.Data, ∀ bytes, c.value? column ≠ some (.blob bytes)) :=
    fun r hr => isLegible_changed_iff (hlegible r (List.mem_filter.mp hr).1) (hfull r hr)
  constructor
  · rintro ⟨rows', hrows', hlegible'⟩ ⟨hpos, column, bytes, hbytes⟩
    rw [staticRows_setRows, Option.some.injEq] at hrows'
    subst hrows'
    -- One of the rows that pass is enough to tell.
    obtain ⟨r, hr⟩ := List.exists_mem_of_length_pos hpos
    have hr' := hlegible' _ (List.mem_map_of_mem (List.mem_filter.mp hr).1)
    rw [if_pos (List.mem_filter.mp hr).2, hchanged r hr] at hr'
    exact hr' column ((Changes.validate_eq_ok_iff.mp hc).2 _ (Changes.mem_terms_of_value? hbytes)) bytes
      hbytes
  · intro hbytes
    refine ⟨_, staticRows_setRows d s _, fun r' hr' => ?_⟩
    obtain ⟨r, hr, rfl⟩ := List.mem_map.mp hr'
    split
    · rename_i hpasses
      have hmem : r ∈ rows.filter fun r => f.holds (staticColumns s.Data) r.values :=
        List.mem_filter.mpr ⟨hr, hpasses⟩
      refine (hchanged r hmem).mpr fun column _ bytes hblob => ?_
      exact hbytes ⟨List.length_pos_of_mem hmem, column, bytes, hblob⟩
    · exact hlegible r hr

theorem IsLegible.deleteWhere {f : Filter} {n : Nat} (hok : d.deleteWhere s.Data f = .ok (n, d')) :
    d'.IsLegible s := by
  obtain ⟨rows, hrows, hlegible⟩ := h
  obtain ⟨rows', hrows', -, rfl⟩ := deleteWhere_eq_ok hok
  obtain rfl := Option.some.inj (hrows.symm.trans hrows')
  exact ⟨_, staticRows_setRows d s _, fun r hr => hlegible r (List.mem_filter.mp hr).1⟩

end

end Database

/-! ## Operations -/

/-- The operation changes records of the kind, and gives bytes to a column of them. -/
def Operation.StoresBytes (s : StaticKind) (l : Ledger) (o : Operation) : Prop :=
  ∃ (f : Filter) (c : Changes) (n : Nat) (column : String) (bytes : List UInt8),
    o = .static s (.updateWhere f c) ∧ (l.updateWhere s.Data f c).1 = .ok n ∧ 0 < n ∧
      c.value? column = some (.blob bytes)

theorem Operation.storesBytes_updateWhere_iff {l : Ledger} {f : Filter} :
    (Operation.static s (.updateWhere f c)).StoresBytes s l ↔
      ∃ n column bytes, (l.updateWhere s.Data f c).1 = .ok n ∧ 0 < n ∧
        c.value? column = some (.blob bytes) := by
  constructor
  · rintro ⟨f', c', n, column, bytes, heq, hok, hpos, hbytes⟩
    cases heq
    exact ⟨n, column, bytes, hok, hpos, hbytes⟩
  · rintro ⟨n, column, bytes, hok, hpos, hbytes⟩
    exact ⟨f, c, n, column, bytes, rfl, hok, hpos, hbytes⟩

section

variable (h : d.IsLegible s)
include h

/-- All rows can be read after a change, unless it has changed some and given them bytes. -/
theorem Static.isLegible_updateWhere_iff (f : Filter) (c : Changes) :
    (Static.updateWhere s.Data f c d).2.IsLegible s ↔
      ¬∃ n column bytes, (Static.updateWhere s.Data f c d).1 = .ok n ∧ 0 < n ∧
        c.value? column = some (.blob bytes) := by
  rw [Static.updateWhere]
  rcases Step.transaction_cases _ d with ⟨fault, heq⟩ | ⟨n, d', hok, heq⟩
  · -- A change that is refused leaves everything as it is.
    rw [heq]
    exact ⟨nofun, fun _ => h⟩
  · obtain ⟨⟨⟩, hc, hok⟩ := bind_eq_ok_iff.mp hok
    obtain ⟨-, -, hok⟩ := bind_eq_ok_iff.mp hok
    rw [heq, h.updateWhere_iff (ofFilter_eq_ok_iff.mp hc) (ofDatabase_eq_ok_iff.mp hok)]
    simp only [Except.ok.injEq, exists_and_left, exists_eq_left']

/-- What is overwritten is given texts. -/
theorem Static.isLegible_overwriteWhere (f : Filter) (a : s.Data) :
    (Static.overwriteWhere f a d).2.IsLegible s := by
  refine (isLegible_updateWhere_iff h f _).mpr ?_
  rintro ⟨n, column, bytes, -, -, hblob⟩
  obtain ⟨text, htext⟩ := givesTexts_changesOf a _ (Changes.mem_terms_of_value? hblob)
  cases htext

theorem Static.isLegible_deleteWhere (f : Filter) :
    (Static.deleteWhere s.Data f d).2.IsLegible s := by
  refine Step.transaction_preserves h fun n d' hok => ?_
  obtain ⟨-, -, hok⟩ := bind_eq_ok_iff.mp hok
  exact h.deleteWhere (ofDatabase_eq_ok_iff.mp hok)

theorem Static.isLegible_delete (id : String) : (Static.delete s.Data id d).2.IsLegible s :=
  Step.transaction_preserves h fun _ _ hok => h.deleteWhere (ofDatabase_eq_ok_iff.mp hok)

end

section

variable {l : Ledger} (h : l.cluster.primary.IsLegible s)
include h

/-- All rows can be read after an operation that gives no values of its own to columns. -/
theorem Static.Operation.isLegible_run (o : Static.Operation s.Data)
    (ho : ∀ f c, o ≠ .updateWhere f c) : (o.run l).2.cluster.primary.IsLegible s := by
  have hread : ∀ {d}, d = l.cluster.primary → d.IsLegible s := fun heq => heq ▸ h
  cases o with
  | add record => exact insertMany_preserves (fun hnew h hok => h.insertRows hnew hok) h _
  | addBatch size records =>
    exact insertBatch_preserves (fun hnew h hok => h.insertRows hnew hok) h size _
  | overwriteWhere f record => exact isLegible_overwriteWhere h f record
  | updateWhere f c => exact absurd rfl (ho f c)
  | delete id => exact isLegible_delete h id
  | deleteWhere f => exact isLegible_deleteWhere h f
  | first k f => exact hread (Ledger.primary_onRead l k _)
  | allWhere k f => exact hread (Ledger.primary_onRead l k _)
  | get k id => exact hread (Ledger.primary_onRead l k _)

/-- All rows can be read after an operation, unless it gives bytes to some. -/
theorem Operation.isLegible_step_iff {hs : Histories} (hl : l.Keeps hs) (o : Operation) :
    (o.step l).cluster.primary.IsLegible s ↔ ¬o.StoresBytes s l := by
  by_cases hupdate : ∃ f c, o = .static s (.updateWhere f c)
  · obtain ⟨f, c, rfl⟩ := hupdate
    rw [storesBytes_updateWhere_iff, step, run, Static.Operation.run, Ledger.updateWhere,
      Ledger.primary_onPrimary, Static.isLegible_updateWhere_iff h, Ledger.outcome_onPrimary]
  · -- Any other operation gives no bytes, so all rows have to be legible after it.
    refine ⟨?_, fun _ => ?_⟩
    · rintro - ⟨f, c, n, column, bytes, rfl, -⟩
      exact hupdate ⟨f, c, rfl⟩
    · by_cases hstatic : ∃ o' : Static.Operation s.Data, o = .static s o'
      · obtain ⟨o, rfl⟩ := hstatic
        exact o.isLegible_run h fun f c heq => hupdate ⟨f, c, by rw [heq]⟩
      · -- Nothing but an operation on the kind changes its rows.
        rw [Database.IsLegible, hl.staticRows_step fun o' heq => hstatic ⟨o', heq⟩]
        exact h

end

namespace Ledger

variable {l : Ledger}

/-- All records of the kind that the primary has can be read from it. -/
def IsListable (s : StaticKind) (l : Ledger) : Prop :=
  ∃ records, (l.allWhere s.Data .strong .all).1 = .ok records

theorem isListable_iff {hs : Histories} (hl : l.Keeps hs) :
    l.IsListable s ↔ l.cluster.primary.IsLegible s := by
  simp only [IsListable, allWhere, outcome_onRead_strong]
  exact Database.exists_allWhere_iff (hl.isMigrated.exists_staticRows s)

/-- Rows that can be read can still be read after operations none of which gives bytes to one. -/
theorem Keeps.isLegible_after {hs : Histories} (hl : l.Keeps hs)
    (h : l.cluster.primary.IsLegible s) {ops : List Operation}
    (hops : ¬l.Happens (Operation.StoresBytes s) ops) :
    (l.after ops).cluster.primary.IsLegible s := by
  induction ops generalizing l hs with
  | nil => exact h
  | cons o ops ih =>
    rw [Happens, not_or] at hops
    exact ih (hl.step o) ((Operation.isLegible_step_iff h hl o).mpr hops.1) hops.2

/-- Whatever operations are done on an empty primary of the present schema, all records of a kind can be
read for as long as none of the operations gives bytes to one. Where all can be read, those that pass a
filter that is not too long can be, and the operations after which not all can be read are those that give
bytes to one. -/
theorem isListable_after (s : StaticKind) (engine : Engine) (replicas : List Replica) (turn : Nat)
    (supply : Supply) (ops : List Operation) :
    (¬(opened engine replicas turn supply).Happens (Operation.StoresBytes s) ops →
        ((opened engine replicas turn supply).after ops).IsListable s) ∧
      (((opened engine replicas turn supply).after ops).IsListable s →
        (∀ f : Filter, f.validate (Static.filterable s.Data) = .ok () →
          f.terms.length ≤ Database.maxTerms →
          (∃ records, (((opened engine replicas turn supply).after ops).allWhere s.Data .strong f).1 =
            .ok records) ∧
          ∃ first, (((opened engine replicas turn supply).after ops).first? s.Data .strong f).1 =
            .ok first) ∧
        ∀ o : Operation, (((opened engine replicas turn supply).after (ops ++ [o])).IsListable s ↔
          ¬o.StoresBytes s ((opened engine replicas turn supply).after ops))) := by
  have hl := keeps_opened_after engine replicas turn supply ops
  -- What can be read is a matter of the rows on the primary alone.
  rw [isListable_iff hl]
  refine ⟨fun hops => ?_, fun h => ⟨fun f hf hshort => ?_, fun o => ?_⟩⟩
  · have hempty := Database.isLegible_freshOn engine s
    exact (keeps_opened engine replicas turn supply).isLegible_after hempty hops
  · rw [allWhere, first?, outcome_onRead_strong, outcome_onRead_strong]
    exact h.exists_where hf hshort
  · rw [after_append, after_cons, after_nil, isListable_iff (hl.step o)]
    exact Operation.isLegible_step_iff h hl o

/-- A change to no text at all is refused, numbers become texts, and a company can be overwritten and
read again. Bytes that would be given to a company that is not there do no harm. -/
theorem isListable_after_changing :
    let supply : Supply := { ids := toString, times := toString, drawn := 0 }
    let company (name : String) : Company := { id := "", name, createdAt := "", updatedAt := "" }
    let ops : List Operation :=
      [.static .company (.addBatch 1 [company "first", company "second"]),
       .static .company (.updateWhere (.one "id" (.text "0")) ⟨[("name", .null)]⟩),
       .static .company (.updateWhere (.one "name" (.text "first"))
         ⟨[("name", .int 7), ("updated_at", .blob [0]), ("updated_at", .text "now")]⟩),
       .static .company (.updateWhere (.one "id" (.text "2")) ⟨[("name", .blob [0])]⟩)]
    ¬(opened .plain [] 0 supply).Happens (Operation.StoresBytes .company) ops ∧
      ((opened .plain [] 0 supply).after ops).IsListable .company ∧
      (((opened .plain [] 0 supply).after ops).allWhere Company .strong .all).1 = .ok
        [⟨"0", "7", "", "now"⟩, ⟨"1", "second", "", ""⟩] := by
  intro supply company ops
  have hops : ¬(opened .plain [] 0 supply).Happens (Operation.StoresBytes .company) ops := by
    rintro (hbatch | hnull | hname | hnobody | hnothing)
    · obtain ⟨f, c, n, column, bytes, heq, -⟩ := hbatch
      cases heq
    · obtain ⟨n, column, bytes, -, -, hbytes⟩ := Operation.storesBytes_updateWhere_iff.mp hnull
      have hterm := Changes.mem_terms_of_value? hbytes
      simp at hterm
    · -- The later of the two values that are given to the column is the one that counts.
      obtain ⟨n, column, bytes, -, -, hbytes⟩ := Operation.storesBytes_updateWhere_iff.mp hname
      have hterm := Changes.mem_terms_of_value? hbytes
      simp only [List.mem_cons, Prod.mk.injEq, reduceCtorEq, and_false, List.not_mem_nil, or_false,
        false_or] at hterm
      rw [hterm.1] at hbytes
      cases hbytes
    · obtain ⟨n, column, bytes, hok, hpos, -⟩ := Operation.storesBytes_updateWhere_iff.mp hnobody
      have hzero : (((opened .plain [] 0 supply).after (ops.take 3)).updateWhere Company
          (.one "id" (.text "2")) ⟨[("name", .blob [0])]⟩).1 = .ok 0 :=
        mem_toList_toOption_iff.mp (by decide +kernel)
      have hn : 0 = n := Except.ok.inj (hzero.symm.trans hok)
      omega
    · exact hnothing
  have hread : (((opened .plain [] 0 supply).after ops).allWhere Company .strong .all).1 = .ok
      [⟨"0", "7", "", "now"⟩, ⟨"1", "second", "", ""⟩] :=
    mem_toList_toOption_iff.mp (by decide +kernel)
  have hlistable := (isListable_after .company .plain [] 0 supply ops).1 hops
  exact ⟨hops, hlistable, hread⟩

/-- A company whose name is changed to bytes, which succeeds, cannot be read any more. -/
theorem not_isListable_after_bytes :
    let supply : Supply := { ids := toString, times := toString, drawn := 0 }
    let l := (opened .plain [] 0 supply).after
      [.static .company (.add { id := "", name := "a", createdAt := "", updatedAt := "" })]
    let f : Filter := .one "name" (.text "a")
    let c : Changes := ⟨[("name", .blob [98])]⟩
    (l.updateWhere Company f c).1 = .ok 1 ∧
      ¬(l.after [.static .company (.updateWhere f c)]).IsListable .company := by
  intro supply l f c
  refine ⟨mem_toList_toOption_iff.mp (by decide +kernel), ?_⟩
  rintro ⟨records, hok⟩
  have hnone : ((l.after [.static .company (.updateWhere f c)]).allWhere Company .strong
      .all).1.toOption.isNone = true := by decide +kernel
  have hsome := congrArg (fun r => r.toOption.isNone) hok
  exact Bool.noConfusion (hnone.symm.trans hsome)

end Ledger

end Payroll
