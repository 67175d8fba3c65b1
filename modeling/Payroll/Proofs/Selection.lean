import Mathlib.Data.List.Perm.Subperm
import Payroll.Proofs.Legible
/-!
# Changes and deletions touch what a filter reads

Whether a row passes a filter depends on the record in it alone. So the rows that are deleted or changed
are those whose records are read with the same filter, whatever their columns are compared with and
whichever columns are changed. With more terms than may stand together, a filter neither reads nor touches
anything.

## Key results

- `StaticRow.holds_eq_passes`: a row passes a filter if its record does
- `Database.changed_takes`: a row that is changed gets the texts it is given, and keeps the others
- `Static.overwriteWhere_eq`: overwriting gives each column the text of a record
- `Ledger.selects`: what is refused, and what is touched if nothing is
-/

namespace Payroll

open Sql (Changes Filter FilterFault Value)
open Static (passes textGiven textOf)

variable {s : StaticKind} {d : Database} {rows : List StaticRow} {r r' : StaticRow} {f : Filter}
  {c : Changes}

/-! ## Checks -/

/-- The filter has no term, or one that is about no column of the table. -/
def Sql.Filter.Unfit (s : StaticKind) (f : Filter) : Prop :=
  f.terms = [] ∨ ∃ t ∈ f.terms, t.1 ≠ "id" ∧ t.1 ∉ StaticData.columns s.Data

/-- There is no change, or one of what is not to be changed, which the id is among. -/
def Sql.Changes.Unfit (s : StaticKind) (c : Changes) : Prop :=
  c.terms = [] ∨ ∃ t ∈ c.terms, t.1 ∉ StaticData.columns s.Data

theorem Sql.Changes.validate_eq_ok_iff_not_unfit :
    c.validate (StaticData.columns s.Data) = .ok () ↔ ¬c.Unfit s := by
  simp [Changes.validate_eq_ok_iff, Changes.Unfit]

/-- A filter with terms is fit if all of its columns may be filtered by. -/
theorem Sql.Filter.validate_eq_ok_iff_not_unfit (hne : f.terms ≠ []) :
    f.validate (Static.filterable s.Data) = .ok () ↔ ¬f.Unfit s := by
  simp [Filter.validate_eq_ok_iff, Filter.Unfit, hne, Static.filterable, or_iff_not_imp_left]

/-- What is checked before rows are changed or deleted by means of a filter. -/
private theorem exists_guarded_eq (s : StaticKind) (f : Filter) :
    ∃ check : Except FilterFault Unit, Static.guarded s.Data f = StoreFault.ofFilter check ∧
      (check = .ok () ↔ ¬f.Unfit s) := by
  by_cases hempty : f.terms = []
  · refine ⟨.error (.unfiltered (StaticData.table s.Data)), ?_, ?_⟩
    · rw [Static.guarded, hempty]
      rfl
    · simp [Filter.Unfit, hempty]
  · refine ⟨f.validate (Static.filterable s.Data), ?_, Filter.validate_eq_ok_iff_not_unfit hempty⟩
    simp [Static.guarded, hempty]

/-! ## Rows and their records -/

/-- All items are read if each of them is, one after the other. -/
private theorem mapM_eq_ok_iff {ε β γ : Type} {g : β → Except ε γ} {bs : List β} {cs : List γ} :
    bs.mapM g = .ok cs ↔ List.Forall₂ (fun b c => g b = .ok c) bs cs := by
  induction bs generalizing cs with
  | nil =>
    rw [List.forall₂_nil_left_iff, List.mapM_nil, eq_comm]
    exact Except.ok.injEq cs [] ▸ Iff.rfl
  | cons b bs ih =>
    rw [List.mapM_cons, List.forall₂_cons_left_iff]
    constructor
    · intro hok
      obtain ⟨c, hc, hok⟩ := bind_eq_ok_iff.mp hok
      obtain ⟨cs', hcs, hok⟩ := bind_eq_ok_iff.mp hok
      exact ⟨c, cs', hc, ih.mp hcs, (Except.ok.inj hok).symm⟩
    · rintro ⟨c, cs', hc, hcs, rfl⟩
      rw [hc, ih.mpr hcs]
      rfl

/-- An item of one list is related to one of the other. -/
private theorem exists_of_forall₂ {β γ : Type} {R : β → γ → Prop} {bs : List β} {cs : List γ}
    (h : List.Forall₂ R bs cs) {b : β} (hb : b ∈ bs) : ∃ c ∈ cs, R b c := by
  induction h with
  | nil => cases hb
  | cons hR _ ih =>
    rcases List.mem_cons.mp hb with rfl | hb
    · exact ⟨_, List.mem_cons_self, hR⟩
    · obtain ⟨c, hc, hR⟩ := ih hb
      exact ⟨c, List.mem_cons_of_mem _ hc, hR⟩

/-- The texts that are read from cells are all that the cells with a column hold. -/
private theorem zip_texts_of_cellTexts {place : Nat} {columns texts : List String} {cells : List Value}
    (hok : cellTexts place columns cells = .ok texts) :
    columns.zip cells = columns.zip (texts.map .text) := by
  induction columns generalizing place cells texts with
  | nil => rfl
  | cons column columns ih =>
    cases cells with
    | nil =>
      rw [cellTexts] at hok
      · rw [← Except.ok.inj hok, List.map_nil]
      · simp
    | cons cell cells =>
      cases cell with
      | text text =>
        obtain ⟨rest, hrest, rfl⟩ := map_eq_ok_iff.mp hok
        rw [List.zip_cons_cons, List.map_cons, List.zip_cons_cons, ih hrest]
      | null | int | real | blob => cases hok

namespace StaticRow

/-- The record in a row has the row's id and the texts in its columns. -/
theorem zip_cells_of_decode {a : s.Data} (hok : r.decode s.Data = .ok a) :
    r.id = StaticData.id a ∧ (StaticData.columns s.Data).zip r.cells =
      (StaticData.columns s.Data).zip ((StaticData.texts a).map .text) := by
  obtain ⟨texts, htexts, hok⟩ := bind_eq_ok_iff.mp hok
  rw [zip_texts_of_cellTexts htexts]
  split at hok
  · rename_i a' ha'
    obtain rfl := Except.ok.inj hok
    obtain ⟨hid, hsame⟩ := eq_texts_of_ofTexts? ha'
    exact ⟨hid, by rw [hsame]⟩
  · cases hok

/-- A row passes a filter if its record does. -/
theorem holds_eq_passes {a : s.Data} (hok : r.decode s.Data = .ok a) (f : Filter) :
    f.holds (staticColumns s.Data) r.values = passes f a := by
  obtain ⟨hid, hcells⟩ := zip_cells_of_decode hok
  have hzip : (staticColumns s.Data).zip r.values =
      (staticColumns s.Data).zip (ofData a).values := by
    simp only [staticColumns, values, ofData, List.map_cons, List.zip_cons_cons, List.zip_map_left, hid,
      hcells]
  rw [passes, Filter.holds, Filter.holds]
  unfold termHolds cell?
  rw [hzip]

/-- A row passes a filter if its record is one of those that are read from the rows that pass. -/
theorem holds_iff_of_listed {records : List s.Data}
    (hlisted : List.Forall₂ (fun r a => r.decode s.Data = .ok a)
      (rows.filter fun r => f.holds (staticColumns s.Data) r.values) records) (hr : r ∈ rows) :
    f.holds (staticColumns s.Data) r.values = true ↔ ∃ a ∈ records, r.decode s.Data = .ok a := by
  constructor
  · intro hpasses
    exact exists_of_forall₂ hlisted (List.mem_filter.mpr ⟨hr, hpasses⟩)
  · -- The record has been read from a row that passes, and both rows pass as it does.
    rintro ⟨a, ha, hok⟩
    obtain ⟨r', hr', hok'⟩ := exists_of_forall₂ (List.Forall₂.flip (R := fun a r => _) hlisted) ha
    rw [holds_eq_passes hok, ← holds_eq_passes hok']
    exact (List.mem_filter.mp hr').2

/-- The value that a row has in a column. -/
def value? (s : StaticKind) (r : StaticRow) (column : String) : Option Value :=
  ((StaticData.columns s.Data).zip r.cells).lookup column

/-- The row has taken the values of the changes, and is else the row that it was. -/
structure Takes (s : StaticKind) (c : Changes) (r r' : StaticRow) : Prop where
  place : r'.place = r.place
  id : r'.id = r.id
  length : r'.cells.length = (StaticData.columns s.Data).length
  given : ∀ t ∈ c.terms, r'.value? s t.1 = some t.2
  kept : ∀ column ∈ StaticData.columns s.Data, column ∉ c.terms.map (·.1) →
    r'.value? s column = r.value? s column

end StaticRow

/-! ## Changes of texts -/

theorem Sql.Value.isNull_of_isText {v : Value} (hv : v.isText = true) : v.isNull = false := by
  cases v with
  | text => rfl
  | null | int | real | blob => cases hv

/-- A column that is named gets a value. -/
theorem Sql.Changes.exists_value? {column : String} (hcolumn : column ∈ c.terms.map (·.1)) :
    ∃ v, c.value? column = some v ∧ (column, v) ∈ c.terms := by
  rw [← List.mem_reverse, ← List.map_reverse] at hcolumn
  obtain ⟨v, hv⟩ := Static.exists_lookup hcolumn
  exact ⟨v, hv, mem_terms_of_value? hv⟩

/-- A column that is named once gets the value that is given there. -/
theorem Sql.Changes.value?_of_mem (hnodup : (c.terms.map (·.1)).Nodup) {t : String × Value}
    (ht : t ∈ c.terms) : c.value? t.1 = some t.2 := by
  obtain ⟨v, hv, hmem⟩ := exists_value? (List.mem_map_of_mem ht)
  have hsame : (t.1, v) = t := List.inj_on_of_nodup_map hnodup hmem ht rfl
  rw [hv, ← hsame]

namespace Database

/-- What a row becomes depends on the values that its columns get. -/
theorem changed_congr {c' : Changes}
    (hsame : ∀ column ∈ StaticData.columns s.Data, c.value? column = c'.value? column)
    (r : StaticRow) : changed s.Data c r = changed s.Data c' r := by
  rw [changed, changed]
  congr 1
  refine List.map_congr_left fun p hp => ?_
  obtain ⟨column, cell⟩ := p
  simp only [hsame column (List.of_mem_zip hp).1]

/-- Each column of a row that is changed has the value that it is given, or else the one that it had. -/
theorem value?_changed (c : Changes) (r : StaticRow) (column : String) :
    (changed s.Data c r).value? s column = (r.value? s column).map fun cell =>
      ((c.value? column).map fun v => v.bound.asText).getD cell := by
  rw [StaticRow.value?, StaticRow.value?, zip_cells_changed]
  exact Static.lookup_map (fun column cell =>
    ((c.value? column).map fun v => v.bound.asText).getD cell) column _

section

variable (hr : r.IsLegible s) (hc : ∀ t ∈ c.terms, ∃ text, t.2 = Value.text text)
include hr hc

/-- A row that can be read has texts in all columns once it is given texts. -/
theorem isLegible_changed : (changed s.Data c r).IsLegible s := by
  refine ⟨by simp [changed, hr.1], fun p hp => ?_⟩
  rw [zip_cells_changed] at hp
  obtain ⟨q, hq, rfl⟩ := List.mem_map.mp hp
  rw [Changes.value?_eq_textGiven hc]
  cases textGiven c q.1 with
  | none => exact hr.2 q hq
  | some text => rfl

theorem emptyColumn?_changed : emptyColumn? s.Data (changed s.Data c r) = none := by
  rw [emptyColumn?, Option.map_eq_none_iff, List.find?_eq_none]
  rintro ⟨column, v⟩ hp
  have hnull : v.isNull = false := Value.isNull_of_isText ((isLegible_changed hr hc).2 _ hp)
  simp [hnull]

/-- A row that is changed gets the texts that it is given, and keeps what else it has. -/
theorem changed_takes (hcolumns : ∀ t ∈ c.terms, t.1 ∈ StaticData.columns s.Data)
    (hnodup : (c.terms.map (·.1)).Nodup) : r.Takes s c (changed s.Data c r) where
  place := rfl
  id := rfl
  length := by
    have := hr.1
    simp [changed, this]
  given t ht := by
    obtain ⟨text, htext⟩ := hc t ht
    -- The row has a value in the column, as it has one in each.
    have hcolumn := hcolumns t ht
    rw [← List.map_fst_zip hr.1] at hcolumn
    obtain ⟨cell, hcell⟩ : ∃ cell, r.value? s t.1 = some cell := Static.exists_lookup hcolumn
    rw [value?_changed, hcell, Changes.value?_of_mem hnodup ht, htext]
    rfl
  kept column _ hcolumn := by
    have hnone : c.value? column = none := by
      cases hv : c.value? column with
      | none => rfl
      | some v => exact absurd (List.mem_map_of_mem (Changes.mem_terms_of_value? hv)) hcolumn
    rw [value?_changed, hnone]
    exact Option.map_id'

end

/-! ## Statements -/

theorem length_columns_le (s : StaticKind) : (StaticData.columns s.Data).length ≤ maxColumns := by
  cases s <;> decide

/-- Changes that name each column at most once are no more than a statement may make. -/
theorem length_changes_le (hcolumns : ∀ t ∈ c.terms, t.1 ∈ StaticData.columns s.Data)
    (hnodup : (c.terms.map (·.1)).Nodup) : c.terms.length ≤ maxColumns := by
  have hsubset : c.terms.map (·.1) ⊆ StaticData.columns s.Data := by
    intro column hcolumn
    obtain ⟨t, ht, rfl⟩ := List.mem_map.mp hcolumn
    exact hcolumns t ht
  have hle := (List.Nodup.subperm hnodup hsubset).length_le
  rw [List.length_map] at hle
  exact Nat.le_trans hle (length_columns_le s)

/-- Rows that pass a filter can be given texts, each of them where it stands, unless the filter is too
long. -/
theorem updateWhere_eq (hd : d.staticRows s = some rows) (hlegible : ∀ r ∈ rows, r.IsLegible s)
    (hc : ∀ t ∈ c.terms, ∃ text, t.2 = Value.text text) (hfew : c.terms.length ≤ maxColumns) (f : Filter) :
    d.updateWhere s.Data f c = if maxTerms < f.terms.length then .error .tooDeep
      else .ok ((rows.filter fun r => f.holds (staticColumns s.Data) r.values).length,
        StaticTable.setRows s.Data (some (rows.map fun r =>
          if f.holds (staticColumns s.Data) r.values then changed s.Data c r else r)) d) := by
  have hfull : ((rows.filter fun r => f.holds (staticColumns s.Data) r.values).map
      (changed s.Data c)).findSome? (emptyColumn? s.Data) = none := by
    rw [List.findSome?_eq_none_iff]
    intro r' hr'
    obtain ⟨r, hr, rfl⟩ := List.mem_map.mp hr'
    exact emptyColumn?_changed (hlegible r (List.mem_filter.mp hr).1) hc
  rw [updateWhere, checkUpdate_eq hfew]
  split
  · rfl
  · simp only [statics_eq_ok_iff.mpr hd, bind, Except.bind, hfull, List.length_map]
    rfl

/-- Rows that pass a filter can be deleted, unless the filter is too long. -/
theorem deleteWhere_eq (hd : d.staticRows s = some rows) (f : Filter) :
    d.deleteWhere s.Data f = if maxTerms < f.terms.length then .error .tooDeep
      else .ok ((rows.filter fun r => f.holds (staticColumns s.Data) r.values).length,
        StaticTable.setRows s.Data
          (some (rows.filter fun r => !f.holds (staticColumns s.Data) r.values)) d) := by
  rw [deleteWhere, depthAfter_filter (Nat.zero_le _)]
  split
  · rfl
  · simp only [statics_eq_ok_iff.mpr hd, bind, Except.bind, List.partition_eq_filter_filter]
    rfl

end Database

/-! ## Steps -/

namespace Static

/-- A transaction that checks first is refused if what it checks is not right, and else does what its
statement does. -/
private theorem refused_transaction_iff {β : Type} {check : Except FilterFault Unit}
    {statement : Database → Except DatabaseFault (β × Database)} {d : Database} :
    (∃ reason, Step.transaction (fun d => do
      StoreFault.ofFilter check
      StoreFault.ofDatabase (statement d)) d = (.error (.invalidFilter reason), d)) ↔
      check ≠ .ok () := by
  cases check with
  | error reason =>
    refine ⟨fun _ => nofun, fun _ => ⟨reason, rfl⟩⟩
  | ok =>
    refine ⟨?_, fun hne => absurd rfl hne⟩
    rintro ⟨reason, h⟩
    have h : Step.transaction (fun d => StoreFault.ofDatabase (statement d)) d =
      (.error (.invalidFilter reason), d) := h
    cases hstatement : statement d with
    | error fault =>
      simp only [Step.transaction, hstatement] at h
      cases (Prod.mk.inj h).1
    | ok ending =>
      simp only [Step.transaction, hstatement] at h
      cases (Prod.mk.inj h).1

theorem refused_deleteWhere_iff :
    (∃ reason, Static.deleteWhere s.Data f d = (.error (.invalidFilter reason), d)) ↔ f.Unfit s := by
  obtain ⟨check, hguarded, hcheck⟩ := exists_guarded_eq s f
  rw [← not_iff_not, ← hcheck, ← not_iff_not, not_not, deleteWhere, hguarded]
  exact refused_transaction_iff

theorem refused_updateWhere_iff :
    (∃ reason, Static.updateWhere s.Data f c d = (.error (.invalidFilter reason), d)) ↔
      f.Unfit s ∨ c.Unfit s := by
  obtain ⟨check, hguarded, hcheck⟩ := exists_guarded_eq s f
  have hboth : (c.validate (StaticData.columns s.Data) >>= fun _ => check) ≠ .ok () ↔
      f.Unfit s ∨ c.Unfit s := by
    have hchanges := Changes.validate_eq_ok_iff_not_unfit (s := s) (c := c)
    rw [ne_eq, bind_eq_ok_iff]
    simp only [hchanges, hcheck, exists_const]
    tauto
  have hone : Static.updateWhere s.Data f c = Step.transaction (fun d => do
      StoreFault.ofFilter (c.validate (StaticData.columns s.Data) >>= fun _ => check)
      StoreFault.ofDatabase (d.updateWhere s.Data f c)) := by
    -- The two checks are one.
    rw [updateWhere, hguarded]
    cases c.validate (StaticData.columns s.Data) <;> rfl
  rw [← hboth, hone]
  exact refused_transaction_iff

/-- A change that is not refused is what its statement is. -/
theorem updateWhere_eq_transaction (hf : ¬f.Unfit s) (hc : ¬c.Unfit s) :
    Static.updateWhere s.Data f c =
      Step.transaction fun d => StoreFault.ofDatabase (d.updateWhere s.Data f c) := by
  obtain ⟨check, hguarded, hcheck⟩ := exists_guarded_eq s f
  rw [updateWhere, hguarded, hcheck.mpr hf, Changes.validate_eq_ok_iff_not_unfit.mpr hc]
  rfl

/-- A deletion that is not refused is what its statement is. -/
theorem deleteWhere_eq_transaction (hf : ¬f.Unfit s) : Static.deleteWhere s.Data f =
    Step.transaction fun d => StoreFault.ofDatabase (d.deleteWhere s.Data f) := by
  obtain ⟨check, hguarded, hcheck⟩ := exists_guarded_eq s f
  rw [deleteWhere, hguarded, hcheck.mpr hf]
  rfl

/-- A record is overwritten by the changes that give every column the text that it has in the record. -/
theorem overwriteWhere_eq (f : Filter) {a : s.Data} (hfew : c.terms.length ≤ Database.maxColumns)
    (hcolumns : ∀ column, column ∈ c.terms.map (·.1) ↔ column ∈ StaticData.columns s.Data)
    (hvalues : ∀ t ∈ c.terms, (textOf a t.1).map .text = some t.2) :
    overwriteWhere f a = updateWhere s.Data f c := by
  have hvalid : c.validate (StaticData.columns s.Data) = .ok () := by
    refine Changes.validate_eq_ok_iff.mpr ⟨?_, fun t ht => (hcolumns t.1).mp (List.mem_map_of_mem ht)⟩
    rintro hnil
    have hname : "name" ∈ StaticData.columns s.Data := by cases s <;> decide
    rw [← hcolumns, hnil] at hname
    cases hname
  have hvalid' : (changesOf a).validate (StaticData.columns s.Data) = .ok () := by
    refine Changes.validate_eq_ok_iff.mpr ⟨by cases s <;> exact List.cons_ne_nil _ _, fun t ht => ?_⟩
    exact (List.of_mem_zip ht).1
  have hfew' : (changesOf a).terms.length ≤ Database.maxColumns := by
    rw [changesOf, List.length_zip]
    exact Nat.le_trans (Nat.min_le_left ..) (Database.length_columns_le s)
  have hcheck : checkUpdate (changesOf a) f = checkUpdate c f := by
    rw [checkUpdate_eq hfew', checkUpdate_eq hfew]
  -- The two give the same value to each column.
  have hsame : Database.changed s.Data (changesOf a) = Database.changed s.Data c := by
    funext r
    refine Database.changed_congr (fun column hcolumn => ?_) r
    obtain ⟨v, hv, hmem⟩ := Changes.exists_value? ((hcolumns column).mpr hcolumn)
    rw [Changes.value?_eq_textGiven (givesTexts_changesOf a), textGiven_changesOf, hv]
    exact hvalues (column, v) hmem
  funext d
  simp only [overwriteWhere, updateWhere, hvalid, hvalid', Database.updateWhere, hcheck, hsame]

end Static

/-! ## Operations -/

namespace Ledger

variable {l : Ledger}

/-- A step is refused on the primary if it is refused. -/
private theorem refused_onPrimary_iff {β : Type} {step : Step β} :
    (∃ reason, l.onPrimary step = (.error (.invalidFilter reason), l)) ↔
      ∃ reason, step l.cluster.primary = (.error (.invalidFilter reason), l.cluster.primary) := by
  constructor
  · rintro ⟨reason, h⟩
    refine ⟨reason, Prod.ext ?_ ?_⟩
    · rw [← outcome_onPrimary, h]
    · rw [← primary_onPrimary, h]
  · rintro ⟨reason, h⟩
    refine ⟨reason, ?_⟩
    rw [onPrimary, Cluster.onPrimary, h]

/-- What is read and what is touched by means of one filter. The rows that are picked are those of the
records that are read. -/
structure Picks (s : StaticKind) (l : Ledger) (rows : List StaticRow) (f : Filter)
    (picked : StaticRow → Bool) (records : List s.Data) : Prop where
  read : l.allWhere s.Data .strong f = (.ok records, l)
  listed : List.Forall₂ (fun r a => r.decode s.Data = .ok a) (rows.filter picked) records
  picked_iff : ∀ r ∈ rows, picked r = true ↔ ∃ a ∈ records, r.decode s.Data = .ok a
  deleted : l.deleteWhere s.Data f =
    (.ok records.length, l.withRows s (rows.filter fun r => !picked r))
  updated : ∀ c : Changes, ¬c.Unfit s → (∀ t ∈ c.terms, ∃ text, t.2 = Value.text text) →
    (c.terms.map (·.1)).Nodup → ∃ rows',
      l.updateWhere s.Data f c = (.ok records.length, l.withRows s rows') ∧
        List.Forall₂ (fun r r' => if picked r then r.Takes s c r' else r' = r) rows rows'

/-- What is neither read nor touched by means of a filter that is too long. -/
structure Spares (s : StaticKind) (l : Ledger) (f : Filter) : Prop where
  read : l.allWhere s.Data .strong f = (.error (.database .tooDeep), l)
  deleted : l.deleteWhere s.Data f = (.error (.database .tooDeep), l)
  updated : ∀ c : Changes, ¬c.Unfit s → (∀ t ∈ c.terms, ∃ text, t.2 = Value.text text) →
    (c.terms.map (·.1)).Nodup → l.updateWhere s.Data f c = (.error (.database .tooDeep), l)

/-- What changes and deletions by means of filters do to a table with these rows. -/
structure Selects (s : StaticKind) (l : Ledger) (rows : List StaticRow) : Prop where
  deleteRefused : ∀ f : Filter,
    (∃ reason, l.deleteWhere s.Data f = (.error (.invalidFilter reason), l)) ↔ f.Unfit s
  updateRefused : ∀ (f : Filter) (c : Changes),
    (∃ reason, l.updateWhere s.Data f c = (.error (.invalidFilter reason), l)) ↔
      f.Unfit s ∨ c.Unfit s
  picks : ∀ f : Filter, ¬f.Unfit s → f.terms.length ≤ Database.maxTerms →
    ∃ picked records, l.Picks s rows f picked records
  spares : ∀ f : Filter, ¬f.Unfit s → Database.maxTerms < f.terms.length → l.Spares s f
  overwritten : ∀ (f : Filter) (a : s.Data) (c : Changes), c.terms.length ≤ Database.maxColumns →
    (∀ column, column ∈ c.terms.map (·.1) ↔ column ∈ StaticData.columns s.Data) →
    (∀ t ∈ c.terms, (textOf a t.1).map .text = some t.2) →
      l.overwriteWhere f a = l.updateWhere s.Data f c

section

variable (hd : l.cluster.primary.staticRows s = some rows) (hlegible : ∀ r ∈ rows, r.IsLegible s)
  (hf : ¬f.Unfit s)
include hd hlegible hf

/-- A filter picks the same rows whether it is for reading, for deleting or for changing. -/
theorem picks_of_legible (hshort : f.terms.length ≤ Database.maxTerms) :
    ∃ picked records, l.Picks s rows f picked records := by
  have hdecode : ∀ r ∈ rows.filter fun r => f.holds (staticColumns s.Data) r.values,
      ∃ a, r.decode s.Data = .ok a := fun r hr =>
    StaticRow.exists_decode_iff.mpr (hlegible r (List.mem_filter.mp hr).1)
  obtain ⟨records, hrecords⟩ := exists_mapM_eq_ok_iff.mpr hdecode
  have hlisted := mapM_eq_ok_iff.mp hrecords
  have hlength := hlisted.length_eq
  have hlong : ¬Database.maxTerms < f.terms.length := Nat.not_lt.mpr hshort
  refine ⟨fun r => f.holds (staticColumns s.Data) r.values, records, ?_, hlisted, ?_, ?_, ?_⟩
  · have hvalid : f.validate (Static.filterable s.Data) = .ok () :=
      (Filter.validate_eq_ok_iff_not_unfit fun hempty => hf (Or.inl hempty)).mpr hf
    have hread : Database.allWhere s.Data l.cluster.primary f = .ok records := by
      rw [Database.allWhere, Database.rowsWhere_eq hd, if_neg hlong]
      exact hrecords
    rw [allWhere, onRead_strong, Static.allWhere, hvalid, hread]
    rfl
  · exact fun r hr => StaticRow.holds_iff_of_listed hlisted hr
  · have hdelete := Database.deleteWhere_eq hd f
    rw [if_neg hlong] at hdelete
    rw [← hlength, deleteWhere, onPrimary, Cluster.onPrimary, Static.deleteWhere_eq_transaction hf]
    simp only [Step.transaction, hdelete]
    rfl
  · intro c hc htexts hnodup
    have hcolumns := (Changes.validate_eq_ok_iff.mp (Changes.validate_eq_ok_iff_not_unfit.mpr hc)).2
    have hupdate := Database.updateWhere_eq hd hlegible htexts
      (Database.length_changes_le hcolumns hnodup) f
    rw [if_neg hlong] at hupdate
    refine ⟨rows.map fun r => if f.holds (staticColumns s.Data) r.values then
      Database.changed s.Data c r else r, ?_, ?_⟩
    · rw [← hlength, updateWhere, onPrimary, Cluster.onPrimary, Static.updateWhere_eq_transaction hf hc]
      simp only [Step.transaction, hupdate]
      rfl
    · rw [List.forall₂_map_right_iff, List.forall₂_same]
      intro r hr
      split
      · exact Database.changed_takes (hlegible r hr) htexts hcolumns hnodup
      · rfl

/-- A filter that is too long is refused by every statement, and nothing is different then. -/
theorem spares_of_long (hlong : Database.maxTerms < f.terms.length) : l.Spares s f where
  read := by
    have hvalid : f.validate (Static.filterable s.Data) = .ok () :=
      (Filter.validate_eq_ok_iff_not_unfit fun hempty => hf (Or.inl hempty)).mpr hf
    have hread : Database.allWhere s.Data l.cluster.primary f = .error .tooDeep := by
      rw [Database.allWhere, Database.rowsWhere_eq hd, if_pos hlong]
      rfl
    rw [allWhere, onRead_strong, Static.allWhere, hvalid, hread]
    rfl
  deleted := by
    have hdelete := Database.deleteWhere_eq hd f
    rw [if_pos hlong] at hdelete
    rw [deleteWhere, onPrimary, Cluster.onPrimary, Static.deleteWhere_eq_transaction hf]
    simp only [Step.transaction, hdelete]
    rfl
  updated c hc htexts hnodup := by
    have hcolumns := (Changes.validate_eq_ok_iff.mp (Changes.validate_eq_ok_iff_not_unfit.mpr hc)).2
    have hupdate := Database.updateWhere_eq hd hlegible htexts
      (Database.length_changes_le hcolumns hnodup) f
    rw [if_pos hlong] at hupdate
    rw [updateWhere, onPrimary, Cluster.onPrimary, Static.updateWhere_eq_transaction hf hc]
    simp only [Step.transaction, hupdate]
    rfl

end

/-- Whatever rows a table has, changes and deletions by means of a filter are refused if the filter or the
changes are unfit for it. Else they touch the rows of the records that are read by means of the filter. -/
theorem selects (hd : l.cluster.primary.staticRows s = some rows)
    (hreadable : ∀ r ∈ rows, ∃ a, r.decode s.Data = .ok a) : l.Selects s rows where
  deleteRefused f := by
    rw [← Static.refused_deleteWhere_iff (d := l.cluster.primary)]
    exact refused_onPrimary_iff
  updateRefused f c := by
    rw [← Static.refused_updateWhere_iff (d := l.cluster.primary)]
    exact refused_onPrimary_iff
  picks f := picks_of_legible hd fun r hr => StaticRow.exists_decode_iff.mp (hreadable r hr)
  spares f := spares_of_long hd fun r hr => StaticRow.exists_decode_iff.mp (hreadable r hr)
  overwritten f a c hfew hcolumns hvalues := by
    rw [overwriteWhere, updateWhere, Static.overwriteWhere_eq f hfew hcolumns hvalues]

/-- Two companies have a number for a name, which is what the filter asks for, and get another name. -/
theorem selects_numbered :
    let row (place : Nat) (id name : String) : StaticRow :=
      { place, id, cells := [.text name, .text "", .text ""] }
    let rows := [row 1 "a" "7", row 2 "b" "8", row 5 "c" "7"]
    let l : Ledger :=
      { cluster := { primary := { Database.fresh with companies := some rows }, replicas := [], turn := 0 }
        supply := { ids := toString, times := toString, drawn := 0 } }
    let f : Filter := .one "name" (.int 7)
    let c : Changes := ⟨[("name", .text "8")]⟩
    l.cluster.primary.staticRows .company = some rows ∧
      (∀ r ∈ rows, ∃ a, r.decode StaticKind.company.Data = .ok a) ∧
      (l.deleteWhere Company f).1 = .ok 2 ∧
      (l.updateWhere Company f c).1 = .ok 2 ∧
      ∃ reason, l.updateWhere Company f ⟨[("id", .text "d")]⟩ = (.error (.invalidFilter reason), l) := by
  intro row rows l f c
  have hd : l.cluster.primary.staticRows .company = some rows := rfl
  have hreadable : ∀ r ∈ rows, ∃ a, r.decode StaticKind.company.Data = .ok a := by
    intro r hr
    simp only [rows, List.mem_cons, List.not_mem_nil, or_false] at hr
    rcases hr with rfl | rfl | rfl <;> exact ⟨_, rfl⟩
  have hselects := selects hd hreadable
  have hf : ¬f.Unfit .company := by
    simp [f, Filter.one, Filter.Unfit, StaticData.columns]
  have hc : ¬c.Unfit .company := by
    simp [c, Changes.Unfit, StaticData.columns]
  obtain ⟨picked, records, hpicks⟩ := hselects.picks f hf (by decide)
  -- Two records are read.
  have hlength : records.length = 2 := by
    have hread : (l.allWhere Company .strong f).1 = .ok [⟨"a", "7", "", ""⟩, ⟨"c", "7", "", ""⟩] := by
      decide +kernel
    have hrecords := (congrArg Prod.fst hpicks.read).symm.trans hread
    rw [Except.ok.inj hrecords]
    rfl
  refine ⟨hd, hreadable, ?_, ?_, ?_⟩
  · exact (congrArg Prod.fst hpicks.deleted).trans (congrArg Except.ok hlength)
  · obtain ⟨rows', hupdated, -⟩ := hpicks.updated c hc (by simp [c]) (by simp [c])
    exact (congrArg Prod.fst hupdated).trans (congrArg Except.ok hlength)
  · refine (hselects.updateRefused f _).mpr (Or.inr (Or.inr ⟨_, List.mem_singleton_self _, ?_⟩))
    simp [StaticData.columns]

/-- A term that the only company passes deletes nothing where it stands too often. -/
theorem not_picks_of_long :
    let row : StaticRow := { place := 1, id := "a", cells := [.text "7", .text "", .text ""] }
    let l : Ledger :=
      { cluster := { primary := { Database.fresh with companies := some [row] }, replicas := [], turn := 0 }
        supply := { ids := toString, times := toString, drawn := 0 } }
    let f : Filter := ⟨List.replicate 999 ("name", .text "7")⟩
    ¬f.Unfit .company ∧ (∀ t ∈ f.terms, (row.value? .company t.1) = some t.2) ∧
      l.deleteWhere Company f = (.error (.database .tooDeep), l) := by
  intro row l f
  have hterm : ∀ t ∈ f.terms, t = ("name", .text "7") := fun t => List.eq_of_mem_replicate
  have hf : ¬f.Unfit .company := by
    rintro (hempty | ⟨t, ht, hid, hcolumn⟩)
    · exact nomatch hempty
    · rw [hterm t ht] at hcolumn
      exact hcolumn (by decide)
  refine ⟨hf, fun t ht => ?_, ?_⟩
  · rw [hterm t ht]
    rfl
  · have hlong : Database.maxTerms < f.terms.length := by
      rw [List.length_replicate]
      decide
    have hd : l.cluster.primary.staticRows .company = some [row] := rfl
    have hlegible : ∀ r ∈ [row], r.IsLegible .company := by
      intro r hr
      rw [List.mem_singleton.mp hr]
      exact StaticRow.exists_decode_iff.mp ⟨_, rfl⟩
    exact (spares_of_long hd hlegible hf hlong).deleted

end Ledger

end Payroll
