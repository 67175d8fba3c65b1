import Payroll.Proofs.Kind
import Payroll.Proofs.Outcome
import Payroll.Store.Static
/-!
# Writing to a table that is changed in place

Whatever is done to records of a kind that is changed in place, nothing but the rows of its own table
becomes different. Inserting never takes a row away.

## Key results

- `insertRows_eq_ok_iff`, `updateWhere_eq_ok`, `deleteWhere_eq_ok`: what a statement that succeeds has done
- `insertMany_preserves`, `insertBatch_preserves`: what one statement that inserts preserves, many do
- `insertMany_snd`: inserting leaves the rows that are there and adds more
- `updateWhere_snd`, `deleteWhere_snd`, `insertBatch_snd`: what else changes a table changes no other one
-/

namespace Payroll

open Sql (Changes Filter)

variable {α : Type} [StaticTable α] {d d' : Database} {rs : List StaticRow}

/-! ## Statements -/

namespace Database

/-- The table has other rows, and nothing else is different. -/
def Reshaped (α : Type) [StaticTable α] (d d' : Database) : Prop :=
  ∃ rows, d' = StaticTable.setRows α (some rows) d

/-- The table has more rows after those that are there, and nothing else is different. -/
def Extended (α : Type) [StaticTable α] (d d' : Database) : Prop :=
  ∃ rows more, StaticTable.rows? α d = some rows ∧
    d' = StaticTable.setRows α (some (rows ++ more)) d

theorem Extended.reshaped (h : Extended α d d') : Reshaped α d d' := by
  obtain ⟨rows, more, -, heq⟩ := h
  exact ⟨_, heq⟩

theorem Extended.refl (hd : StaticTable.rows? α d = some rs) : Extended α d d := by
  refine ⟨rs, [], hd, ?_⟩
  rw [List.append_nil, ← hd, StaticTable.setRows_rows?]

theorem Extended.trans {d'' : Database} (h : Extended α d d') (h' : Extended α d' d'') :
    Extended α d d'' := by
  obtain ⟨rows, more, hd, rfl⟩ := h
  obtain ⟨rows', more', hd', rfl⟩ := h'
  rw [StaticTable.rows?_setRows, Option.some.injEq] at hd'
  subst hd'
  exact ⟨rows, more ++ more', hd, by rw [StaticTable.setRows_setRows, List.append_assoc]⟩

/-- The rows that a statement on the table sees. -/
theorem statics_eq_ok_iff : statics α d = .ok rs ↔ StaticTable.rows? α d = some rs := by
  rw [statics]
  split
  · rename_i rows hrows
    simp [hrows]
  · rename_i hrows
    simp [hrows]

/-- The rows that pass a filter are read unless it is too long, and then no table is looked at. -/
theorem rowsWhere_eq (hd : StaticTable.rows? α d = some rs) (f : Filter) :
    rowsWhere α d f = if maxTerms < f.terms.length then .error .tooDeep
      else .ok (rs.filter fun r => f.holds (staticColumns α) r.values) := by
  rw [rowsWhere, depthAfter_filter (Nat.zero_le _), statics_eq_ok_iff.mpr hd]
  split <;> rfl

/-- Rows that are inserted are kept out by nothing, and stand behind those that were there. -/
theorem insertRows_eq_ok_iff {new : List StaticRow} :
    insertRows α d new = .ok d' ↔ ∃ rows, StaticTable.rows? α d = some rows ∧
      rejectionAmong? α d rows new = none ∧ d' = StaticTable.setRows α (some (withNew rows new)) d := by
  rw [insertRows, bind_eq_ok_iff]
  refine exists_congr fun rows => and_congr statics_eq_ok_iff ?_
  cases rejectionAmong? α d rows new with
  | none => simp [pure, Except.pure, eq_comm]
  | some rejection => exact ⟨nofun, nofun⟩

/-- The new rows before the first that is kept out are kept out by nothing. -/
theorem rejectionAmong?_accepted (d : Database) (rows new : List StaticRow) :
    rejectionAmong? α d rows (accepted α d rows new) = none := by
  induction new generalizing rows with
  | nil => rfl
  | cons r new ih =>
    rw [accepted]
    split
    · rfl
    · rename_i hfree
      rw [rejectionAmong?, Option.not_isSome_iff_eq_none.mp hfree, ih]
      rfl

theorem accepted_isPrefix (d : Database) (rows new : List StaticRow) :
    accepted α d rows new <+: new := by
  induction new generalizing rows with
  | nil => exact List.prefix_rfl
  | cons r new ih =>
    rw [accepted]
    split
    · exact List.nil_prefix
    · exact List.prefix_cons_inj r |>.mpr (ih _)

/-- A statement that could not insert its rows leaves nothing new, or has inserted those before the one
that it was stopped at. -/
theorem leftBy_cases (d : Database) (new : List StaticRow) :
    leftBy α d new = d ∨ ∃ front, front <+: new ∧ insertRows α d front = .ok (leftBy α d new) := by
  rw [leftBy]
  split
  · rename_i rows hrows
    split
    · refine Or.inr ⟨accepted α d rows new, accepted_isPrefix d rows new, ?_⟩
      exact insertRows_eq_ok_iff.mpr ⟨rows, hrows, rejectionAmong?_accepted d rows new, rfl⟩
    · exact Or.inl rfl
    · exact Or.inl rfl
  · exact Or.inl rfl

/-- There is no row before one that comes alone. -/
theorem leftBy_singleton (d : Database) (r : StaticRow) : leftBy α d [r] = d := by
  rw [leftBy]
  split
  · rename_i rows hrows
    rw [rejectionAmong?, rejectionAmong?, Option.or_none, accepted]
    split
    · rename_i hstopped
      have hback : StaticTable.setRows α (some rows) d = d := by
        rw [← hrows]
        exact StaticTable.setRows_rows? d
      rw [hstopped, if_pos Option.isSome_some, withNew, placedAfter, List.append_nil, hback]
    · rfl
    · rfl
  · rfl

/-- Rows that pass a filter are changed where they stand, and none of them has a column without a value
then. -/
theorem updateWhere_eq_ok {f : Filter} {c : Changes} {n : Nat}
    (h : updateWhere α d f c = .ok (n, d')) :
    ∃ rows, StaticTable.rows? α d = some rows ∧
      (∀ r ∈ rows.filter fun r => f.holds (staticColumns α) r.values,
        emptyColumn? α (changed α c r) = none) ∧
      n = (rows.filter fun r => f.holds (staticColumns α) r.values).length ∧
      d' = StaticTable.setRows α (some (rows.map fun r =>
        if f.holds (staticColumns α) r.values then changed α c r else r)) d := by
  obtain ⟨-, -, h⟩ := bind_eq_ok_iff.mp h
  obtain ⟨rows, hrows, h⟩ := bind_eq_ok_iff.mp h
  dsimp only at h
  split at h
  · exact nomatch h
  · rename_i hfull
    obtain ⟨rfl, rfl⟩ := Prod.mk.inj (Except.ok.inj h)
    refine ⟨rows, statics_eq_ok_iff.mp hrows, fun r hr => ?_, List.length_map .., rfl⟩
    exact List.findSome?_eq_none_iff.mp hfull _ (List.mem_map_of_mem hr)

/-- Rows that pass a filter are taken away. -/
theorem deleteWhere_eq_ok {f : Filter} {n : Nat} (h : deleteWhere α d f = .ok (n, d')) :
    ∃ rows, StaticTable.rows? α d = some rows ∧
      n = (rows.filter fun r => f.holds (staticColumns α) r.values).length ∧
      d' = StaticTable.setRows α
        (some (rows.filter fun r => !f.holds (staticColumns α) r.values)) d := by
  obtain ⟨-, -, h⟩ := bind_eq_ok_iff.mp h
  obtain ⟨rows, hrows, h⟩ := bind_eq_ok_iff.mp h
  rw [List.partition_eq_filter_filter] at h
  obtain ⟨rfl, rfl⟩ := Prod.mk.inj (Except.ok.inj h)
  exact ⟨rows, statics_eq_ok_iff.mp hrows, rfl, rfl⟩

theorem extended_of_insertRows {new : List StaticRow} (h : insertRows α d new = .ok d') :
    Extended α d d' := by
  obtain ⟨rows, hrows, -, heq⟩ := insertRows_eq_ok_iff.mp h
  exact ⟨rows, _, hrows, heq⟩

end Database

/-! ## Steps -/

open Database (Extended Reshaped)

/-- What each part of a batch preserves is preserved by all of them. -/
private theorem preserves_of_foldlM {I : Database → Prop} {β : Type}
    {f : Database → β → Except StoreFault Database} (hf : ∀ {d d' b}, I d → f d b = .ok d' → I d')
    (hd : I d) {bs : List β} (h : bs.foldlM f d = .ok d') : I d' := by
  induction bs generalizing d with
  | nil =>
    rw [← Except.ok.inj h]
    exact hd
  | cons b bs ih =>
    rw [List.foldlM_cons] at h
    obtain ⟨d₁, hb, h⟩ := bind_eq_ok_iff.mp h
    exact ih (hf hd hb) h

section Preserved

variable {I : Database → Prop}
  (hI : ∀ {d d' : Database} {new : List StaticRow}, (∀ r ∈ new, ∃ a : α, r = .ofData a) → I d →
    Database.insertRows α d new = .ok d' → I d')
include hI

/-- What a statement that inserts records preserves is preserved by pieces of them, whether all of the
pieces can be inserted or not. -/
private theorem insertPieces_preserves {ps : List (List StaticRow)}
    (hps : ∀ p ∈ ps, ∀ r ∈ p, ∃ a : α, r = .ofData a) (hd : I d) :
    I (Database.insertPieces α d ps).2 := by
  induction ps generalizing d with
  | nil => exact hd
  | cons p ps ih =>
    rw [Database.insertPieces]
    split
    · -- Nothing is tried after a piece that cannot be inserted as a whole.
      rcases Database.leftBy_cases (α := α) d p with heq | ⟨front, hfront, hok⟩
      · rwa [heq]
      · exact hI (fun r hr => hps p List.mem_cons_self r (hfront.mem hr)) hd hok
    · rename_i d' hp
      exact ih (fun q hq => hps q (List.mem_cons_of_mem p hq)) (hI (hps p List.mem_cons_self) hd hp)

theorem Static.insertMany_preserves (hd : I d) (records : List α) :
    I (Static.insertMany records d).2 := by
  have hpieces : I (Database.insertPieces α d
      (Database.pieces (Database.rowsPerStatement α) (records.map StaticRow.ofData))).2 := by
    refine insertPieces_preserves hI (fun p hp r hr => ?_) hd
    have hmem := List.mem_flatten_of_mem hp hr
    rw [Database.flatten_pieces] at hmem
    obtain ⟨a, -, rfl⟩ := List.mem_map.mp hmem
    exact ⟨a, rfl⟩
  rw [Static.insertMany]
  split
  · rename_i d' hmany
    rw [Database.insertMany] at hmany
    rwa [hmany] at hpieces
  · rename_i cause d' hmany
    rw [Database.insertMany] at hmany
    rwa [hmany] at hpieces

theorem Static.insertBatch_preserves (hd : I d) (size : Nat) (records : List α) :
    I (Static.insertBatch size records d).2 := by
  rw [Static.insertBatch]
  refine Step.transaction_preserves hd fun b d' hok => ?_
  obtain ⟨d₁, hfold, hok⟩ := bind_eq_ok_iff.mp hok
  rw [← (Prod.mk.inj (Except.ok.inj hok)).2]
  refine preserves_of_foldlM (fun {d d' piece} hd hp => ?_) hd hfold
  -- A piece of the batch is inserted as many records are.
  have hmany := Static.insertMany_preserves hI hd piece
  split at hp
  · rename_i d₂ heq
    rw [heq] at hmany
    rwa [← Except.ok.inj hp]
  · cases hp

end Preserved

theorem Static.insertMany_snd (hd : StaticTable.rows? α d = some rs) (records : List α) :
    Extended α d (Static.insertMany records d).2 :=
  Static.insertMany_preserves (I := Extended α d)
    (fun _ hext hok => hext.trans (Database.extended_of_insertRows hok)) (.refl hd) records

theorem Static.insertBatch_snd (hd : StaticTable.rows? α d = some rs) (size : Nat)
    (records : List α) : Reshaped α d (Static.insertBatch size records d).2 :=
  (Static.insertBatch_preserves (I := Extended α d)
    (fun _ hext hok => hext.trans (Database.extended_of_insertRows hok)) (.refl hd) size records).reshaped

theorem Static.updateWhere_snd (hd : StaticTable.rows? α d = some rs) (f : Filter) (c : Changes) :
    Reshaped α d (Static.updateWhere α f c d).2 := by
  refine Step.transaction_preserves (Extended.refl hd).reshaped fun n d' h => ?_
  obtain ⟨-, -, h⟩ := bind_eq_ok_iff.mp h
  obtain ⟨-, -, h⟩ := bind_eq_ok_iff.mp h
  obtain ⟨rows, -, -, -, heq⟩ := Database.updateWhere_eq_ok (ofDatabase_eq_ok_iff.mp h)
  exact ⟨_, heq⟩

/-- Rows that pass a filter are deleted from their own table. -/
private theorem reshaped_of_deleteWhere {f : Filter} {n : Nat}
    (h : d.deleteWhere α f = .ok (n, d')) : Reshaped α d d' := by
  obtain ⟨rows, -, -, heq⟩ := Database.deleteWhere_eq_ok h
  exact ⟨_, heq⟩

theorem Static.deleteWhere_snd (hd : StaticTable.rows? α d = some rs) (f : Filter) :
    Reshaped α d (Static.deleteWhere α f d).2 := by
  refine Step.transaction_preserves (Extended.refl hd).reshaped fun n d' h => ?_
  obtain ⟨-, -, h⟩ := bind_eq_ok_iff.mp h
  exact reshaped_of_deleteWhere (ofDatabase_eq_ok_iff.mp h)

theorem Static.delete_snd (hd : StaticTable.rows? α d = some rs) (id : String) :
    Reshaped α d (Static.delete α id d).2 :=
  Step.transaction_preserves (Extended.refl hd).reshaped fun _ _ h =>
    reshaped_of_deleteWhere (ofDatabase_eq_ok_iff.mp h)

end Payroll
