import Payroll.Proofs.Deed
import Payroll.Proofs.Effect
import Payroll.Proofs.Read
/-!
# Tables that are changed in place register their records

A table that is changed in place lists the records that were added and not deleted since, in the order in
which they were added. Each has the id that it was given when it was added, and what the operations that
chose it and succeeded have made of its columns.

## Key results

- `Registers.append`, `Registers.revise`, `Registers.filter`: what statements do to the rows
- `Operation.holds_step`: what an operation does
- `Ledger.holds_after`: what any number of operations do
- `Ledger.tabulated_after`: what is read of a table after any operations
-/

namespace Payroll

open Sql (Changes Filter Value)
open Static (Deed outlive passes revised survivors textGiven textOf textsGiven)

variable {s : StaticKind} {rows : List StaticRow} {as : List s.Data}

/-! ## Rows that register records -/

/-- The row without its place. -/
def StaticRow.unplaced (r : StaticRow) : StaticRow :=
  { r with place := 0 }

/-- The rows are those of the records. They stand in the order of their places, and no two have one id. -/
structure Registers (s : StaticKind) (rows : List StaticRow) (as : List s.Data) : Prop where
  unplaced : rows.map StaticRow.unplaced = as.map StaticRow.ofData
  placed : rows.Pairwise fun r r' => r.place < r'.place
  distinct : (as.map StaticData.id).Nodup

theorem registers_nil (s : StaticKind) : Registers s [] [] where
  unplaced := rfl
  placed := List.Pairwise.nil
  distinct := List.nodup_nil

namespace Database

/-- The places that follow one are above it and rise, and only the places of the rows are new. -/
theorem placedAfter_spec (place : Nat) (new : List StaticRow) :
    (placedAfter place new).map StaticRow.unplaced = new.map StaticRow.unplaced ∧
      (placedAfter place new).Pairwise (fun r r' => r.place < r'.place) ∧
      ∀ r ∈ placedAfter place new, place < r.place := by
  induction new generalizing place with
  | nil => simp [placedAfter]
  | cons r new ih =>
    obtain ⟨hmap, hpairwise, habove⟩ := ih (place + 1)
    rw [placedAfter]
    refine ⟨?_, List.pairwise_cons.mpr ⟨habove, hpairwise⟩, fun r' hr' => ?_⟩
    · rw [List.map_cons, List.map_cons, hmap]
      rfl
    · rcases List.mem_cons.mp hr' with rfl | hr'
      · exact Nat.lt_succ_self place
      · have := habove r' hr'
        omega

/-- No row stands at a higher place than the last one. -/
theorem place_le_lastPlace (h : rows.Pairwise fun r r' => r.place < r'.place) {r : StaticRow}
    (hr : r ∈ rows) : r.place ≤ lastPlace rows := by
  obtain ⟨front, last, rfl⟩ := List.eq_nil_or_concat rows |>.resolve_left (List.ne_nil_of_mem hr)
  rw [List.concat_eq_append] at h hr ⊢
  rw [lastPlace, List.getLast?_concat, Option.map_some, Option.getD_some]
  rcases List.mem_append.mp hr with hr | hr
  · have := (List.pairwise_append.mp h).2.2 r hr last (List.mem_singleton_self last)
    omega
  · have hlast : r = last := List.mem_singleton.mp hr
    exact Nat.le_of_eq (congrArg StaticRow.place hlast)

/-- A row has its id wherever it is put. -/
theorem ids_withNew (rows new : List StaticRow) :
    (withNew rows new).map (·.id) = rows.map (·.id) ++ new.map (·.id) := by
  have hids := congrArg (List.map (·.id)) (placedAfter_spec (lastPlace rows) new).1
  rw [List.map_map, List.map_map] at hids
  rw [withNew, List.map_append]
  exact congrArg (rows.map (·.id) ++ ·) hids

/-- Rows that nothing keeps out have ids that are not taken, neither by others nor among themselves. -/
theorem rejectionAmong?_eq_none {α : Type} [StaticTable α] {d : Database} {new : List StaticRow}
    (hn : rejectionAmong? α d rows new = none) :
    (∀ r ∈ new, r.id ∉ rows.map (·.id)) ∧ (new.map (·.id)).Nodup := by
  induction new generalizing rows with
  | nil => simp
  | cons r new ih =>
    rw [rejectionAmong?, Option.or_eq_none_iff] at hn
    obtain ⟨hfirst, hrest⟩ := hn
    obtain ⟨hfresh, hnodup⟩ := ih hrest
    have hfree : r.id ∉ rows.map (·.id) := by
      intro hmem
      obtain ⟨r', hr', hid⟩ := List.mem_map.mp hmem
      have htaken : rows.any (·.id == r.id) = true := List.any_eq_true.mpr ⟨r', hr', beq_iff_eq.mpr hid⟩
      rw [rejection?, htaken] at hfirst
      split at hfirst <;> cases hfirst
    simp only [ids_withNew, List.map_cons, List.map_nil, List.mem_append, List.mem_singleton,
      not_or] at hfresh
    refine ⟨fun r' hr' => ?_, ?_⟩
    · rcases List.mem_cons.mp hr' with rfl | hr'
      · exact hfree
      · exact (hfresh r' hr').1
    · -- The ids of the rows that follow are compared with that of the first one too.
      rw [List.map_cons, List.nodup_cons]
      refine ⟨fun hmem => ?_, hnodup⟩
      obtain ⟨r', hr', hid⟩ := List.mem_map.mp hmem
      exact (hfresh r' hr').2 hid

end Database

namespace Registers

variable (h : Registers s rows as)
include h

/-- The records are read from the rows. -/
theorem mapM_decode : rows.mapM (StaticRow.decode s.Data) = .ok as := by
  have hrows := h.unplaced
  clear h
  induction rows generalizing as with
  | nil =>
    rw [List.map_nil, eq_comm, List.map_eq_nil_iff] at hrows
    rw [hrows]
    rfl
  | cons r rows ih =>
    cases as with
    | nil => cases hrows
    | cons a as =>
      rw [List.map_cons, List.map_cons, List.cons.injEq] at hrows
      -- Where a row stands makes no difference to what is read from it.
      have hdecode : r.decode s.Data = .ok a := by
        have hsame : r.decode s.Data = r.unplaced.decode s.Data := rfl
        rw [hsame, hrows.1]
        cases s <;> rfl
      rw [List.mapM_cons, hdecode, ih hrows.2]
      rfl

/-- The rows that pass a filter are those of the records that pass it. -/
theorem filter (p : StaticRow → Bool) (hp : ∀ r, p r.unplaced = p r) :
    Registers s (rows.filter p) (as.filter fun a => p (.ofData a)) where
  unplaced := by
    have hcomp : p = p ∘ StaticRow.unplaced := funext fun r => (hp r).symm
    rw [hcomp, ← List.filter_map, h.unplaced, List.filter_map]
    rfl
  placed := h.placed.sublist List.filter_sublist
  distinct := h.distinct.sublist (List.filter_sublist.map _)

/-- Rows that are changed where they stand are those of the records that are changed in the same way. -/
theorem revise (f : StaticRow → StaticRow) (g : s.Data → s.Data)
    (hplace : ∀ r, (f r).place = r.place) (hf : ∀ r, (f r).unplaced = f r.unplaced)
    (hg : ∀ a, f (.ofData a) = .ofData (g a)) (hid : ∀ a, StaticData.id (g a) = StaticData.id a) :
    Registers s (rows.map f) (as.map g) where
  unplaced := by
    have hcomp : StaticRow.unplaced ∘ f = f ∘ StaticRow.unplaced := funext hf
    have hdata : f ∘ StaticRow.ofData = StaticRow.ofData ∘ g := funext hg
    rw [List.map_map, hcomp, ← List.map_map, h.unplaced, List.map_map, hdata, ← List.map_map]
  placed := by
    rw [List.pairwise_map]
    simp only [hplace]
    exact h.placed
  distinct := by
    have hcomp : StaticData.id ∘ g = StaticData.id := funext hid
    rw [List.map_map, hcomp]
    exact h.distinct

/-- Rows that nothing keeps out stand behind those that were there. -/
theorem append {d : Database} {new : List s.Data}
    (hn : Database.rejectionAmong? s.Data d rows (new.map .ofData) = none) :
    Registers s (Database.withNew rows (new.map .ofData)) (as ++ new) := by
  obtain ⟨hfresh, hnodup⟩ := Database.rejectionAmong?_eq_none hn
  obtain ⟨hmap, hpairwise, habove⟩ :=
    Database.placedAfter_spec (Database.lastPlace rows) (new.map .ofData)
  have hids : rows.map (·.id) = as.map StaticData.id := by
    have := congrArg (List.map (·.id)) h.unplaced
    rw [List.map_map, List.map_map] at this
    exact this
  constructor
  · -- A row that is new has no place until it is in the table.
    have hnew : (new.map (StaticRow.ofData (α := s.Data))).map StaticRow.unplaced =
        new.map StaticRow.ofData := List.map_map
    rw [Database.withNew, List.map_append, List.map_append, hmap, h.unplaced, hnew]
  · refine List.pairwise_append.mpr ⟨h.placed, hpairwise, fun r hr r' hr' => ?_⟩
    have := Database.place_le_lastPlace h.placed hr
    have := habove r' hr'
    omega
  · rw [List.map_append, List.nodup_append]
    rw [List.map_map] at hnodup
    refine ⟨h.distinct, hnodup, ?_⟩
    rintro id hold _ hnew rfl
    obtain ⟨a, ha, rfl⟩ := List.mem_map.mp hnew
    rw [← hids] at hold
    exact hfresh (.ofData a) (List.mem_map_of_mem ha) hold

end Registers

/-! ## Statements -/

/-- What a column is given is the value of one of the terms. -/
theorem Sql.Changes.mem_terms_of_value? {c : Changes} {column : String} {v : Value}
    (hv : c.value? column = some v) : (column, v) ∈ c.terms := by
  obtain ⟨front, back, hterms, -⟩ := List.lookup_eq_some_iff.mp hv
  rw [← List.mem_reverse, hterms]
  simp

/-- The value that is given to a column is a text if all values are. -/
theorem Sql.Changes.value?_eq_textGiven {c : Changes}
    (hc : ∀ t ∈ c.terms, ∃ text, t.2 = Value.text text) (column : String) :
    c.value? column = (textGiven c column).map .text := by
  rw [textGiven]
  cases hv : c.value? column with
  | none => rfl
  | some v =>
    obtain ⟨text, htext⟩ := hc _ (mem_terms_of_value? hv)
    have hv' : v = Value.text text := htext
    rw [hv']
    rfl

namespace Database

variable {d d' : Database} {new : List s.Data}

/-- The table of the kind is there and registers the records. -/
def Holds (s : StaticKind) (d : Database) (as : List s.Data) : Prop :=
  ∃ rows, d.staticRows s = some rows ∧ Registers s rows as

theorem Holds.setRows (d : Database) (h : Registers s rows as) :
    Holds s (StaticTable.setRows s.Data (some rows) d) as :=
  ⟨rows, staticRows_setRows d s _, h⟩

/-- The pieces of a list that is changed item by item. -/
theorem pieces_map {β γ : Type} (f : β → γ) (size : Nat) (xs : List β) :
    pieces size (xs.map f) = (pieces size xs).map (List.map f) := by
  fun_induction pieces size xs with
  | case1 => simp [pieces]
  | case2 x xs ih =>
    rw [List.map_cons, pieces, ← List.map_take, ← List.map_drop, ih]
    rfl

/-- A row is changed as its record is, if all values that are given are texts. -/
theorem changed_ofData {c : Changes} (hc : ∀ t ∈ c.terms, ∃ text, t.2 = Value.text text)
    (a : s.Data) :
    changed s.Data c (.ofData a) = .ofData (revised (textGiven c) a) := by
  rw [Static.ofData_revised, changed]
  congr 1
  have hcells : (StaticRow.ofData a).cells = (StaticData.texts a).map Value.text := rfl
  rw [hcells, List.zip_map_right, List.map_map]
  refine List.map_congr_left fun p _ => ?_
  simp only [Function.comp, Prod.map, id, Changes.value?_eq_textGiven hc]
  cases textGiven c p.1 <;> rfl

section

variable (h : d.Holds s as)
include h

theorem Holds.insertRows (hok : Database.insertRows s.Data d (new.map .ofData) = .ok d') :
    d'.Holds s (as ++ new) := by
  obtain ⟨rows, hrows, hregisters⟩ := h
  obtain ⟨rows', hrows', hn, rfl⟩ := insertRows_eq_ok_iff.mp hok
  obtain rfl := Option.some.inj (hrows.symm.trans hrows')
  exact .setRows d (hregisters.append hn)

theorem Holds.insertPieces {ps : List (List s.Data)}
    (hok : Database.insertPieces s.Data d (ps.map (List.map .ofData)) = (none, d')) :
    d'.Holds s (as ++ ps.flatten) := by
  induction ps generalizing d as with
  | nil =>
    rw [← (Prod.mk.inj hok).2, List.flatten_nil, List.append_nil]
    exact h
  | cons p ps ih =>
    rw [List.map_cons, Database.insertPieces] at hok
    split at hok
    · cases hok
    · rename_i d₁ hp
      rw [List.flatten_cons, ← List.append_assoc]
      exact ih (h.insertRows hp) hok

/-- Records that are inserted stand behind those that were there. -/
theorem Holds.insertMany (hok : Static.insertMany new d = (.ok (), d')) : d'.Holds s (as ++ new) := by
  rw [Static.insertMany] at hok
  split at hok
  · rename_i d₁ hmany
    rw [Database.insertMany, pieces_map] at hmany
    obtain rfl := (Prod.mk.inj hok).2
    have := h.insertPieces hmany
    rwa [flatten_pieces] at this
  · cases hok

/-- Pieces that are inserted one after the other stand behind what there is by then. -/
theorem Holds.foldlM {f : Database → List s.Data → Except StoreFault Database}
    (hf : ∀ {d d' as new}, Holds s d as → f d new = .ok d' → Holds s d' (as ++ new))
    {ps : List (List s.Data)} (hok : ps.foldlM f d = .ok d') : d'.Holds s (as ++ ps.flatten) := by
  induction ps generalizing d as with
  | nil =>
    rw [← Except.ok.inj hok, List.flatten_nil, List.append_nil]
    exact h
  | cons p ps ih =>
    rw [List.foldlM_cons] at hok
    obtain ⟨d₁, hp, hrest⟩ := bind_eq_ok_iff.mp hok
    rw [List.flatten_cons, ← List.append_assoc]
    exact ih (hf h hp) hrest

/-- A batch is inserted as a whole, in whatever pieces. -/
theorem Holds.insertBatch {size : Nat} (hok : Static.insertBatch size new d = (.ok (), d')) :
    d'.Holds s (as ++ new) := by
  rw [Static.insertBatch] at hok
  rcases Step.transaction_cases _ d with ⟨fault, heq⟩ | ⟨b, d₁, hall, heq⟩
  · rw [heq] at hok
    cases hok
  · rw [heq] at hok
    obtain rfl := (Prod.mk.inj hok).2
    obtain ⟨d₂, hfold, hall⟩ := bind_eq_ok_iff.mp hall
    obtain rfl := (Prod.mk.inj (Except.ok.inj hall)).2
    have hpieces := h.foldlM (fun h hp => ?_) hfold
    · rwa [flatten_pieces] at hpieces
    · split at hp
      · rename_i d₃ hmany
        rw [← Except.ok.inj hp]
        exact h.insertMany hmany
      · cases hp

/-- Changes whose values are texts give the records that pass the filter other texts. -/
theorem Holds.updateWhere {f : Filter} {c : Changes} {n : Nat}
    (hc : ∀ t ∈ c.terms, ∃ text, t.2 = Value.text text)
    (hok : d.updateWhere s.Data f c = .ok (n, d')) :
    d'.Holds s (as.map fun a => if passes f a then revised (textGiven c) a else a) := by
  obtain ⟨rows, hrows, hregisters⟩ := h
  obtain ⟨rows', hrows', -, -, rfl⟩ := updateWhere_eq_ok hok
  obtain rfl := Option.some.inj (hrows.symm.trans hrows')
  refine .setRows d (hregisters.revise _ _ (fun r => ?_) (fun r => ?_) (fun a => ?_) fun a => ?_)
  · split <;> rfl
  · -- Whether a row passes does not depend on its place.
    by_cases hpasses : f.holds (staticColumns s.Data) r.values = true
    · rw [if_pos hpasses]
      exact (if_pos hpasses).symm
    · rw [if_neg hpasses]
      exact (if_neg hpasses).symm
  · rw [passes]
    split
    · exact changed_ofData hc a
    · rfl
  · split
    · exact Static.id_revised _ a
    · rfl

/-- The records that pass the filter are taken away. -/
theorem Holds.deleteWhere {f : Filter} {n : Nat} (hok : d.deleteWhere s.Data f = .ok (n, d')) :
    d'.Holds s (as.filter fun a => !passes f a) := by
  obtain ⟨rows, hrows, hregisters⟩ := h
  obtain ⟨rows', hrows', -, rfl⟩ := deleteWhere_eq_ok hok
  obtain rfl := Option.some.inj (hrows.symm.trans hrows')
  exact .setRows d (hregisters.filter _ fun r => rfl)

end

end Database

/-! ## Operations -/

/-- What the operation has done to the table of its kind, if it has succeeded and does not only read. -/
def Static.Operation.deed? {α : Type} [StaticTable α] : Static.Operation α → Ledger → Option (Deed α)
  | .add record, l => (Ledger.add (α := α) l record).1.toOption.map fun a => .add [a]
  | .addBatch size records, l => (Ledger.addBatch (α := α) l size records).1.toOption.map .add
  | .overwriteWhere f record, l =>
    (Ledger.overwriteWhere (α := α) l f record).1.toOption.map fun _ =>
      .revise (passes f) (textOf record)
  | .updateWhere f c, l =>
    (l.updateWhere α f c).1.toOption.map fun _ => .revise (passes f) (textGiven c)
  | .delete id, l => (l.delete α id).1.toOption.map fun _ => .remove (StaticData.id · == id)
  | .deleteWhere f, l => (l.deleteWhere α f).1.toOption.map fun _ => .remove (passes f)
  | .first _ _, _ | .allWhere _ _, _ | .get _ _, _ => none

/-- The values that the operation gives to columns are texts. -/
def Static.Operation.GivesTexts {α : Type} : Static.Operation α → Prop
  | .updateWhere _ c => ∀ t ∈ c.terms, ∃ text, t.2 = Value.text text
  | _ => True

namespace Operation

/-- What the operation has done to the table of the kind. -/
def deeds (s : StaticKind) : Operation → Ledger → List (Deed s.Data)
  | .static s' o, l => if h : s' = s then ((h ▸ o).deed? l).toList else []
  | _, _ => []

@[simp] theorem deeds_static (s : StaticKind) (o : Static.Operation s.Data) (l : Ledger) :
    (Operation.static s o).deeds s l = (o.deed? l).toList := by
  simp [deeds]

theorem deeds_eq_nil {s : StaticKind} {o : Operation}
    (ho : ∀ o' : Static.Operation s.Data, o ≠ .static s o') (l : Ledger) : o.deeds s l = [] := by
  cases o with
  | versioned | ping | migrate => rfl
  | static s' o =>
    rw [deeds, dif_neg]
    rintro rfl
    exact ho o rfl

/-- The values that the operation gives to columns of the kind are texts. -/
def GivesTexts (s : StaticKind) : Operation → Prop
  | .static s' o => s' = s → o.GivesTexts
  | _ => True

end Operation

/-- What operations have done to the table of the kind, in their order. -/
def Ledger.deeds (s : StaticKind) : Ledger → List Operation → List (Deed s.Data)
  | _, [] => []
  | l, o :: ops => o.deeds s l ++ deeds s (o.step l) ops

section

variable {l : Ledger}

/-- Where no key comes twice, it makes no difference from which end a key is looked up. -/
private theorem lookup_reverse {β : Type} {ps : List (String × β)} (h : (ps.map Prod.fst).Nodup)
    (key : String) : ps.reverse.lookup key = ps.lookup key := by
  induction ps with
  | nil => rfl
  | cons p ps ih =>
    rw [List.map_cons, List.nodup_cons] at h
    rw [List.reverse_cons, List.lookup_append, ih h.2, List.lookup_cons, List.lookup_cons]
    by_cases hkey : key == p.1
    · -- No later pair has the key of this one.
      have hnone : ps.lookup key = none := by
        rw [List.lookup_eq_none_iff]
        intro q hq
        rw [beq_iff_eq.mp hkey, bne_iff_ne]
        rintro heq
        exact h.1 (heq ▸ List.mem_map_of_mem hq)
      rw [hkey, hnone]
      rfl
    · rw [Bool.not_eq_true] at hkey
      rw [hkey]
      simp

/-- The changes that overwrite a record give each column the text that the record has in it. -/
theorem textGiven_changesOf (a : s.Data) : textGiven (Static.changesOf a) = textOf a := by
  have hkeys : ((Static.changesOf a).terms.map Prod.fst).Nodup := by
    cases s with
    | company => exact (by decide : ["name", "created_at", "updated_at"].Nodup)
    | contractor => exact (by decide : ["name", "email", "phone", "created_at", "updated_at"].Nodup)
  funext column
  have hvalue : (Static.changesOf a).value? column = (textOf a column).map Value.text := by
    rw [Changes.value?, lookup_reverse hkeys, Static.changesOf, List.zip_map_right, textOf]
    exact Static.lookup_map (fun _ => Value.text) column _
  rw [textGiven, hvalue]
  cases textOf a column <;> rfl

theorem givesTexts_changesOf (a : s.Data) :
    ∀ t ∈ (Static.changesOf a).terms, ∃ text, t.2 = Value.text text := by
  intro t ht
  obtain ⟨text, -, htext⟩ := List.mem_map.mp (List.of_mem_zip ht).2
  exact ⟨text, htext.symm⟩

/-- What fails leaves the records as they are, and what succeeds has done a deed. -/
private theorem holds_of_outcome {ε β : Type} {d d' : Database} {r : Except ε β} {deed : β → Deed s.Data}
    (h : d.Holds s as) (hfail : ∀ fault, r = .error fault → d' = d)
    (hdone : ∀ b, r = .ok b → d'.Holds s ((deed b).apply as)) :
    d'.Holds s ((r.toOption.map deed).toList.foldl (fun as d => d.apply as) as) := by
  cases r with
  | error fault =>
    rw [hfail fault rfl]
    exact h
  | ok b => exact hdone b rfl

/-- A transaction that fails leaves the records as they are. -/
private theorem holds_transaction {β : Type} {d : Database} (h : d.Holds s as) (deed : Deed s.Data)
    (f : Database → Except StoreFault (β × Database))
    (hdone : ∀ b d', f d = .ok (b, d') → d'.Holds s (deed.apply as)) :
    (Step.transaction f d).2.Holds s
      (((Step.transaction f d).1.toOption.map fun _ => deed).toList.foldl (fun as d => d.apply as) as) := by
  rcases Step.transaction_cases f d with ⟨fault, heq⟩ | ⟨b, d', hok, heq⟩
  · rw [heq]
    exact holds_of_outcome h (fun _ _ => rfl) nofun
  · rw [heq]
    exact holds_of_outcome h nofun fun _ _ => hdone b d' hok

/-- What is made of an outcome makes no difference to whether it is a success. -/
private theorem toOption_map {ε β γ δ : Type} (r : Except ε β) (f : β → γ) (g : γ → δ) :
    (r.map f).toOption.map g = r.toOption.map fun b => g (f b) := by
  cases r <;> rfl

/-- Records that are inserted, all of them or none, have been added. -/
private theorem holds_insert {d : Database} {new : List s.Data} {step : Step Unit} (h : d.Holds s as)
    (hfail : ∀ fault, (step d).1 = .error fault → (step d).2 = d)
    (hdone : ∀ d', step d = (.ok (), d') → d'.Holds s (as ++ new)) :
    (step d).2.Holds s
      (((step d).1.toOption.map fun _ => Deed.add new).toList.foldl (fun as d => d.apply as) as) := by
  refine holds_of_outcome h hfail fun b hb => ?_
  rw [Deed.apply_add]
  exact hdone _ (Prod.ext hb rfl)

/-- Changes that are made have given the records that pass the filter other texts. -/
private theorem holds_updateWhere {d : Database} (h : d.Holds s as) (f : Filter) {c : Changes}
    (hc : ∀ t ∈ c.terms, ∃ text, t.2 = Value.text text) :
    (Static.updateWhere s.Data f c d).2.Holds s
      (((Static.updateWhere s.Data f c d).1.toOption.map fun _ =>
        Deed.revise (passes f) (textGiven c)).toList.foldl (fun as d => d.apply as) as) := by
  refine holds_transaction h _ _ fun n d' hok => ?_
  obtain ⟨-, -, hok⟩ := bind_eq_ok_iff.mp hok
  obtain ⟨-, -, hok⟩ := bind_eq_ok_iff.mp hok
  rw [Deed.apply_revise]
  exact h.updateWhere hc (ofDatabase_eq_ok_iff.mp hok)

/-- An operation on records that are changed in place does to the records of its table what it has done. -/
theorem Static.Operation.holds_run (o : Static.Operation s.Data) (ho : o.GivesTexts)
    (h : l.cluster.primary.Holds s as) :
    (o.run l).2.cluster.primary.Holds s ((o.deed? l).toList.foldl (fun as d => d.apply as) as) := by
  have hread : ∀ {d}, d = l.cluster.primary → d.Holds s as := by
    rintro d rfl
    exact h
  cases o with
  | add record =>
    rw [deed?, Ledger.add, toOption_map]
    refine holds_insert h (fun fault hfault => ?_) fun d' => h.insertMany
    -- A single record takes one statement, which fails as a whole.
    rw [Static.insertMany] at hfault ⊢
    rcases Database.insertMany_cases s (StaticData.withId (l.supply.ids l.supply.drawn) record)
      l.cluster.primary with ⟨cause, heq⟩ | ⟨d', heq, -⟩
    · rw [heq]
    · rw [heq] at hfault
      cases hfault
  | addBatch size records =>
    rw [deed?, Ledger.addBatch, toOption_map]
    refine holds_insert h (fun fault hfault => ?_) fun d' => h.insertBatch
    rw [Static.insertBatch] at hfault ⊢
    rcases Step.transaction_cases _ l.cluster.primary with ⟨cause, heq⟩ | ⟨b, d', -, heq⟩
    · rw [heq]
    · rw [heq] at hfault
      cases hfault
  | overwriteWhere f record =>
    have hdone := holds_updateWhere h f (givesTexts_changesOf record)
    rw [textGiven_changesOf] at hdone
    exact hdone
  | updateWhere f c => exact holds_updateWhere h f ho
  | delete id =>
    have hdone := holds_transaction h (.remove (StaticData.id · == id))
      (fun d => StoreFault.ofDatabase (d.deleteWhere s.Data (.one "id" (.text id))))
      fun n d' hok => ?_
    · rw [deed?, Ledger.delete, toOption_map]
      exact hdone
    · have hpasses : ∀ a : s.Data, passes (.one "id" (.text id)) a = (StaticData.id a == id) := by
        intro a
        rw [passes, Bool.eq_iff_iff, Ledger.holds_one_id, beq_iff_eq]
        rfl
      have hgone := h.deleteWhere (ofDatabase_eq_ok_iff.mp hok)
      simp only [hpasses] at hgone
      rwa [Deed.apply_remove]
  | deleteWhere f =>
    have hdone := holds_transaction h (.remove (passes f)) (fun d => do
      Static.guarded s.Data f
      StoreFault.ofDatabase (d.deleteWhere s.Data f)) fun n d' hok => ?_
    · exact hdone
    · obtain ⟨-, -, hok⟩ := bind_eq_ok_iff.mp hok
      rw [Deed.apply_remove]
      exact h.deleteWhere (ofDatabase_eq_ok_iff.mp hok)
  | first c f => exact hread (Ledger.primary_onRead l c _)
  | allWhere c f => exact hread (Ledger.primary_onRead l c _)
  | get c id => exact hread (Ledger.primary_onRead l c _)

end

/-! ## Any number of operations -/

/-- What a table holds depends on its rows alone. -/
theorem Database.Holds.congr {d d' : Database} (h : d.Holds s as)
    (hsame : d'.staticRows s = d.staticRows s) : d'.Holds s as := by
  obtain ⟨rows, hrows, hregisters⟩ := h
  exact ⟨rows, hsame.trans hrows, hregisters⟩

section

variable {l : Ledger} {hs : Histories}

/-- An operation does to the records of a table what it has done, and nothing else changes them. -/
theorem Operation.holds_step (hl : l.Keeps hs) (o : Operation) (ho : o.GivesTexts s)
    (h : l.cluster.primary.Holds s as) :
    (o.step l).cluster.primary.Holds s ((o.deeds s l).foldl (fun as d => d.apply as) as) := by
  by_cases hown : ∃ o' : Static.Operation s.Data, o = .static s o'
  · obtain ⟨o, rfl⟩ := hown
    rw [deeds_static]
    exact o.holds_run (ho rfl) h
  · have hown : ∀ o' : Static.Operation s.Data, o ≠ .static s o' := fun o' heq => hown ⟨o', heq⟩
    rw [deeds_eq_nil hown]
    exact h.congr (hl.staticRows_step hown)

/-- Operations do to the records of a table what they have done, one after the other. -/
theorem Ledger.holds_after (hl : l.Keeps hs) {ops : List Operation}
    (hops : ∀ o ∈ ops, o.GivesTexts s) (h : l.cluster.primary.Holds s as) :
    (l.after ops).cluster.primary.Holds s ((l.deeds s ops).foldl (fun as d => d.apply as) as) := by
  induction ops generalizing l hs as with
  | nil => exact h
  | cons o ops ih =>
    have ho := hops o List.mem_cons_self
    rw [deeds, List.foldl_append]
    exact ih (hl.step o) (fun o' ho' => hops o' (List.mem_cons_of_mem o ho')) (o.holds_step hl ho h)

end

/-! ## What is read -/

section

variable {d : Database} (h : d.Holds s as)
include h

/-- The records that pass a filter are read in their order, unless the filter is too long. -/
theorem Database.Holds.allWhere_eq {f : Filter}
    (hf : f.validate (Static.filterable s.Data) = .ok ()) :
    Static.allWhere s.Data f d = if maxTerms < f.terms.length then .error (.database .tooDeep)
      else .ok (as.filter (passes f)) := by
  obtain ⟨rows, hrows, hregisters⟩ := h
  have hread := (hregisters.filter (fun r => f.holds (staticColumns s.Data) r.values)
    fun r => rfl).mapM_decode
  rw [Static.allWhere, hf, Database.allWhere, Database.rowsWhere_eq hrows]
  split
  · rfl
  · exact congrArg StoreFault.ofDatabase hread

/-- The first of the records that pass a filter is read. -/
theorem Database.Holds.first?_eq {f : Filter}
    (hf : f.validate (Static.filterable s.Data) = .ok ()) :
    Static.first? s.Data f d = (Static.allWhere s.Data f d).map List.head? := by
  rw [h.allWhere_eq hf]
  obtain ⟨rows, hrows, hregisters⟩ := h
  have hread := (hregisters.filter (fun r => f.holds (staticColumns s.Data) r.values)
    fun r => rfl).mapM_decode
  rw [Static.first?, hf, Database.first?, Database.rowsWhere_eq hrows]
  split
  · rfl
  show StoreFault.ofDatabase (Except.ok (rows.filter _) >>= _) = _
  -- Only the first of the rows that pass is decoded.
  generalize rows.filter (fun r => f.holds (staticColumns s.Data) r.values) = left at hread ⊢
  have hread' : left.mapM (StaticRow.decode s.Data) = .ok (as.filter (passes f)) := hread
  cases left with
  | nil =>
    rw [← Except.ok.inj hread']
    rfl
  | cons r rest =>
    rw [List.mapM_cons] at hread'
    obtain ⟨a, ha, hrest⟩ := bind_eq_ok_iff.mp hread'
    obtain ⟨others, -, hothers⟩ := bind_eq_ok_iff.mp hrest
    rw [← Except.ok.inj hothers]
    show StoreFault.ofDatabase (r.decode s.Data >>= _) = _
    rw [ha]
    rfl

end

/-- Every column of a record has a text in it. -/
theorem exists_textOf (a : s.Data) {column : String} (hc : column ∈ StaticData.columns s.Data) :
    ∃ text, textOf a column = some text := by
  have hlength : (StaticData.columns s.Data).length = (StaticData.texts a).length := by
    cases s <;> rfl
  rw [← List.map_fst_zip (Nat.le_of_eq hlength)] at hc
  exact Static.exists_lookup hc

namespace Ledger

/-- What is read of a table that is changed in place after operations that started without any record. -/
structure Tabulated (s : StaticKind) (l : Ledger) (ops : List Operation) : Prop where
  /-- The records that were added and not taken away again are listed in the order in which they were
  added. -/
  listed : ((l.after ops).allWhere s.Data .strong .all).1 = .ok (survivors (l.deeds s ops))
  distinct : ((survivors (l.deeds s ops)).map StaticData.id).Nodup
  /-- A record has the id with which it was added, and each of its columns holds the last text that it was
  given by what chose the record and has succeeded, or else the one with which it was added. -/
  columns : ∀ before records later, l.deeds s ops = before ++ .add records :: later →
    ∀ a ∈ records, ∀ b, outlive later a = some b → StaticData.id b = StaticData.id a ∧
      ∀ column ∈ StaticData.columns s.Data, ∃ text, textOf a column = some text ∧
        textOf b column = some ((textsGiven column later a).getLastD text)
  /-- A filter lets those of the records through that pass it, if it has no more terms than may stand
  together. -/
  filtered : ∀ f : Filter, f.validate (Static.filterable s.Data) = .ok () →
    ((l.after ops).allWhere s.Data .strong f).1 =
      if Database.maxTerms < f.terms.length then .error (.database .tooDeep)
      else .ok ((survivors (l.deeds s ops)).filter (passes f))
  /-- The first record that is read with a filter is the first of all that are read with it. -/
  first : ∀ f : Filter, f.validate (Static.filterable s.Data) = .ok () →
    ((l.after ops).first? s.Data .strong f).1 =
      ((l.after ops).allWhere s.Data .strong f).1.map List.head?
  /-- Rows stand in the order of their places, although places are used again. -/
  placed : ∃ rows, (l.after ops).cluster.primary.staticRows s = some rows ∧
    rows.Pairwise fun r r' => r.place < r'.place

/-- Whatever operations are done on an empty primary of the present schema, a table that is changed in
place lists the records that were added and not taken away again, with what has become of them. -/
theorem tabulated_after (s : StaticKind) (engine : Engine) (replicas : List Replica) (turn : Nat)
    (supply : Supply) (ops : List Operation) (hops : ∀ o ∈ ops, o.GivesTexts s) :
    Tabulated s (opened engine replicas turn supply) ops := by
  have hempty : (opened engine replicas turn supply).cluster.primary.Holds s [] :=
    ⟨[], Database.staticRows_freshOn engine s, registers_nil s⟩
  have h := holds_after (keeps_opened engine replicas turn supply) hops hempty
  rw [Static.foldl_apply, List.filterMap_nil, List.nil_append] at h
  have hreads : ∀ f : Filter, f.validate (Static.filterable s.Data) = .ok () →
      (((opened engine replicas turn supply).after ops).allWhere s.Data .strong f).1 =
        if Database.maxTerms < f.terms.length then .error (.database .tooDeep)
        else .ok ((survivors ((opened engine replicas turn supply).deeds s ops)).filter (passes f)) := by
    intro f hf
    rw [allWhere, outcome_onRead_strong]
    exact h.allWhere_eq hf
  refine ⟨?_, ?_, ?_, hreads, fun f hf => ?_, ?_⟩
  · have hall : passes (α := s.Data) .all = fun _ => true := rfl
    have hshort : ¬Database.maxTerms < Filter.all.terms.length := Nat.not_lt_zero _
    have hlisted := hreads .all rfl
    rwa [if_neg hshort, hall, List.filter_eq_self.mpr fun _ _ => rfl] at hlisted
  · obtain ⟨rows, -, hregisters⟩ := h
    exact hregisters.distinct
  · intro before records later _ a _ b hb
    refine ⟨Static.id_outlive hb, fun column hc => ?_⟩
    obtain ⟨text, htext⟩ := exists_textOf a hc
    exact ⟨text, htext, Static.textOf_outlive hb htext⟩
  · rw [first?, allWhere, outcome_onRead_strong, outcome_onRead_strong]
    exact h.first?_eq hf
  · obtain ⟨rows, hrows, hregisters⟩ := h
    exact ⟨rows, hrows, hregisters.placed⟩

/-- A company is overwritten, another one is deleted, and its place is used again. -/
theorem tabulated_after_overwriting :
    let supply : Supply := { ids := toString, times := toString, drawn := 0 }
    let company (name : String) : Company := { id := "", name, createdAt := "", updatedAt := "" }
    let ops : List Operation :=
      [.static .company (.addBatch 1 [company "first", company "second"]),
       .static .company (.overwriteWhere (.one "name" (.text "first")) (company "renamed")),
       .static .company (.delete "1"),
       .static .company (.updateWhere (.one "id" (.text "0")) ⟨[("updated_at", .text "now")]⟩),
       .static .company (.add (company "third"))]
    (∀ o ∈ ops, o.GivesTexts .company) ∧
      (((opened .plain [] 0 supply).after ops).allWhere Company .strong .all).1 = .ok
        [⟨"0", "renamed", "", "now"⟩, ⟨"2", "third", "", ""⟩] := by
  intro supply company ops
  have hops : ∀ o ∈ ops, o.GivesTexts .company := by
    intro o ho
    simp only [ops, List.mem_cons, List.not_mem_nil, or_false] at ho
    rcases ho with rfl | rfl | rfl | rfl | rfl
    · exact fun _ => trivial
    · exact fun _ => trivial
    · exact fun _ => trivial
    · intro _ t ht
      rw [List.mem_singleton.mp ht]
      exact ⟨"now", rfl⟩
    · exact fun _ => trivial
  refine ⟨hops, (tabulated_after .company .plain [] 0 supply ops hops).listed.trans ?_⟩
  -- The records of the kind are companies, which can be compared.
  exact congrArg Except.ok (@of_decide_eq_true _ (@instDecidableEqList Company _ _ _)
    (by decide +kernel))

end Ledger

end Payroll
