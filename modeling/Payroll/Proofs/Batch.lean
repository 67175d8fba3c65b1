import Payroll.Proofs.Register
/-!
# Batches of records

A batch is cut into pieces twice, into those that its caller asks for and each of them into as many rows
as one statement takes. What keeps a row out is the rows before it, wherever they were inserted, so rows
that are inserted by several statements are kept out as they are by a single one. Hence a batch comes to
the same whatever the size of its pieces.

## Key results

- `insertRows_append`: rows inserted by two statements in a row
- `Static.insertMany_settles`, `Static.insertBatch_eq`: pieces inserted one after the other
- `Ledger.addBatch_settles`: what a batch comes to, for pieces of any size
-/

namespace Payroll

open Database (insertRows lastPlace pieces placedAfter rejectionAmong? withNew)

namespace Database

variable {α : Type} [StaticTable α] {d d' : Database} {rows : List StaticRow}

/-! ## Places -/

theorem placedAfter_append (place : Nat) (new more : List StaticRow) :
    placedAfter place (new ++ more) =
      placedAfter place new ++ placedAfter (place + new.length) more := by
  induction new generalizing place with
  | nil => rfl
  | cons r new ih =>
    rw [List.cons_append, placedAfter, placedAfter, ih, List.cons_append, List.length_cons,
      Nat.add_right_comm, Nat.add_assoc]

/-- The last place is as far on as there are rows placed after it. -/
theorem lastPlace_withNew (rows new : List StaticRow) :
    lastPlace (withNew rows new) = lastPlace rows + new.length := by
  rw [withNew]
  rcases List.eq_nil_or_concat new with rfl | ⟨front, last, rfl⟩
  · rw [placedAfter, List.append_nil, List.length_nil, Nat.add_zero]
  · -- Only the last of the rows counts, and it has as many before it as there are others.
    rw [List.concat_eq_append, placedAfter_append, placedAfter, placedAfter, ← List.append_assoc]
    rw [lastPlace, List.getLast?_concat, List.length_append, List.length_singleton]
    rfl

theorem withNew_nil (rows : List StaticRow) : withNew rows [] = rows :=
  List.append_nil rows

theorem withNew_append (rows new more : List StaticRow) :
    withNew rows (new ++ more) = withNew (withNew rows new) more := by
  rw [withNew, placedAfter_append, ← List.append_assoc, ← lastPlace_withNew]
  rfl

/-! ## One statement and several -/

/-- A row is kept out if a trigger refuses it, or if its id is taken. -/
theorem isSome_rejection?_iff {r : StaticRow} : (rejection? α d rows r).isSome ↔
    (d.refusal? (StaticTable.tableId α) rows r).isSome ∨ r.id ∈ rows.map (·.id) := by
  have htaken : rows.any (·.id == r.id) = true ↔ r.id ∈ rows.map (·.id) := by simp
  rw [rejection?, ← htaken]
  cases d.refusal? (StaticTable.tableId α) rows r with
  | some refusal => simp
  | none => cases rows.any (·.id == r.id) <;> simp

/-- Only the triggers of a database make a difference to what keeps rows out of a table. -/
theorem rejectionAmong?_congr (htriggers : d'.triggers = d.triggers) (rows new : List StaticRow) :
    rejectionAmong? α d' rows new = rejectionAmong? α d rows new := by
  induction new generalizing rows with
  | nil => rfl
  | cons r new ih =>
    have hfirst : rejection? α d' rows r = rejection? α d rows r := by
      rw [rejection?, rejection?, refusal?, refusal?, htriggers]
    rw [rejectionAmong?, rejectionAmong?, hfirst, ih]

/-- What keeps rows out is what keeps the first of them out, or else what keeps the others out once these
are there. -/
theorem rejectionAmong?_append (d : Database) (rows new more : List StaticRow) :
    rejectionAmong? α d rows (new ++ more) =
      (rejectionAmong? α d rows new).or (rejectionAmong? α d (withNew rows new) more) := by
  induction new generalizing rows with
  | nil =>
    rw [withNew_nil]
    rfl
  | cons r new ih =>
    rw [List.cons_append, rejectionAmong?, rejectionAmong?, ih, Option.or_assoc, ← withNew_append]
    rfl

/-- A statement that inserts fails for what keeps one of its rows out, or else inserts all of them. -/
theorem insertRows_eq (hd : StaticTable.rows? α d = some rows) (new : List StaticRow) :
    insertRows α d new = (rejectionAmong? α d rows new).elim
      (.ok (StaticTable.setRows α (some (withNew rows new)) d)) fun rejection => .error rejection.2 := by
  simp only [insertRows, statics_eq_ok_iff.mpr hd, bind, Except.bind]
  cases rejectionAmong? α d rows new with
  | none => rfl
  | some rejection => rfl

end Database

/-! ## Pieces of a batch -/

variable {s : StaticKind} {d d' : Database} {rows : List StaticRow}

namespace Database

/-- Rows are inserted by two statements, the second one after the first, as they are by a single one. -/
theorem insertRows_append (hd : d.staticRows s = some rows) (new more : List StaticRow) :
    insertRows s.Data d (new ++ more) =
      insertRows s.Data d new >>= fun d => insertRows s.Data d more := by
  rw [insertRows_eq hd, insertRows_eq hd, rejectionAmong?_append]
  cases rejectionAmong? s.Data d rows new with
  | some rejection => rfl
  | none =>
    -- The second statement finds the rows of the first one in the table.
    show _ = insertRows s.Data (StaticTable.setRows s.Data _ d) more
    rw [insertRows_eq (staticRows_setRows d s _),
      rejectionAmong?_congr (triggers_setRows_static d s _), StaticTable.setRows_setRows,
      ← withNew_append]
    rfl

theorem setRows_of_staticRows (hd : d.staticRows s = some rows) :
    StaticTable.setRows s.Data (some rows) d = d := by
  rw [← hd]
  exact StaticTable.setRows_rows? d

theorem insertRows_nil (hd : d.staticRows s = some rows) : insertRows s.Data d [] = .ok d := by
  rw [insertRows_eq hd, withNew_nil, setRows_of_staticRows hd]
  rfl

/-- Pieces that are inserted up to the first one that fails come to what a single statement does, except
that the pieces before that one stay, and perhaps some of its rows. -/
theorem insertPieces_settles (hd : d.staticRows s = some rows) (ps : List (List StaticRow)) :
    (∃ d', insertRows s.Data d ps.flatten = .ok d' ∧ insertPieces s.Data d ps = (none, d')) ∨
      ∃ fault d', insertRows s.Data d ps.flatten = .error fault ∧
        insertPieces s.Data d ps = (some fault, d') := by
  induction ps generalizing d rows with
  | nil => exact Or.inl ⟨d, insertRows_nil hd, rfl⟩
  | cons p ps ih =>
    rw [List.flatten_cons, insertRows_append hd, insertPieces]
    cases hp : insertRows s.Data d p with
    | error fault => exact Or.inr ⟨fault, _, rfl, rfl⟩
    | ok d₁ =>
      obtain ⟨rows', -, -, rfl⟩ := insertRows_eq_ok_iff.mp hp
      exact ih (staticRows_setRows d s _)

end Database

namespace Static

/-- Many records are inserted as they are by a single statement, if nothing keeps one of them out. -/
theorem insertMany_settles (hd : d.staticRows s = some rows) (records : List s.Data) :
    (∃ d', insertRows s.Data d (records.map .ofData) = .ok d' ∧
        insertMany records d = (.ok (), d')) ∨
      ∃ fault d', insertRows s.Data d (records.map .ofData) = .error fault ∧
        insertMany records d = (.error (.database fault), d') := by
  have hpieces := Database.insertPieces_settles hd
    (pieces (Database.rowsPerStatement s.Data) (records.map .ofData))
  rw [Database.flatten_pieces] at hpieces
  rcases hpieces with ⟨d', hrows, hmany⟩ | ⟨fault, d', hrows, hmany⟩
  · exact Or.inl ⟨d', hrows, by simp only [insertMany, Database.insertMany, hmany]⟩
  · exact Or.inr ⟨fault, d', hrows, by simp only [insertMany, Database.insertMany, hmany]⟩

/-- Steps that insert one piece of a list each insert the list as a single statement does. -/
private theorem foldlM_insert {f : Database → List s.Data → Except StoreFault Database}
    (hf : ∀ {d rows} (piece : List s.Data), d.staticRows s = some rows →
      f d piece = StoreFault.ofDatabase (insertRows s.Data d (piece.map .ofData)))
    (hd : d.staticRows s = some rows) (ps : List (List s.Data)) :
    ps.foldlM f d = StoreFault.ofDatabase (insertRows s.Data d (ps.flatten.map .ofData)) := by
  induction ps generalizing d rows with
  | nil =>
    rw [List.flatten_nil, List.map_nil, Database.insertRows_nil hd]
    rfl
  | cons p ps ih =>
    rw [List.foldlM_cons, hf p hd, List.flatten_cons, List.map_append, Database.insertRows_append hd]
    cases hp : insertRows s.Data d (p.map .ofData) with
    | error fault => rfl
    | ok d₁ =>
      obtain ⟨rows', -, -, rfl⟩ := Database.insertRows_eq_ok_iff.mp hp
      exact ih (Database.staticRows_setRows d s _)

/-- A batch comes to the same for pieces of any size: something keeps one of its rows out, and nothing is
different, or all of them stand behind those that were there. -/
theorem insertBatch_eq (hd : d.staticRows s = some rows) (size : Nat) (records : List s.Data) :
    insertBatch size records d = (rejectionAmong? s.Data d rows (records.map .ofData)).elim
      (.ok (), StaticTable.setRows s.Data (some (withNew rows (records.map .ofData))) d)
      fun rejection => (.error (.database rejection.2), d) := by
  rw [insertBatch, Step.transaction]
  dsimp only
  rw [foldlM_insert (fun piece hd => ?_) hd, Database.flatten_pieces, Database.insertRows_eq hd]
  · cases rejectionAmong? s.Data d rows (records.map .ofData) with
    | none => rfl
    | some rejection => rfl
  · rcases insertMany_settles hd piece with ⟨d', hrows, hmany⟩ | ⟨fault, d', hrows, hmany⟩
    · simp only [hrows, hmany]
      rfl
    · simp only [hrows, hmany]
      rfl

end Static

/-! ## Rows that are rejected -/

/-- The database rejects one of the rows after those before it: a trigger refuses it where these are in the
table, or its id is that of a row in the table or of one before it. -/
def Database.RejectsOne (s : StaticKind) (d : Database) (rows new : List StaticRow) : Prop :=
  ∃ before r after, new = before ++ r :: after ∧
    ((d.refusal? (StaticTable.tableId s.Data) (withNew rows before) r).isSome ∨
      r.id ∈ rows.map (·.id) ++ before.map (·.id))

/-- A row that is rejected after others is rejected after what is in the table. -/
theorem Database.rejectsOne_iff {new : List StaticRow} :
    d.RejectsOne s rows new ↔ (rejectionAmong? s.Data d rows new).isSome := by
  simp only [RejectsOne, ← ids_withNew, ← isSome_rejection?_iff]
  induction new generalizing rows with
  | nil => simp [rejectionAmong?]
  | cons r new ih =>
    rw [rejectionAmong?, Option.isSome_or, Bool.or_eq_true, ← ih]
    -- Either the first row is rejected, or one of the others is with the first one in the table.
    constructor
    · rintro ⟨before, r', after, heq, hrejected⟩
      cases before with
      | nil =>
        obtain ⟨rfl, rfl⟩ := List.cons.inj heq
        rw [withNew_nil] at hrejected
        exact Or.inl hrejected
      | cons q before =>
        obtain ⟨rfl, rfl⟩ := List.cons.inj heq
        rw [← List.singleton_append, withNew_append] at hrejected
        exact Or.inr ⟨before, r', after, rfl, hrejected⟩
    · rintro (hrejected | ⟨before, r', after, rfl, hrejected⟩)
      · refine ⟨[], r, new, rfl, ?_⟩
        rwa [withNew_nil]
      · refine ⟨r :: before, r', after, rfl, ?_⟩
        rwa [← List.singleton_append, withNew_append]

/-! ## Any size -/

namespace Ledger

/-- Records get the ids that are drawn, one after the other. -/
theorem withIds_eq (supply : Supply) (records : List s.Data) :
    withIds supply records =
      (records.mapIdx fun i a => StaticData.withId (supply.ids (supply.drawn + i)) a,
        { supply with drawn := supply.drawn + records.length }) := by
  induction records generalizing supply with
  | nil => rfl
  | cons a records ih =>
    simp only [withIds, ih, Supply.id, List.mapIdx_cons, List.length_cons, Nat.add_zero]
    simp only [Nat.add_assoc, Nat.add_comm 1]

/-- What a batch of records, which have their ids by now, comes to: all of them stand behind the rows that
were there, or the database rejects one and the table is as it was. Nothing else is different but that ids
have been drawn. -/
inductive Batched (l : Ledger) (rows : List StaticRow) (new : List s.Data) :
    Except StoreFault (List s.Data) × Ledger → Prop where
  | inserted
      (haccepted : ¬l.cluster.primary.RejectsOne s rows (new.map .ofData)) :
      Batched l rows new (.ok new,
        { l.withRows s (withNew rows (new.map .ofData)) with
          supply := { l.supply with drawn := l.supply.drawn + new.length } })
  | refused (hrejected : l.cluster.primary.RejectsOne s rows (new.map .ofData))
      (fault : DatabaseFault) :
      Batched l rows new (.error (.database fault),
        { l with supply := { l.supply with drawn := l.supply.drawn + new.length } })

/-- Whatever rows there are, a batch of any length comes to the same for pieces of any size. -/
theorem addBatch_settles {l : Ledger} (h : l.cluster.primary.staticRows s = some rows)
    (records : List s.Data) :
    ∃ ending,
      l.Batched rows
        (records.mapIdx fun i a => StaticData.withId (l.supply.ids (l.supply.drawn + i)) a) ending ∧
      ∀ size, l.addBatch size records = ending := by
  simp only [addBatch, onPrimary, Cluster.onPrimary, withIds_eq]
  generalize hnew : (records.mapIdx fun i a =>
    StaticData.withId (l.supply.ids (l.supply.drawn + i)) a) = new
  have hlength : records.length = new.length := by rw [← hnew, List.length_mapIdx]
  have hbatch (size : Nat) := Static.insertBatch_eq h size new
  cases hn : rejectionAmong? s.Data l.cluster.primary rows (new.map .ofData) with
  | none =>
    refine ⟨_, .inserted fun hrejected => ?_, fun size => ?_⟩
    · rw [Database.rejectsOne_iff, hn] at hrejected
      cases hrejected
    · rw [hbatch, hn, hlength]
      rfl
  | some rejection =>
    refine ⟨_, .refused ?_ rejection.2, fun size => ?_⟩
    · rw [Database.rejectsOne_iff, hn]
      rfl
    · rw [hbatch, hn, hlength]
      rfl

/-- A batch with a company whose name is refused fails in pieces of any size, also where the pieces before
the company could be inserted. Without that company it is inserted. -/
theorem addBatch_settles_refusing :
    let company (id name : String) : Company := { id, name, createdAt := "", updatedAt := "" }
    let row : StaticRow := { place := 4, id := "a", cells := [.text "first", .text "", .text ""] }
    let d : Database := { Database.fresh with
      companies := some [row]
      triggers := [⟨"reject_bad", .company, .refuseNamed "bad" "bad company"⟩] }
    let l : Ledger :=
      { cluster := { primary := d, replicas := [], turn := 0 }
        supply := { ids := toString, times := toString, drawn := 0 } }
    let drawn (n : Nat) : Ledger := { l with supply := { l.supply with drawn := n } }
    d.staticRows .company = some [row] ∧
      (∃ fault, ∀ size, l.addBatch size [company "" "second", company "" "third", company "" "bad"] =
        (.error fault, drawn 3)) ∧
      ∀ size, (l.addBatch size [company "" "second", company "" "third"]).1 =
        .ok [company "0" "second", company "1" "third"] := by
  intro company row d l drawn
  have h : d.staticRows .company = some [row] := rfl
  refine ⟨h, ?_, fun size => ?_⟩
  · obtain ⟨ending, hending, hall⟩ := addBatch_settles (s := .company) (l := l) h
      [company "" "second", company "" "third", company "" "bad"]
    cases hending with
    | inserted haccepted =>
      rw [Database.rejectsOne_iff] at haccepted
      exact absurd (by decide +kernel) haccepted
    | refused hrejected fault => exact ⟨_, hall⟩
  · obtain ⟨ending, hending, hall⟩ := addBatch_settles (s := .company) (l := l) h
      [company "" "second", company "" "third"]
    have hsize := congrArg Prod.fst (hall size)
    have hnamed : ([company "" "second", company "" "third"].mapIdx fun i a =>
        StaticData.withId (toString (0 + i)) a) = [company "0" "second", company "1" "third"] := by
      decide +kernel
    cases hending with
    | inserted haccepted => exact hsize.trans (congrArg Except.ok hnamed)
    | refused hrejected fault =>
      rw [Database.rejectsOne_iff] at hrejected
      exact absurd hrejected (by decide +kernel)

end Ledger

end Payroll
