import Payroll.Proofs.Condition
/-!
# A filter reads what a refinement does

The latest rows that pass a filter are those for which each of its columns equals the value that it asks
for, so they can be asked for by a refinement too, with a condition for each term. Both give the same rows
in the same order, and the order of the terms makes no difference. Nor does how often one is there, as long
as there are no more terms than may stand together; both ways fail then.

## Key results

- `seen?_filterable`: a column that a filter may name is the one that a reference to it means
- `termHolds_eq`: a term holds if the condition for it does
- `Versioned.readsAlike`: what a filter reads is what its refinement gives
-/

namespace Payroll

open Sql (ColumnRef Condition Filter Refinement Value)

variable {k : VersionKind} {f : Filter} {d : Database}

/-- The refinement with a condition for each term of a filter, that the column equals the value. -/
def Sql.Filter.refinement (k : VersionKind) (f : Filter) : Refinement :=
  ⟨[], f.terms.map fun t => .compare ⟨VersionedData.table k.Data, t.1⟩ .eq t.2, [], none⟩

/-! ## Terms as conditions -/

/-- The columns that a filter may name go by names of their own. -/
private theorem sameName_filterable {name : String} (hname : name ∈ Versioned.filterable k.Data) :
    sameName Refinement.placeColumn name = false ∧
      ∀ c ∈ versionColumns k.Data, sameName c.name name = (c.name == name) := by
  have hall : ∀ name ∈ Versioned.filterable k.Data, sameName Refinement.placeColumn name = false ∧
      ∀ c ∈ versionColumns k.Data, sameName c.name name = (c.name == name) := by
    cases k <;> decide +kernel
  exact hall name hname

theorem sameName_self (name : String) : sameName name name = true :=
  beq_self_eq_true _

theorem names_filterable {name : String} (hname : name ∈ Versioned.filterable k.Data) :
    ColumnRef.Names k ⟨VersionedData.table k.Data, name⟩ := by
  obtain ⟨c, hc, rfl⟩ := exists_column hname
  exact ⟨sameName_self _, c, List.mem_cons_of_mem _ hc, sameName_self _⟩

/-- A column that a filter may name is the one that a reference to it means. -/
theorem seen?_filterable {name : String} (hname : name ∈ Versioned.filterable k.Data)
    (x : Version k.Data × Nat) :
    seen? k ⟨VersionedData.table k.Data, name⟩ x = cell? (versionColumns k.Data) x.1.values name := by
  obtain ⟨hplace, hcolumns⟩ := sameName_filterable hname
  have hzip : (latestColumns k).zip (Database.placedRow x) =
      (⟨Refinement.placeColumn, .integer⟩, .int (Int.ofNat x.2 + 1)) ::
        (versionColumns k.Data).zip x.1.values := rfl
  have hsame : ((versionColumns k.Data).zip x.1.values).filter (fun p => sameName p.1.name name) =
      ((versionColumns k.Data).zip x.1.values).filter fun p => p.1.name == name :=
    List.filter_congr fun p hp => hcolumns p.1 (List.of_mem_zip hp).1
  rw [seen?, if_pos (sameName_self _), cell?, hzip, List.find?_cons, hplace, ← List.head?_filter,
    ← List.head?_filter, hsame]

/-- A term that does not ask for null holds if the condition for it does. -/
theorem termHolds_eq {t : String × Value} (hname : t.1 ∈ Versioned.filterable k.Data)
    (hvalue : t.2.isNull = false) (x : Version k.Data × Nat) :
    termHolds (versionColumns k.Data) x.1.values t =
      Condition.holds k x (.compare ⟨VersionedData.table k.Data, t.1⟩ .eq t.2) := by
  rw [termHolds, Condition.holds, seen?_filterable hname]
  cases cell? (versionColumns k.Data) x.1.values t.1 with
  | none => rfl
  | some p =>
    simp only [hvalue, Option.bind_some]
    cases Sql.compareUnder p.1.affinity p.2 t.2.bound with
    | none => rfl
    | some o => cases o <;> rfl

/-! ## Both ways of reading -/

section

variable (hcolumns : ∀ t ∈ f.terms, t.1 ∈ Versioned.filterable k.Data)
include hcolumns

theorem isPlain_refinement : (f.refinement k).IsPlain k where
  joins := rfl
  conditions c hc := by
    obtain ⟨t, ht, rfl⟩ := List.mem_map.mp hc
    exact names_filterable (hcolumns t ht)
  order := nofun

/-- A version passes a filter without nulls if it meets the conditions for the terms. -/
theorem all_refinement (hvalues : ∀ t ∈ f.terms, t.2.isNull = false) (x : Version k.Data × Nat) :
    (f.refinement k).conditions.all (·.holds k x) = f.holds (versionColumns k.Data) x.1.values := by
  rw [Filter.refinement, Filter.holds, List.all_map, Bool.eq_iff_iff, List.all_eq_true,
    List.all_eq_true]
  refine forall₂_congr fun t ht => ?_
  rw [termHolds_eq (hcolumns t ht) (hvalues t ht) x]
  rfl

/-- A filter that names no other columns reads the latest rows that pass it, unless it is too long. -/
theorem latestWhere_eq (d : Database) : Versioned.latestWhere k.Data f d =
    if Database.maxTerms ≤ f.terms.length then .error (.database .tooDeep)
    else (d.versionRows k).elim (.error (.database (.noTable (VersionedData.table k.Data)))) fun rows =>
      .ok (rows.filter fun r => r.isLatest && f.holds (versionColumns k.Data) r.values) := by
  have hrows : d.versionRows k = VersionedTable.rows? (α := k.Data) d := rfl
  rw [Versioned.latestWhere, Filter.validate_eq_ok_iff.mpr hcolumns, Database.latestWhere,
    depthAfter_term_filter, Database.versions, hrows]
  by_cases hlong : Database.maxTerms ≤ f.terms.length
  · rw [if_pos hlong, if_pos hlong]
    rfl
  · rw [if_neg hlong, if_neg hlong]
    cases VersionedTable.rows? (α := k.Data) d <;> rfl

/-- The refinement for a filter without nulls gives the latest rows that pass it, unless it is too long. -/
theorem query_refinement_eq {rows : List (Version k.Data)} (hrows : d.versionRows k = some rows)
    (hvalues : ∀ t ∈ f.terms, t.2.isNull = false) :
    Versioned.query k.Data (f.refinement k) d =
      if Database.maxTerms ≤ f.terms.length then .error (.database .tooDeep)
      else .ok (rows.filter fun r => r.isLatest && f.holds (versionColumns k.Data) r.values) := by
  have hkept : ((Database.latestPlaced rows).filter fun x =>
      (f.refinement k).conditions.all (·.holds k x)).map (·.1) =
        rows.filter fun r => r.isLatest && f.holds (versionColumns k.Data) r.values := by
    simp only [all_refinement hcolumns hvalues]
    exact Database.map_fst_latestPlaced rows fun r => f.holds (versionColumns k.Data) r.values
  have hlength : (f.refinement k).conditions.length = f.terms.length := List.length_map ..
  have hkeys : ¬Database.maxColumns < (f.refinement k).order.length := Nat.not_lt_zero _
  have hlimit : ¬maxInt64 < ((f.refinement k).limit.getD 0 : Nat) :=
    (by decide : ¬maxInt64 < (0 : Nat))
  rw [Versioned.query, Database.query_of_isPlain hrows (isPlain_refinement hcolumns), Database.excess?,
    hlength, if_neg hkeys, if_neg hlimit]
  by_cases hlong : Database.maxTerms ≤ f.terms.length
  · rw [if_pos hlong, if_pos hlong, ite_self]
    rfl
  · rw [if_neg hlong, if_neg hlong, if_neg (mt Nat.le_of_lt hlong), ← hkept]
    rfl

end

/-- Neither way reads a table that is not there. -/
theorem query_eq_error (hrows : d.versionRows k = none) {r : Refinement} :
    ∃ fault, Versioned.query k.Data r d = .error fault := by
  cases hquery : Versioned.query k.Data r d with
  | error fault => exact ⟨fault, rfl⟩
  | ok vs =>
    obtain ⟨-, rows, -, -, hsome, -⟩ := Database.query_eq_ok_iff.mp (ofDatabase_eq_ok_iff.mp hquery)
    exact nomatch hrows.symm.trans hsome

/-- Whether a row passes is decided by which terms there are. -/
theorem holds_congr {f g : Filter} (hg : ∀ t, t ∈ g.terms ↔ t ∈ f.terms) (columns : List Column)
    (values : List Value) : g.holds columns values = f.holds columns values := by
  rw [Filter.holds, Filter.holds, Bool.eq_iff_iff, List.all_eq_true, List.all_eq_true]
  exact forall_congr' fun t => imp_congr_left (hg t)

namespace Versioned

/-- What a filter reads of a database, and what the refinement for it gives. -/
structure ReadsAlike (k : VersionKind) (f : Filter) (d : Database) : Prop where
  refined : ∀ rows, d.versionRows k = some rows →
    latestWhere k.Data f d = query k.Data (f.refinement k) d
  /-- Neither way reads a table that is not there. -/
  missing : d.versionRows k = none → (∃ fault, latestWhere k.Data f d = .error fault) ∧
    ∃ fault, query k.Data (f.refinement k) d = .error fault
  read : ∀ rows, d.versionRows k = some rows → f.terms.length < Database.maxTerms →
    latestWhere k.Data f d =
      .ok (rows.filter fun r => r.isLatest && f.holds (versionColumns k.Data) r.values)
  /-- More terms than may stand together are not read, by neither way. -/
  refused : ∀ rows, d.versionRows k = some rows → Database.maxTerms ≤ f.terms.length →
    latestWhere k.Data f d = .error (.database .tooDeep)
  /-- The order of the terms makes no difference. -/
  reordered : ∀ rows, d.versionRows k = some rows → ∀ g : Filter, g.terms.Perm f.terms →
    latestWhere k.Data g d = latestWhere k.Data f d ∧
      query k.Data (g.refinement k) d = query k.Data (f.refinement k) d
  /-- Nor does how often a term is there, as long as they may stand together. -/
  stirred : ∀ rows, d.versionRows k = some rows → f.terms.length < Database.maxTerms →
    ∀ g : Filter, g.terms.length < Database.maxTerms → (∀ t, t ∈ g.terms ↔ t ∈ f.terms) →
      latestWhere k.Data g d = latestWhere k.Data f d ∧
        query k.Data (g.refinement k) d = query k.Data (f.refinement k) d
  empty : latestWhere k.Data .all d = query k.Data .none d

/-- Whatever a database holds, a filter reads what its refinement gives. -/
theorem readsAlike (hcolumns : ∀ t ∈ f.terms, t.1 ∈ filterable k.Data)
    (hvalues : ∀ t ∈ f.terms, t.2.isNull = false) (d : Database) : ReadsAlike k f d := by
  -- Filters with the same terms that are both short, or both too long, read the same.
  have hsame (rows : List (Version k.Data)) (hrows : d.versionRows k = some rows) (g : Filter)
      (hg : ∀ t, t ∈ g.terms ↔ t ∈ f.terms)
      (hlong : Database.maxTerms ≤ g.terms.length ↔ Database.maxTerms ≤ f.terms.length) :
      latestWhere k.Data g d = latestWhere k.Data f d ∧
        query k.Data (g.refinement k) d = query k.Data (f.refinement k) d := by
    have hcolumns' : ∀ t ∈ g.terms, t.1 ∈ filterable k.Data := fun t ht => hcolumns t ((hg t).mp ht)
    have hvalues' : ∀ t ∈ g.terms, t.2.isNull = false := fun t ht => hvalues t ((hg t).mp ht)
    rw [latestWhere_eq hcolumns, latestWhere_eq hcolumns', query_refinement_eq hcolumns hrows hvalues,
      query_refinement_eq hcolumns' hrows hvalues']
    simp only [holds_congr hg, hlong, and_self]
  refine ⟨fun rows hrows => ?_, fun hnone => ⟨?_, query_eq_error hnone⟩, fun rows hrows hshort => ?_,
    fun rows hrows hlong => ?_, fun rows hrows g hg => ?_, fun rows hrows hshort g hshort' hg => ?_, ?_⟩
  · rw [latestWhere_eq hcolumns, query_refinement_eq hcolumns hrows hvalues, hrows]
    rfl
  · rw [latestWhere_eq hcolumns, hnone]
    split <;> exact ⟨_, rfl⟩
  · rw [latestWhere_eq hcolumns, if_neg (Nat.not_le.mpr hshort), hrows]
    rfl
  · rw [latestWhere_eq hcolumns, if_pos hlong]
  · exact hsame rows hrows g (fun t => hg.mem_iff) (by rw [hg.length_eq])
  · exact hsame rows hrows g hg
      (iff_of_false (Nat.not_le.mpr hshort') (Nat.not_le.mpr hshort))
  · rw [latestWhere_eq (f := .all) nofun]
    have hshort : ¬Database.maxTerms ≤ Filter.all.terms.length := by decide
    rw [if_neg hshort]
    cases hrows : d.versionRows k with
    | some rows =>
      have hquery := query_refinement_eq (f := .all) nofun hrows nofun
      rw [if_neg hshort] at hquery
      exact hquery.symm
    | none =>
      have hversions : d.versions k.Data = .error (.noTable (VersionedData.table k.Data)) := by
        replace hrows : VersionedTable.rows? (α := k.Data) d = none := hrows
        rw [Database.versions, hrows]
      rw [query, Database.query, hversions]
      rfl

/-- A duration is asked for by its text, and only its latest version has it. -/
theorem readsAlike_timelog :
    let v : Version Timelog :=
      { id := "1", version := 2, uid := "3", isLatest := true, data := ⟨60, 0, 60, "work", "0"⟩ }
    let d : Database := { Database.fresh with
      timelogs := some [{ v with version := 1, uid := "2", isLatest := false }, v] }
    let f : Filter := ⟨[("duration", .text "60"), ("version", .real 2), ("duration", .int 60)]⟩
    (∀ t ∈ f.terms, t.1 ∈ filterable Timelog) ∧ (∀ t ∈ f.terms, t.2.isNull = false) ∧
      latestWhere Timelog f d = .ok [v] ∧ query Timelog (f.refinement .timelog) d = .ok [v] := by
  intro v d f
  have hcolumns : ∀ t ∈ f.terms, t.1 ∈ filterable Timelog := by decide
  have hvalues : ∀ t ∈ f.terms, t.2.isNull = false := by decide
  have halike := readsAlike (k := .timelog) hcolumns hvalues d
  have hread : latestWhere Timelog f d = .ok [v] := by
    refine (halike.read _ rfl (by decide)).trans (congrArg Except.ok ?_)
    rfl
  exact ⟨hcolumns, hvalues, hread, (halike.refined _ rfl).symm.trans hread⟩

/-- A term reads the only timelog, and the same term repeated too often reads nothing. -/
theorem not_stirred_of_long :
    let v : Version Timelog :=
      { id := "1", version := 1, uid := "2", isLatest := true, data := ⟨60, 0, 60, "work", "0"⟩ }
    let d : Database := { Database.fresh with timelogs := some [v] }
    let f : Filter := ⟨[("duration", .int 60)]⟩
    let g : Filter := ⟨List.replicate 998 ("duration", .int 60)⟩
    (∀ t ∈ f.terms, t.1 ∈ filterable Timelog) ∧ (∀ t ∈ f.terms, t.2.isNull = false) ∧
      (∀ t, t ∈ g.terms ↔ t ∈ f.terms) ∧ latestWhere Timelog f d = .ok [v] ∧
      latestWhere Timelog g d = .error (.database .tooDeep) := by
  intro v d f g
  have hcolumns : ∀ t ∈ f.terms, t.1 ∈ filterable Timelog := by decide
  have hg : ∀ t, t ∈ g.terms ↔ t ∈ f.terms := by
    intro t
    rw [List.mem_replicate, List.mem_singleton]
    exact and_iff_right (by decide)
  have hlong : Database.maxTerms ≤ g.terms.length := by
    rw [List.length_replicate]
    decide
  refine ⟨hcolumns, by decide, hg, ?_, ?_⟩
  · refine (latestWhere_eq (k := .timelog) hcolumns d).trans ((if_neg (by decide)).trans ?_)
    refine congrArg Except.ok ?_
    rfl
  · exact (latestWhere_eq (k := .timelog) (fun t ht => hcolumns t ((hg t).mp ht)) d).trans (if_pos hlong)

end Versioned

end Payroll
