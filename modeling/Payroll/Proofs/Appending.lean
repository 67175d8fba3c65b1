import Payroll.Proofs.Effect
/-!
# What adding a version comes to

A version is added to the record of an id in four steps: the latest row is read, the next version is
inserted, the latest row is retired, and all of it is kept. Each step can fail, and which one does is
settled by the rows, the data and the triggers alone. A step that fails takes with it what the steps
before it have done. Of the rows no more is assumed than what the schema demands of them. Numbers may be
left out, the row that should be the latest of its id may not claim to be, and several rows of one id may
claim it at once.

## Key results

- `Versioned.append_of_none`, `Versioned.append_of_obstacle`, `Versioned.append_of_objection`: how adding a
  version fails
- `Ledger.append_appended`: when adding a version succeeds and what it does then, and what it answers and
  leaves as it was when it fails
-/

namespace Payroll

variable {k : VersionKind} {d : Database} {rows : List (Version k.Data)} {current : Version k.Data}
  {id uid : String} {a : k.Data}

/-! ## One way to fail for each step -/

namespace Versioned

/-- A record without a latest row gets no further version. -/
theorem append_of_none (hlatest : Versioned.latest? k.Data id d = .ok none) :
    Versioned.append id uid a d = (.error (.notFound (VersionedData.table k.Data) id), d) := by
  simp only [append, Step.transaction, hlatest, bind, Except.bind]
  rfl

/-- What keeps the next version out of the table is what adding it fails for. -/
theorem append_of_obstacle (hlatest : Versioned.latest? k.Data id d = .ok (some current))
    {fault : StoreFault}
    (hins : insertNext d { current.toMeta.successor uid with data := a } = .error fault) :
    Versioned.append id uid a d = (.error fault, d) := by
  simp only [append, Step.transaction, hlatest, bind, Except.bind, hins]

/-- A trigger that objects to retiring the latest version is what adding the next one fails for, although
the next one is in the table by then. -/
theorem append_of_objection (hlatest : Versioned.latest? k.Data id d = .ok (some current))
    {d₁ : Database} (hins : insertNext d { current.toMeta.successor uid with data := a } = .ok d₁)
    {objection : Option String} (hret : d₁.retire k.Data current.uid =
      objection.elim (.ok (0, d₁)) fun reason => .error (.refused reason)) :
    Versioned.append id uid a d = (.error (objection.elim
      (.conflict (VersionedData.table k.Data) id (.superseded current.version))
      fun reason => .database (.refused reason)), d) := by
  simp only [append, Step.transaction, hlatest, bind, Except.bind, hins, hret]
  cases objection <;> rfl

/-- A record that has a latest row is found, whatever else comes of adding a version to it. -/
theorem append_ne_notFound (hlatest : Versioned.latest? k.Data id d = .ok (some current))
    (table key : String) : (Versioned.append id uid a d).1 ≠ .error (.notFound table key) := by
  let next : Version k.Data := { current.toMeta.successor uid with data := a }
  cases hins : insertNext d next with
  | error fault =>
    rw [append_of_obstacle hlatest hins]
    -- What keeps the version out is a conflict or a fault of the database.
    rw [insertNext] at hins
    split at hins
    · cases hins
    · split at hins
      · simp [← Except.error.inj hins]
      · simp [← Except.error.inj hins]
  | ok d₁ =>
    have hins : insertNext d { current.toMeta.successor uid with data := a } = .ok d₁ := hins
    simp only [append, Step.transaction, hlatest, bind, Except.bind, hins]
    cases hret : d₁.retire k.Data current.uid with
    | error cause => simp [StoreFault.ofDatabase, Except.mapError]
    | ok ending =>
      by_cases hone : ending.1 = 1
      · simp [StoreFault.ofDatabase, Except.mapError, hone, pure, Except.pure]
      · simp [StoreFault.ofDatabase, Except.mapError, hone, throw, throwThe, MonadExceptOf.throw]

/-- A key that is taken is a conflict, and anything else that keeps a version out is a fault of the
database. -/
theorem insertNext_eq_error {v : Version k.Data} {fault : DatabaseFault}
    (hrows : d.versionRows k = some rows) (hn : d.obstacle? rows v = some fault) :
    insertNext d v = .error (if fault.isDuplicate then
      .conflict (VersionedData.table k.Data) v.id (.taken fault) else .database fault) := by
  simp only [insertNext, Database.insert_eq_error hrows hn]
  split <;> rfl

end Versioned

/-! ## What the schema demands -/

/-- The table of a kind has these rows, which are as the present schema demands: each has an id of its own
and a number from one on that fits 64 bits. The table takes a pair of id and number once. Triggers may
watch it. -/
structure Database.Constrained (d : Database) (k : VersionKind) (rows : List (Version k.Data)) : Prop where
  versionRows_eq : d.versionRows k = some rows
  uniqueVersions : d.uniqueVersions (VersionedData.table k.Data) = true
  distinct : (rows.map (·.uid)).Nodup
  numbered : ∀ r ∈ rows, 1 ≤ r.version ∧ r.version ≤ maxInt64

namespace Database.Constrained

/-- The latest row of an id is the first one that claims to be. -/
theorem latest?_eq (h : d.Constrained k rows) (id : String) :
    Versioned.latest? k.Data id d = .ok (rows.find? fun r => r.id == id && r.isLatest) := by
  rw [Versioned.latest?, Database.latest?, versions_eq_ok_iff.mpr h.versionRows_eq]
  rfl

/-- New rows do not make a trigger object. -/
theorem retiringObjection?_setRows (rs : List (Version k.Data)) (t : Table) :
    (VersionedTable.setRows (some rs) d).retiringObjection? t = d.retiringObjection? t := by
  cases k <;> rfl

end Database.Constrained

/-! ## All that can happen -/

/-- What adding a version with the data `a` and an own id `uid` to the record of `id` comes to, where `found`
is the latest row of the id. -/
structure Versioned.Appended (d : Database) (rows : List (Version k.Data)) (id uid : String) (a : k.Data)
    (found : Option (Version k.Data)) (outcome : Except StoreFault (Version k.Data)) (d' : Database) :
    Prop where
  /-- The record is not found if it has no latest row, and only then. -/
  notFound_iff : ∀ table key, outcome = .error (.notFound table key) ↔
    found = none ∧ table = VersionedData.table k.Data ∧ key = id
  /-- The version is added if there is a number left, its data can be stored, its number is free, and no
  trigger objects to retiring a row of the table. Only the latest row loses its claim, and only one row is
  new. -/
  added : ∀ current, found = some current → current.version < maxInt64 → k.IsStorable a →
    (∀ r ∈ rows, r.id = id → r.version ≠ current.version + 1) →
    d.retiringObjection? (VersionedTable.tableId k.Data) = none →
    ∃ next : Version k.Data, outcome = .ok next ∧
      next.toMeta = { id := current.id, version := current.version + 1, uid, isLatest := true } ∧
      next.data = a ∧ (next.stored.data == a) = true ∧
      ∃ before after, rows = before ++ current :: after ∧
        d' = VersionedTable.setRows (some (before ++ current.retired :: after ++ [next.stored])) d
  /-- A number that is taken is a conflict. -/
  taken : ∀ current, found = some current → k.IsStorable a →
    (∃ r ∈ rows, r.id = id ∧ r.version = current.version + 1) →
    ∃ cause, outcome = .error (.conflict (VersionedData.table k.Data) id cause)
  /-- Data that cannot be stored, and a number past the last one, are faults of the database. -/
  rejected : ∀ current, found = some current → ¬k.IsStorable a ∨ current.version = maxInt64 →
    ∃ cause, outcome = .error (.database cause)
  /-- Where a trigger objects, the version that is in the table by then is not added: the latest row cannot
  be retired, or is not without a word. -/
  objected : ∀ current, found = some current → current.version < maxInt64 → k.IsStorable a →
    (∀ r ∈ rows, r.id = id → r.version ≠ current.version + 1) →
    ∀ objection, d.retiringObjection? (VersionedTable.tableId k.Data) = some objection →
    outcome = .error (objection.elim
      (.conflict (VersionedData.table k.Data) id (.superseded current.version))
      fun reason => .database (.refused reason))
  /-- What fails changes nothing, at whatever step. -/
  unchanged : ∀ fault, outcome = .error fault → d' = d

namespace Database.Constrained

section Found

variable (h : d.Constrained k rows)
  (hfound : (rows.find? fun r => r.id == id && r.isLatest) = some current)
include h hfound

theorem latest?_eq_some : Versioned.latest? k.Data id d = .ok (some current) := by
  rw [h.latest?_eq, hfound]

/-- The latest row is a row of the id with a number in the range. -/
theorem of_found : current ∈ rows ∧ current.id = id ∧ 1 ≤ current.version ∧
    current.version ≤ maxInt64 := by
  have hmem := List.mem_of_find?_eq_some hfound
  obtain ⟨hclaim, -⟩ := List.find?_eq_some_iff_append.mp hfound
  exact ⟨hmem, beq_iff_eq.mp ((Bool.and_eq_true _ _).mp hclaim).1, h.numbered current hmem⟩

/-- The number after the last one is too low for the table. -/
theorem append_of_unfit (uid : String) (hunfit : ¬k.IsStorable a ∨ current.version = maxInt64) :
    ∃ cause, Versioned.append id uid a d = (.error (.database cause), d) := by
  let next : Version k.Data := { current.toMeta.successor uid with data := a }
  have hunfit : nullColumn? (VersionedData.columns k.Data) (VersionedData.cells next.data) ≠ none ∨
      next.version < 1 := by
    rcases hunfit with hunfit | hlast
    · exact Or.inl (mt nullColumn?_eq_none_iff.mp hunfit)
    · right
      show nextVersion current.version < 1
      rw [hlast]
      exact nextVersion_maxInt64
  obtain ⟨fault, hn, hkey⟩ :
      ∃ fault, d.obstacle? rows next = some fault ∧ fault.isDuplicate = false :=
    obstacle?_of_unfit hunfit
  refine ⟨fault, Versioned.append_of_obstacle (h.latest?_eq_some hfound) ?_⟩
  rw [Versioned.insertNext_eq_error h.versionRows_eq hn, hkey]
  rfl

theorem append_of_taken (uid : String) (hstorable : k.IsStorable a)
    (htaken : ∃ r ∈ rows, r.id = id ∧ r.version = current.version + 1) :
    ∃ cause, Versioned.append id uid a d =
      (.error (.conflict (VersionedData.table k.Data) id cause), d) := by
  obtain ⟨-, hid, hone, -⟩ := h.of_found hfound
  obtain ⟨r, hr, hrid, hnumber⟩ := htaken
  -- The number is that of a row, so it is in the range.
  have hmax := (h.numbered r hr).2
  have hnext := nextVersion_of_lt hone (by omega)
  let next : Version k.Data := { current.toMeta.successor uid with data := a }
  have hversion : 1 ≤ next.version := by
    show 1 ≤ nextVersion current.version
    omega
  let fault : DatabaseFault := .notUnique (VersionedData.table k.Data) ["id", "version"]
  have hn : d.obstacle? rows next = some fault :=
    obstacle?_of_taken h.uniqueVersions (nullColumn?_eq_none_iff.mpr hstorable) hversion
      ⟨r, hr, hrid.trans hid.symm, hnumber.trans hnext.symm⟩
  have hins : Versioned.insertNext d next =
      .error (.conflict (VersionedData.table k.Data) id (.taken fault)) := by
    rw [Versioned.insertNext_eq_error h.versionRows_eq hn, ← hid]
    rfl
  exact ⟨_, Versioned.append_of_obstacle (h.latest?_eq_some hfound) hins⟩

section Free

variable (hfresh : ∀ r ∈ rows, r.uid ≠ uid) (hstorable : k.IsStorable a)
  (hroom : current.version < maxInt64)
  (hfree : ∀ r ∈ rows, r.id = id → r.version ≠ current.version + 1)
include hfresh hstorable hroom hfree

/-- A version whose number is free gets into the table. -/
theorem insertNext_of_free :
    let next : Version k.Data :=
      { id := current.id, version := current.version + 1, uid, isLatest := true, data := a }
    { current.toMeta.successor uid with data := a } = next ∧ d.obstacle? rows next = none ∧
      Versioned.insertNext d next =
        .ok (VersionedTable.setRows (some (rows ++ [next.stored])) d) := by
  obtain ⟨-, hid, hone, -⟩ := h.of_found hfound
  intro next
  have hnext : { current.toMeta.successor uid with data := a } = next := by
    simp only [Meta.successor, nextVersion_of_lt hone hroom, next]
  have hn : d.obstacle? rows next = none := by
    refine obstacle?_of_free (nullColumn?_eq_none_iff.mpr hstorable) ?_ ?_ hfresh
    · show 1 ≤ current.version + 1
      omega
    · intro r hr hrid
      exact hfree r hr (hrid.trans hid)
  refine ⟨hnext, hn, Versioned.insertNext_eq_ok_iff.mpr ?_⟩
  exact insert_eq_ok_iff.mpr ⟨rows, h.versionRows_eq, hn, rfl⟩

theorem append_of_free
    (hquiet : d.retiringObjection? (VersionedTable.tableId k.Data) = none) :
    ∃ before after, rows = before ++ current :: after ∧
      let next : Version k.Data :=
        { id := current.id, version := current.version + 1, uid, isLatest := true, data := a }
      Versioned.append id uid a d = (.ok next,
        VersionedTable.setRows (some (before ++ current.retired :: after ++ [next.stored])) d) := by
  obtain ⟨hmem, -⟩ := h.of_found hfound
  obtain ⟨hclaim, before, after, hsplit, -⟩ := List.find?_eq_some_iff_append.mp hfound
  have hflag : current.isLatest = true := ((Bool.and_eq_true _ _).mp hclaim).2
  refine ⟨before, after, hsplit, ?_⟩
  intro next
  obtain ⟨hnext, hn, -⟩ := h.insertNext_of_free hfound hfresh hstorable hroom hfree
  -- The row of the new version is there when the latest one is retired, and has an id of its own.
  have hgrown : ((rows ++ [next.stored]).map (·.uid)).Nodup := by
    rw [List.map_append, List.map_singleton, List.nodup_append]
    refine ⟨h.distinct, List.nodup_singleton _, fun u hu w hw => ?_⟩
    obtain ⟨r, hr, rfl⟩ := List.mem_map.mp hu
    rw [List.mem_singleton.mp hw]
    exact hfresh r hr
  have hret := retire_eq_one_ok ((retiringObjection?_setRows _ _).trans hquiet)
    (versionRows_setRows d k (some (rows ++ [next.stored]))) hgrown (List.mem_append_left _ hmem) hflag
  have hrows : VersionedTable.rows? (VersionedTable.setRows (some (rows ++ [next.stored])) d) =
      some (before ++ current :: (after ++ [next.stored])) := by
    rw [VersionedTable.rows?_setRows, hsplit]
    simp
  have hretired := retire_eq_one hrows hflag hret
  refine Versioned.append_eq_ok_iff.mpr ⟨rows, current, h.versionRows_eq, hfound, hnext, hn, ?_⟩
  rw [hret, hretired, VersionedTable.setRows_setRows]
  simp

/-- The version that has got into the table does not stay there if a trigger objects. -/
theorem append_of_objected {objection : Option String}
    (hobjection : d.retiringObjection? (VersionedTable.tableId k.Data) = some objection) :
    Versioned.append id uid a d = (.error (objection.elim
      (.conflict (VersionedData.table k.Data) id (.superseded current.version))
      fun reason => .database (.refused reason)), d) := by
  obtain ⟨hmem, -⟩ := h.of_found hfound
  obtain ⟨hclaim, -⟩ := List.find?_eq_some_iff_append.mp hfound
  have hflag : current.isLatest = true := ((Bool.and_eq_true _ _).mp hclaim).2
  obtain ⟨hnext, -, hins⟩ := h.insertNext_of_free hfound hfresh hstorable hroom hfree
  rw [← hnext] at hins
  refine Versioned.append_of_objection (h.latest?_eq_some hfound) hins ?_
  exact retire_of_objection ((retiringObjection?_setRows _ _).trans hobjection)
    (versionRows_setRows d k _) (List.mem_append_left _ hmem) hflag

end Free

end Found

/-- Adding a version to a table that is as the schema demands comes to what it should. -/
theorem appended (h : d.Constrained k rows) (hfresh : ∀ r ∈ rows, r.uid ≠ uid) (id : String)
    (a : k.Data) :
    Versioned.Appended d rows id uid a (rows.find? fun r => r.id == id && r.isLatest)
      (Versioned.append id uid a d).1 (Versioned.append id uid a d).2 where
  notFound_iff table key := by
    have hlatest := h.latest?_eq id
    cases hfound : rows.find? fun r => r.id == id && r.isLatest with
    | none =>
      rw [hfound] at hlatest
      rw [Versioned.append_of_none hlatest]
      simp [eq_comm]
    | some current =>
      have hother : (Versioned.append id uid a d).1 ≠ .error (.notFound table key) :=
        Versioned.append_ne_notFound (h.latest?_eq_some hfound) table key
      simp [hother]
  added current hfound hroom hstorable hfree hquiet := by
    obtain ⟨before, after, hsplit, heq⟩ :=
      h.append_of_free hfound hfresh hstorable hroom hfree hquiet
    have hsame := stored_beq (nullColumn?_eq_none_iff.mpr hstorable)
    rw [heq]
    exact ⟨_, rfl, rfl, rfl, hsame, before, after, hsplit, rfl⟩
  taken current hfound hstorable htaken := by
    obtain ⟨cause, heq⟩ := h.append_of_taken hfound uid hstorable htaken
    exact ⟨cause, by rw [heq]⟩
  rejected current hfound hunfit := by
    obtain ⟨cause, heq⟩ := h.append_of_unfit hfound uid hunfit
    exact ⟨cause, by rw [heq]⟩
  objected current hfound hroom hstorable hfree objection hobjection := by
    rw [h.append_of_objected hfound hfresh hstorable hroom hfree hobjection]
  unchanged fault hfault := by
    rcases Versioned.append_continued id uid a d with ⟨_, heq⟩ | ⟨v, d', heq, -⟩
    · rw [heq]
    · rw [heq] at hfault
      cases hfault

end Database.Constrained

/-- Whatever rows there are that the schema allows, and whatever triggers, adding a version to the record of
an id does what the data and the latest row of the id ask for. The meta data that come with the record make
no difference, and nothing but the table and the supply of ids is different afterwards. -/
theorem Ledger.append_appended {l : Ledger} (h : l.cluster.primary.Constrained k rows)
    (hfresh : ∀ r ∈ rows, r.uid ≠ l.supply.ids l.supply.drawn) (id : String) (record : Version k.Data) :
    ∃ found outcome d', l.latest? k.Data .strong id = (.ok found, l) ∧
      (Operation.versioned k (.append id record)).run l = (outcome,
        { l with cluster := { l.cluster with primary := d' }, supply := l.supply.id.2 }) ∧
      Versioned.Appended l.cluster.primary rows id (l.supply.ids l.supply.drawn) record.data found
        outcome d' := by
  refine ⟨_, _, _, ?_, rfl, h.appended hfresh id record.data⟩
  rw [latest?, onRead_strong, h.latest?_eq]

/-- Two rows of the record `a` claim to be the latest: the first one of them is continued, and a number that
is left out is taken. Of the record `b` there is only a row that claims nothing. Where a trigger refuses to
retire a row, nothing is added to the record `a`. -/
theorem Ledger.append_appended_stray :
    let t : Timelog := { duration := 0, timeStart := 0, timeEnd := 0, type := "", jobUid := "" }
    let first : Version VersionKind.timelog.Data :=
      { id := "a", version := 1, uid := "x", isLatest := true, data := t }
    let third : Version VersionKind.timelog.Data :=
      { id := "a", version := 3, uid := "y", isLatest := true, data := t }
    let stray : Version VersionKind.timelog.Data :=
      { id := "b", version := 7, uid := "z", isLatest := false, data := t }
    let next : Version VersionKind.timelog.Data :=
      { id := "a", version := 2, uid := "u", isLatest := true, data := t }
    let d : Database := { Database.fresh with timelogs := some [first, third, stray] }
    let watched : Database :=
      { d with triggers := [⟨"reject_flip", .timelog, .refuseRetiring "flip rejected"⟩] }
    let l (d : Database) : Ledger :=
      { cluster := { primary := d, replicas := [], turn := 0 }
        supply := { ids := fun _ => "u", times := fun _ => "", drawn := 0 } }
    d.Constrained .timelog [first, third, stray] ∧ (∀ r ∈ [first, third, stray], r.uid ≠ "u") ∧
      (∃ l', (l d).append "a" t = (.ok next, l') ∧
        l'.cluster.primary.timelogs = some [first.retired, third, stray, next]) ∧
      (∃ l', (l d).append "b" t = (.error (.notFound "timelog" "b"), l')) ∧
      watched.Constrained .timelog [first, third, stray] ∧
      ∃ l', (l watched).append "a" t = (.error (.database (.refused "flip rejected")), l') ∧
        l'.cluster.primary = watched := by
  intro t first third stray next d watched l
  have h : d.Constrained .timelog [first, third, stray] := {
    versionRows_eq := rfl
    uniqueVersions := (Database.isMigrated_freshOn .plain).uniqueVersions .timelog
    distinct := by decide
    numbered := by decide }
  have hwatched : watched.Constrained .timelog [first, third, stray] := { h with }
  have hfresh : ∀ r ∈ [first, third, stray], r.uid ≠ "u" := by decide
  refine ⟨h, hfresh, ?_, ?_, hwatched, ?_⟩
  · obtain ⟨found, outcome, d', hfound, hrun, happended⟩ := append_appended (l := l d) h hfresh "a" stray
    obtain rfl : some first = found := Except.ok.inj (congrArg Prod.fst hfound)
    obtain ⟨v, rfl, hmeta, hdata, -, before, after, hsplit, rfl⟩ :=
      happended.added first rfl (by decide) trivial (by decide) rfl
    obtain rfl : v = next := by
      cases v
      subst hmeta hdata
      rfl
    -- The first row is the one that is continued, so there is none before it.
    have hbefore : before = [] := by
      cases before with
      | nil => rfl
      | cons r before =>
        have hrest : [third, stray] = before ++ first :: after := (List.cons.inj hsplit).2
        have hmem : first ∈ [third, stray] := by simp [hrest]
        exact absurd (List.mem_map_of_mem (f := (·.uid)) hmem) (by decide)
    subst hbefore
    obtain rfl := (List.cons.inj hsplit).2
    exact ⟨_, hrun, rfl⟩
  · obtain ⟨found, outcome, d', hfound, hrun, happended⟩ := append_appended (l := l d) h hfresh "b" stray
    obtain rfl : none = found := Except.ok.inj (congrArg Prod.fst hfound)
    obtain rfl := (happended.notFound_iff "timelog" "b").mpr ⟨rfl, rfl, rfl⟩
    exact ⟨_, hrun⟩
  · obtain ⟨found, outcome, d', hfound, hrun, happended⟩ :=
      append_appended (l := l watched) hwatched hfresh "a" stray
    obtain rfl : some first = found := Except.ok.inj (congrArg Prod.fst hfound)
    have houtcome := happended.objected first rfl (by decide) trivial (by decide)
      (some "flip rejected") rfl
    obtain rfl : d' = watched := happended.unchanged _ houtcome
    rw [houtcome] at hrun
    exact ⟨_, hrun, rfl⟩

end Payroll
