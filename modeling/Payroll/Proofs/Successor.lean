import Payroll.Proofs.Integrity
import Payroll.Proofs.Invariant
import Payroll.Proofs.Register
/-!
# A version can always be added

Nothing keeps the next version of a record out of its table if its data can be stored, its id of its own
is new and the numbers have not run out. What valid data refer to is found when it is looked up, since
every table that is changed in place can be read; and an id that is drawn is new, since all versions have
got theirs from the same supply.

## Key results

- `Versioned.append_eq`: what adding a version comes to
- `Reference.check_eq_ok`: a reference that holds is found
- `Ledger.isInvariant_registered`: tables that are changed in place can be read in every state
- `Ledger.isInvariant_uidsDrawn`: versions have got their own ids from the supply
-/

namespace Payroll

open History (Orderly ofId row rows)
open Ledger (IsInvariant)
open Static (passes)

variable {k : VersionKind} {l : Ledger} {hs : Histories} {d : Database}

/-! ## Adding a version -/

/-- The next version of a record is added if its data can be stored, its id of its own is new and the
numbers have not run out. -/
theorem Versioned.append_eq {h : List (Version k.Data)} (hm : d.IsMigrated) (hk : d.Keeps k h)
    {id uid : String} {a : k.Data} {v : Version k.Data} (hlast : (ofId id h).getLast? = some v)
    (hroom : v.version < maxInt64) (huid : uid ∉ h.map (·.uid))
    (hnull : Database.nullColumn? (VersionedData.columns k.Data) (VersionedData.cells a) = none) :
    let next : Version k.Data := { id, version := v.version + 1, uid, isLatest := true, data := a }
    Orderly (h ++ [next]) ∧ Versioned.append id uid a d =
      (.ok next, VersionedTable.setRows (some (rows (h ++ [next]))) d) := by
  intro next
  obtain ⟨hv, hvid⟩ := History.mem_ofId.mp (List.mem_of_getLast? hlast)
  have hcount : v.version = (ofId id h).length := hk.orderly.version_getLast? hlast
  have hone : 0 < (ofId id h).length := List.length_pos_of_mem (List.mem_of_getLast? hlast)
  have hsucc : nextVersion v.version = v.version + 1 := nextVersion_of_lt (by omega) hroom
  have hnext : { (row true v).toMeta.successor uid with data := a } = next := by
    simp only [Meta.successor, next]
    rw [History.row_id, History.row_version, hvid, hsucc]
  have hfound : ((rows h).find? fun r => r.id == id && r.isLatest) = some (row true v) := by
    rw [History.find?_latest_rows, hlast, Option.map_some]
  -- Nothing is in the way of the new row: its number is above those of all rows of the id.
  have hbelow : ∀ r ∈ rows h, r.id = id → r.version ≤ v.version := by
    intro r hr hid
    obtain ⟨before, w, after, rfl, rfl⟩ := History.mem_rows.mp hr
    have hw : w.id = id := hid
    have hnumber := hk.orderly.version_eq
    rw [History.row_version, hnumber, hcount, History.ofId_append, hw, ← hw, History.ofId_cons_self,
      List.length_append, List.length_cons]
    omega
  have hfree : Database.obstacle? d (rows h) next = none := by
    refine Database.obstacle?_of_free hnull ?_ (fun r hr hid => ?_) fun r hr heq => ?_
    · show 1 ≤ v.version + 1
      omega
    · have hle := hbelow r hr hid
      show r.version ≠ v.version + 1
      omega
    · refine huid ?_
      rw [← History.map_uid_rows]
      exact List.mem_map.mpr ⟨r, hr, heq⟩
  have ho : Orderly (h ++ [next]) := by
    have hid : next.id = v.id := hvid.symm
    refine hk.concat_next hm hlast hid ?_ hfree
    rw [hsucc]
  have hrows := Database.versionRows_setRows d k (some (rows h ++ [row true next]))
  have hdistinct : ((rows h ++ [row true next]).map (·.uid)).Nodup := by
    rw [List.map_append, History.map_uid_rows]
    have hd := ho.distinct
    rwa [List.map_append] at hd
  have hmem : row true v ∈ rows h ++ [row true next] :=
    List.mem_append_left _ (List.mem_of_find?_eq_some hfound)
  have hquiet := (hm.setVersionRows k (rows h ++ [row true next])).retiringObjection?_eq_none
  have hret := Database.retire_eq_one_ok (hquiet _) hrows hdistinct hmem rfl
  rw [History.row_uid, ← History.rows_concat_next ho.distinct hlast, VersionedTable.setRows_setRows] at hret
  exact ⟨ho, Versioned.append_eq_ok_iff.mpr
    ⟨rows h, row true v, hk.versionRows_eq, hfound, hnext, hfree, hret⟩⟩

/-! ## References that hold are found -/

/-- Every table that is changed in place registers its records. -/
def Ledger.Registered (l : Ledger) : Prop :=
  ∀ s, ∃ as, l.cluster.primary.Holds s as

/-- A row of a table that registers its records has one of them. -/
theorem Database.Holds.exists_of_row {s : StaticKind} {as : List s.Data} (h : d.Holds s as)
    {rs : List StaticRow} (hrs : d.staticRows s = some rs) {r : StaticRow} (hr : r ∈ rs) :
    ∃ a ∈ as, StaticData.id a = r.id := by
  obtain ⟨rs', hrs', hregisters⟩ := h
  obtain rfl := Option.some.inj (hrs.symm.trans hrs')
  have hmem : r.unplaced ∈ rs.map StaticRow.unplaced := List.mem_map_of_mem hr
  rw [hregisters.unplaced] at hmem
  obtain ⟨a, ha, heq⟩ := List.mem_map.mp hmem
  exact ⟨a, ha, congrArg StaticRow.id heq⟩

/-- A record whose row is there is found by its id. -/
theorem Ledger.get?_of_row (hl : l.Registered) {s : StaticKind} {rs : List StaticRow}
    (hrs : l.cluster.primary.staticRows s = some rs) {r : StaticRow} (hr : r ∈ rs) :
    ∃ a, l.get? s.Data .strong r.id = (.ok (some a), l) := by
  obtain ⟨as, h⟩ := hl s
  obtain ⟨a, ha, hid⟩ := h.exists_of_row hrs hr
  have hfilter : (Sql.Filter.one "id" (.text r.id)).validate (Static.filterable s.Data) = .ok () := by
    cases s <;> rfl
  -- The record passes the filter, so something does.
  have hpasses : a ∈ as.filter (passes (.one "id" (.text r.id))) := by
    rw [List.mem_filter]
    refine ⟨ha, ?_⟩
    rw [passes, holds_one_id]
    exact hid
  obtain ⟨first, rest, hcons⟩ := List.exists_cons_of_ne_nil (List.ne_nil_of_mem hpasses)
  have hshort : ¬Database.maxTerms < (Sql.Filter.one "id" (.text r.id)).terms.length :=
    (by decide : ¬Database.maxTerms < 1)
  refine ⟨first, ?_⟩
  rw [get?, first?, onRead_strong, h.first?_eq hfilter, h.allWhere_eq hfilter, if_neg hshort, hcons]
  rfl

/-- A version of the history is found by its own id. -/
theorem Ledger.Keeps.ofUid?_of_mem (hl : l.Keeps hs) {v : Version k.Data} (hv : v ∈ hs k) :
    ∃ b, l.ofUid? k.Data .strong v.uid = (.ok (some (row b v)), l) := by
  obtain ⟨g, w, heq⟩ := List.append_of_mem hv
  refine ⟨!w.any (·.id == v.id), ?_⟩
  have hfound := hl.ofUid?_eq_of_mem heq
  rw [ofUid?, onRead_strong] at hfound ⊢
  exact Prod.ext hfound rfl

/-- A reference that holds is found, and looking it up leaves everything as it is. -/
theorem Reference.check_eq_ok (hl : l.Keeps hs) (hregistered : l.Registered) {r : Reference}
    (hr : r.Holds l.cluster.primary hs) : r.check.perform l = (.ok (), l) := by
  cases r with
  | company id =>
    obtain ⟨rs, hrs, row, hrow, rfl⟩ := hr
    obtain ⟨c, hc⟩ := Ledger.get?_of_row hregistered hrs hrow
    have hc : l.get? Company .strong row.id = (.ok (some c), l) := hc
    rw [check, Service.perform_bind, Service.perform_ofLedger, hc]
    rfl
  | contractor id =>
    obtain ⟨rs, hrs, row, hrow, rfl⟩ := hr
    obtain ⟨c, hc⟩ := Ledger.get?_of_row hregistered hrs hrow
    have hc : l.get? Contractor .strong row.id = (.ok (some c), l) := hc
    rw [check, Service.perform_bind, Service.perform_ofLedger, hc]
    rfl
  | job uid =>
    obtain ⟨v, hv, rfl⟩ := hr
    obtain ⟨b, hb⟩ := hl.ofUid?_of_mem hv
    have hb : l.ofUid? Job .strong v.uid = (.ok (some (row b v)), l) := hb
    rw [check, Service.perform_bind, Service.perform_ofLedger, hb]
    rfl
  | timelog uid jobUid =>
    obtain ⟨v, hv, rfl, rfl⟩ := hr
    obtain ⟨b, hb⟩ := hl.ofUid?_of_mem hv
    have hb : l.ofUid? Timelog .strong v.uid = (.ok (some (row b v)), l) := hb
    -- A timelog is read back with the job that it was written with.
    have hjob : ¬(row b v).data.jobUid ≠ Timelog.jobUid v.data := not_not_intro rfl
    rw [check, Service.perform_bind, Service.perform_ofLedger, hb]
    exact congrArg (Service.perform · l) (if_neg hjob)

/-- References that hold are found one after the other. -/
theorem Reference.forM_check_eq_ok (hl : l.Keeps hs) (hregistered : l.Registered)
    {refs : List Reference} (hrefs : ∀ r ∈ refs, r.Holds l.cluster.primary hs) :
    (refs.forM Reference.check).perform l = (.ok (), l) := by
  induction refs with
  | nil => rfl
  | cons r refs ih =>
    have hr := check_eq_ok hl hregistered (hrefs r List.mem_cons_self)
    show (r.check >>= fun _ => refs.forM check).perform l = _
    rw [Service.perform_bind, hr]
    exact ih fun r' hr' => hrefs r' (List.mem_cons_of_mem r hr')

/-! ## What holds in every state -/

namespace Ledger

theorem registered_opened (engine : Engine) (replicas : List Replica) (turn : Nat) (supply : Supply) :
    (opened engine replicas turn supply).Registered :=
  fun s => ⟨[], [], Database.staticRows_freshOn engine s, registers_nil s⟩

/-- Whatever calls do, tables that are changed in place can be read. -/
theorem isInvariant_registered : IsInvariant Registered where
  quiet hp _ _ hl s := by
    obtain ⟨as, h⟩ := hl s
    exact ⟨as, by rwa [hp]⟩
  add {l} s a hl s' := by
    by_cases hss : s = s'
    · subst hss
      obtain ⟨as, h⟩ := hl s
      exact ⟨_, (Static.Operation.add a).holds_run trivial h⟩
    · -- The table of the other kind is not touched.
      obtain ⟨as, h⟩ := hl s'
      refine ⟨as, h.congr ?_⟩
      obtain ⟨-, ⟨fault, -, hsame⟩ | ⟨b, -, rows, r, -, -, hadded⟩⟩ := makes_add s a l
      · rw [hsame]
      · rw [hadded, Database.staticRows_setRows_of_ne _ hss]
  create {l} k a hl s := by
    obtain ⟨as, h⟩ := hl s
    refine ⟨as, h.congr ?_⟩
    obtain ⟨-, ⟨fault, -, hsame⟩ | ⟨v, -, -, -, -, rows, -, hadded⟩⟩ := makes_create k a l
    · rw [hsame]
    · rw [hadded, Database.staticRows_setRows_version]
  append {l} k id a hl s := by
    obtain ⟨as, h⟩ := hl s
    refine ⟨as, h.congr ?_⟩
    obtain ⟨-, ⟨fault, -, hsame⟩ | ⟨v, -, hcont⟩⟩ := makes_append k id a l
    · rw [hsame]
    · obtain ⟨-, -, -, before, current, after, -, -, -, -, hadded⟩ := hcont
      rw [hadded, Database.staticRows_setRows_version]

/-- All versions have got ids of their own that were drawn from the ids of the supply. -/
structure UidsDrawn (ids : Nat → String) (l : Ledger) : Prop where
  ids_eq : l.supply.ids = ids
  drawn : ∀ k rows, l.cluster.primary.versionRows k = some rows →
    ∀ r ∈ rows, ∃ n < l.supply.drawn, r.uid = ids n

theorem uidsDrawn_opened (engine : Engine) (replicas : List Replica) (turn : Nat) (supply : Supply) :
    (opened engine replicas turn supply).UidsDrawn supply.ids where
  ids_eq := rfl
  drawn k rows hrows := by
    obtain rfl := Option.some.inj ((Database.versionRows_freshOn engine k).symm.trans hrows)
    exact nofun

/-- Versions still have drawn ids where the tables have the rows that they had. -/
theorem UidsDrawn.of_rows {ids : Nat → String} {l' : Ledger} (hl : l.UidsDrawn ids)
    (hids : l'.supply.ids = l.supply.ids) (hdrawn : l.supply.drawn ≤ l'.supply.drawn)
    (hsame : ∀ k, l'.cluster.primary.versionRows k = l.cluster.primary.versionRows k) :
    l'.UidsDrawn ids := by
  refine ⟨hids.trans hl.ids_eq, fun k rows hrows r hr => ?_⟩
  obtain ⟨n, hn, huid⟩ := hl.drawn k rows ((hsame k).symm.trans hrows) r hr
  exact ⟨n, by omega, huid⟩

/-- Versions still have drawn ids where a table has got other rows, if those have. -/
theorem UidsDrawn.of_setRows {ids : Nat → String} {l' : Ledger} (hl : l.UidsDrawn ids)
    (hids : l'.supply.ids = l.supply.ids) (hdrawn : l.supply.drawn ≤ l'.supply.drawn)
    {rows rows' : List (Version k.Data)} (hrows : l.cluster.primary.versionRows k = some rows)
    (hp : l'.cluster.primary = VersionedTable.setRows (some rows') l.cluster.primary)
    (hnew : ∀ r ∈ rows', (∃ s ∈ rows, s.uid = r.uid) ∨ ∃ n < l'.supply.drawn, r.uid = ids n) :
    l'.UidsDrawn ids := by
  refine ⟨hids.trans hl.ids_eq, fun k' rows'' hrows'' r hr => ?_⟩
  rw [hp] at hrows''
  by_cases hkk : k = k'
  · subst hkk
    rw [Database.versionRows_setRows, Option.some.injEq] at hrows''
    subst hrows''
    rcases hnew r hr with ⟨s, hs, huid⟩ | hnew
    · obtain ⟨n, hn, hsn⟩ := hl.drawn k rows hrows s hs
      exact ⟨n, by omega, huid.symm.trans hsn⟩
    · exact hnew
  · -- The tables of other kinds have the rows that they had.
    rw [Database.versionRows_setRows_of_ne _ hkk] at hrows''
    obtain ⟨n, hn, huid⟩ := hl.drawn k' rows'' hrows'' r hr
    exact ⟨n, by omega, huid⟩

/-- A version that is created has got the second id that is drawn. -/
theorem uid_of_create {a : k.Data} {v : Version k.Data} (h : (l.create a).1 = .ok v) :
    v.uid = l.supply.ids (l.supply.drawn + 1) := by
  simp only [create, Supply.firstMeta, Supply.id] at h
  obtain ⟨-, -, rfl⟩ := map_eq_ok_iff.mp h
  rfl

/-- A version that is added has got the id that is drawn. -/
theorem uid_of_append {id : String} {a : k.Data} {v : Version k.Data}
    (h : (l.append id a).1 = .ok v) : v.uid = l.supply.ids l.supply.drawn := by
  simp only [append, outcome_onPrimary, Supply.id] at h
  obtain ⟨-, current, -, -, rfl, -⟩ := Versioned.append_eq_ok_iff.mp (Prod.ext h rfl)
  rfl

/-- Whatever calls do, versions have got their own ids from the supply. -/
theorem isInvariant_uidsDrawn (ids : Nat → String) : IsInvariant (UidsDrawn ids) where
  quiet hp hids hdrawn hl := hl.of_rows hids hdrawn fun k => by rw [hp]
  add {l} s a hl := by
    have hdrawn : (Ledger.add l a).2.supply.drawn = l.supply.drawn + 1 := rfl
    refine hl.of_rows rfl (by omega) fun k => ?_
    obtain ⟨-, ⟨fault, -, hsame⟩ | ⟨b, -, rows, r, -, -, hadded⟩⟩ := makes_add s a l
    · rw [hsame]
    · rw [hadded, Database.versionRows_setRows_static]
  create {l} k a hl := by
    have hdrawn : (l.create a).2.supply.drawn = l.supply.drawn + 2 := rfl
    obtain ⟨-, ⟨fault, -, hsame⟩ | ⟨v, hv, -, -, -, rows, hrows, hadded⟩⟩ := makes_create k a l
    · exact hl.of_rows rfl (by omega) fun k => by rw [hsame]
    · refine hl.of_setRows rfl (by omega) hrows hadded fun r hr => ?_
      rcases List.mem_append.mp hr with hr | hr
      · exact Or.inl ⟨r, hr, rfl⟩
      · have huid : v.uid = l.supply.ids (l.supply.drawn + 1) := uid_of_create hv
        rw [List.mem_singleton.mp hr, ← hl.ids_eq]
        exact Or.inr ⟨l.supply.drawn + 1, by omega, huid⟩
  append {l} k id a hl := by
    have hdrawn : (l.append id a).2.supply.drawn = l.supply.drawn + 1 := rfl
    obtain ⟨-, ⟨fault, -, hsame⟩ | ⟨v, hv, hcont⟩⟩ := makes_append k id a l
    · exact hl.of_rows rfl (by omega) fun k => by rw [hsame]
    · obtain ⟨-, -, -, before, current, after, hrows, -, -, -, hadded⟩ := hcont
      refine hl.of_setRows rfl (by omega) hrows hadded fun r hr => ?_
      simp only [List.mem_append, List.mem_cons, List.not_mem_nil, or_false] at hr
      -- The row that is retired keeps its id, and the new one has got the id that was drawn.
      rcases hr with (hr | rfl | hr) | rfl
      · exact Or.inl ⟨r, by simp [hr], rfl⟩
      · exact Or.inl ⟨current, by simp, rfl⟩
      · exact Or.inl ⟨r, by simp [hr], rfl⟩
      · have huid : v.uid = l.supply.ids l.supply.drawn := uid_of_append hv
        rw [← hl.ids_eq]
        exact Or.inr ⟨l.supply.drawn, by omega, huid⟩

/-- Where no id is drawn twice, one that is still to be drawn belongs to no version. -/
theorem UidsDrawn.uid_ne {ids : Nat → String} (hl : l.UidsDrawn ids) (hids : Function.Injective ids)
    {rows : List (Version k.Data)} (hrows : l.cluster.primary.versionRows k = some rows)
    {r : Version k.Data} (hr : r ∈ rows) {n : Nat} (hn : l.supply.drawn ≤ n) : r.uid ≠ ids n := by
  intro heq
  obtain ⟨m, hm, huid⟩ := hl.drawn k rows hrows r hr
  have hmn : m = n := hids (huid.symm.trans heq)
  omega

end Ledger

end Payroll
