import Payroll.Proofs.Accepted
import Payroll.Proofs.Read
/-!
# References hold while requests are served at the same time

The service looks up what a record refers to before it writes the record, and others may write in
between. Still, what a record refers to is there in every state that can be reached, since nothing that
the service does takes a row away or changes which one it is.

## Key results

- `Reference.check_spec`: what looking up a reference tells
- `Draft.write_spec`: what writing a record does to the tables
- `Session.Intact.act`: what every action preserves
- `Session.integrity_run`: what holds of the records in every state that can be reached
-/

namespace Payroll

open Database (Extended)
open History (row rows)

variable {k : VersionKind} {l : Ledger} {d d' : Database} {hs hs' : Histories}

/-! ## References that hold -/

/-- What the reference asks for is there. -/
def Reference.Holds (d : Database) (hs : Histories) : Reference → Prop
  | .company id => ∃ rs, d.staticRows .company = some rs ∧ ∃ r ∈ rs, r.id = id
  | .contractor id => ∃ rs, d.staticRows .contractor = some rs ∧ ∃ r ∈ rs, r.id = id
  | .job uid => ∃ v ∈ hs .job, v.uid = uid
  | .timelog uid jobUid => ∃ v ∈ hs .timelog, v.uid = uid ∧ Timelog.jobUid v.data = jobUid

/-- Nothing that was there is gone: tables have at most more rows, and histories more versions. -/
structure Grown (d d' : Database) (hs hs' : Histories) : Prop where
  statics : ∀ s rs, d.staticRows s = some rs → ∃ more, d'.staticRows s = some (rs ++ more)
  versions : ∀ k, ∀ v ∈ hs k, v ∈ hs' k

theorem Grown.refl (d : Database) (hs : Histories) : Grown d d hs hs where
  statics _ rs hrs := ⟨[], by rw [hrs, List.append_nil]⟩
  versions _ _ hv := hv

/-- A reference that held still holds. -/
theorem Reference.Holds.mono {r : Reference} (hr : r.Holds d hs) (hg : Grown d d' hs hs') :
    r.Holds d' hs' := by
  cases r with
  | company id =>
    obtain ⟨rs, hrs, c, hc, hid⟩ := hr
    obtain ⟨more, hmore⟩ := hg.statics .company rs hrs
    exact ⟨rs ++ more, hmore, c, List.mem_append_left more hc, hid⟩
  | contractor id =>
    obtain ⟨rs, hrs, c, hc, hid⟩ := hr
    obtain ⟨more, hmore⟩ := hg.statics .contractor rs hrs
    exact ⟨rs ++ more, hmore, c, List.mem_append_left more hc, hid⟩
  | job uid =>
    obtain ⟨v, hv, huid⟩ := hr
    exact ⟨v, hg.versions .job v hv, huid⟩
  | timelog uid jobUid =>
    obtain ⟨v, hv, huid⟩ := hr
    exact ⟨v, hg.versions .timelog v hv, huid⟩

/-! ## Looking a reference up -/

/-- Reading and then deciding about what is found changes nothing on the primary, and succeeds only if
something is found on which the decision succeeds. -/
private theorem lookup_spec {β : Type} {f : Ledger → Except StoreFault (Option β) × Ledger}
    {decision : Option β → Service Unit} {w : Service Unit} (hw : w = Service.ofLedger f >>= decision)
    (hf : (f l).2.cluster.primary = l.cluster.primary)
    (hpure : ∀ found l, ((decision found).perform l).2 = l)
    (hnone : ∀ l, ((decision none).perform l).1 ≠ .ok ()) :
    (w.perform l).2.cluster.primary = l.cluster.primary ∧
      ((w.perform l).1 = .ok () →
        ∃ b, (f l).1 = .ok (some b) ∧ ((decision (some b)).perform (f l).2).1 = .ok ()) := by
  rw [hw, Service.perform_bind, Service.perform_ofLedger]
  cases hread : (f l).1 with
  | error fault => exact ⟨hf, nofun⟩ -- Nothing is decided if reading fails.
  | ok found =>
    refine ⟨by rw [← hf]; exact congrArg (·.cluster.primary) (hpure found _), fun hok => ?_⟩
    cases found with
    | none => exact absurd hok (hnone _)
    | some b => exact ⟨b, rfl, hok⟩

/-- Looking up a reference changes nothing on the primary, and succeeds only if the reference holds. -/
theorem Reference.check_spec (hl : l.Keeps hs) (r : Reference) :
    (r.check.perform l).2.cluster.primary = l.cluster.primary ∧
      ((r.check.perform l).1 = .ok () → r.Holds l.cluster.primary hs) := by
  cases r with
  | company id =>
    obtain ⟨hsame, hfound⟩ := lookup_spec (w := (Reference.company id).check) rfl
      (Ledger.primary_onRead l .strong _) (fun found _ => by cases found <;> rfl) (fun _ => nofun)
    refine ⟨hsame, fun hok => ?_⟩
    obtain ⟨c, hc, -⟩ := hfound hok
    exact Ledger.get?_eq_some hc
  | contractor id =>
    obtain ⟨hsame, hfound⟩ := lookup_spec (w := (Reference.contractor id).check) rfl
      (Ledger.primary_onRead l .strong _) (fun found _ => by cases found <;> rfl) (fun _ => nofun)
    refine ⟨hsame, fun hok => ?_⟩
    obtain ⟨c, hc, -⟩ := hfound hok
    exact Ledger.get?_eq_some hc
  | job uid =>
    obtain ⟨hsame, hfound⟩ := lookup_spec (w := (Reference.job uid).check) rfl
      (Ledger.primary_onRead l .strong _) (fun found _ => by cases found <;> rfl) (fun _ => nofun)
    refine ⟨hsame, fun hok => ?_⟩
    obtain ⟨r, hr, -⟩ := hfound hok
    obtain ⟨b, v, hv, huid, -⟩ := hl.exists_of_ofUid? (k := .job) hr
    exact ⟨v, hv, huid⟩
  | timelog uid jobUid =>
    obtain ⟨hsame, hfound⟩ := lookup_spec (w := (Reference.timelog uid jobUid).check) rfl
      (Ledger.primary_onRead l .strong _) (fun found _ => by
        cases found with
        | none => rfl
        | some t => dsimp only; split <;> rfl) (fun _ => nofun)
    refine ⟨hsame, fun hok => ?_⟩
    obtain ⟨r, hr, hdecision⟩ := hfound hok
    obtain ⟨b, v, hv, huid, rfl⟩ := hl.exists_of_ofUid? (k := .timelog) hr
    refine ⟨v, hv, huid, ?_⟩
    dsimp only at hdecision
    split at hdecision
    · exact nomatch hdecision
    · -- A timelog of another job is refused.
      rename_i hjob
      exact Decidable.not_not.mp hjob

/-! ## Writing a record -/

/-- Rows that are added to a table that is changed in place leave every such table with its rows. -/
theorem Grown.of_extended {s : StaticKind} (hd : Extended s.Data d d') : Grown d d' hs hs where
  statics s' rs hrs := by
    obtain ⟨rows, more, hrows, rfl⟩ := hd
    by_cases hss : s = s'
    · subst hss
      have hsame : some rows = some rs := hrows.symm.trans hrs
      rw [Database.staticRows_setRows, ← Option.some.inj hsame]
      exact ⟨more, rfl⟩
    · rw [Database.staticRows_setRows_of_ne _ hss, hrs]
      exact ⟨[], by rw [List.append_nil]⟩
  versions _ _ hv := hv

/-- An operation on versions takes nothing away. -/
theorem Grown.of_versioned (hl : l.Keeps hs) (o : Versioned.Operation k.Data) :
    Grown l.cluster.primary ((Operation.versioned k o).step l).cluster.primary hs
      fun k' => hs k' ++ (Operation.versioned k o).written k' l where
  statics s rs hrs := by
    have hp := (o.run_spec hl.isMigrated (hl.keeps k)).2
    refine ⟨[], ?_⟩
    rw [Operation.step, Operation.run, hp, Database.staticRows_setRows_version, hrs, List.append_nil]
  versions _ _ hv := List.mem_append_left _ hv

/-- Adding a record of a kind that is changed in place keeps the histories and takes nothing away. -/
private theorem add_spec (hl : l.Keeps hs) {s : StaticKind} (record : s.Data) (supply : Supply) :
    let l' := (Operation.static s (.add record)).step { l with supply }
    l'.Keeps hs ∧ Grown l.cluster.primary l'.cluster.primary hs hs := by
  intro l'
  have hl' : ({ l with supply } : Ledger).Keeps hs := hl.congr rfl
  constructor
  · simpa using hl'.step (.static s (.add record))
  · obtain ⟨rs, hrs⟩ := hl.isMigrated.exists_staticRows s
    exact Grown.of_extended (Static.insertMany_snd hrs _)

section

variable (l : Ledger)

/-! Writing a record is one operation of the store. -/

private theorem write_company (name : String) : ∃ (c : Company) (supply : Supply),
    ((Draft.company name).write.perform l).2 =
      (Operation.static .company (.add c)).step { l with supply } := by
  refine ⟨{ id := "", name, createdAt := l.supply.time.1, updatedAt := l.supply.time.1 },
    l.supply.time.2, ?_⟩
  rw [Draft.write, Service.perform_bind, Service.perform_now]
  simp only [Service.perform_discard]
  rfl

private theorem write_contractor (name email phone : String) : ∃ (c : Contractor) (supply : Supply),
    ((Draft.contractor name email phone).write.perform l).2 =
      (Operation.static .contractor (.add c)).step { l with supply } := by
  refine ⟨{ id := "", name, email, phone, createdAt := l.supply.time.1, updatedAt := l.supply.time.1 },
    l.supply.time.2, ?_⟩
  rw [Draft.write, Service.perform_bind, Service.perform_now]
  simp only [Service.perform_discard]
  rfl

private theorem write_create (record : Version k.Data) :
    ((Draft.create k record.data).write.perform l).2 =
      (Operation.versioned k (.create record)).step l := by
  rw [Draft.write, Service.perform_discard]
  rfl

private theorem write_append (id : String) (record : Version k.Data) :
    ((Draft.append k id record.data).write.perform l).2 =
      (Operation.versioned k (.append id record)).step l := by
  rw [Draft.write, Service.perform_discard]
  rfl

end

/-- Writing a record takes nothing away, and a new version has the data that are written. -/
theorem Draft.write_spec (hl : l.Keeps hs) (d : Draft) :
    ∃ hs', (d.write.perform l).2.Keeps hs' ∧
      Grown l.cluster.primary (d.write.perform l).2.cluster.primary hs hs' ∧
      ∀ k, ∀ v ∈ hs' k, v ∈ hs k ∨ d.data? = some ⟨k, v.data⟩ := by
  cases d with
  | company name =>
    obtain ⟨c, supply, heq⟩ := write_company l name
    rw [heq]
    obtain ⟨hkeeps, hgrown⟩ := add_spec hl (s := .company) c supply
    exact ⟨hs, hkeeps, hgrown, fun _ _ => Or.inl⟩
  | contractor name email phone =>
    obtain ⟨c, supply, heq⟩ := write_contractor l name email phone
    rw [heq]
    obtain ⟨hkeeps, hgrown⟩ := add_spec hl (s := .contractor) c supply
    exact ⟨hs, hkeeps, hgrown, fun _ _ => Or.inl⟩
  | create k a =>
    rw [write_create l { Meta.first "" "" with data := a }]
    refine ⟨_, hl.step _, .of_versioned hl _, fun k' v hv => ?_⟩
    refine (List.mem_append.mp hv).imp id fun hv => ?_
    rcases Operation.mem_written_iff.mp hv with ⟨record, ho, hok⟩ | ⟨id, record, ho, hok⟩
    · cases ho
      rw [(Ledger.create_eq_ok hok).2]
      rfl
    · cases ho
  | append k id a =>
    rw [write_append l id { Meta.first "" "" with data := a }]
    refine ⟨_, hl.step _, .of_versioned hl _, fun k' v hv => ?_⟩
    refine (List.mem_append.mp hv).imp (·) fun hv => ?_
    rcases Operation.mem_written_iff.mp hv with ⟨record, ho, hok⟩ | ⟨id', record, ho, hok⟩
    · cases ho
    · cases ho
      rw [(Ledger.append_eq_ok hl.isMigrated (hl.keeps _) hok).2.1]
      rfl

/-! ## What every action preserves -/

/-- Data of a kind are sound if they are valid and what they refer to is there. -/
structure Sound (d : Database) (hs : Histories) (k : VersionKind) (a : k.Data) : Prop where
  valid : k.IsValid a
  holds : ∀ r ∈ k.references a, r.Holds d hs

theorem Sound.mono {a : k.Data} (ha : Sound d hs k a) (hg : Grown d d' hs hs') : Sound d' hs' k a where
  valid := ha.valid
  holds r hr := (ha.holds r hr).mono hg

/-- A request that is being served is sound if what it writes is valid, and refers to what is there or is
still to be looked up. -/
structure Pending.Sound (d : Database) (hs : Histories) (p : Pending) : Prop where
  valid : ∀ (k : VersionKind) (a : k.Data), p.draft.data? = some ⟨k, a⟩ → k.IsValid a
  holds : ∀ r ∈ p.draft.references, r ∈ p.references ∨ r.Holds d hs

theorem Pending.Sound.mono {p : Pending} (hp : p.Sound d hs) (hg : Grown d d' hs hs') :
    p.Sound d' hs' where
  valid := hp.valid
  holds r hr := (hp.holds r hr).imp id (·.mono hg)

/-- The next operation of a sound request takes nothing away, writes at most sound data, and leaves the
request sound. -/
theorem Pending.next_spec (hl : l.Keeps hs) {p : Pending} (hp : p.Sound l.cluster.primary hs) :
    ∃ hs', (p.next.perform l).2.Keeps hs' ∧
      Grown l.cluster.primary (p.next.perform l).2.cluster.primary hs hs' ∧
      (∀ k, ∀ v ∈ hs' k, v ∈ hs k ∨
        Payroll.Sound (p.next.perform l).2.cluster.primary hs' k v.data) ∧
      ∀ p', (p.next.perform l).1 = .ok (some p') →
        p'.Sound (p.next.perform l).2.cluster.primary hs' := by
  obtain ⟨rs, d⟩ := p
  cases rs with
  | cons r rs =>
    -- A reference is looked up, which writes nothing.
    obtain ⟨hsame, hholds⟩ := r.check_spec hl
    rw [perform_next_cons]
    refine ⟨hs, hl.congr hsame, ?_, fun _ _ => Or.inl, fun p' hp' => ?_⟩
    · rw [hsame]
      exact .refl _ _
    · obtain ⟨⟨⟩, hok, hrest⟩ := map_eq_ok_iff.mp hp'
      rw [← Option.some.inj hrest, hsame]
      refine ⟨hp.valid, fun q hq => ?_⟩
      -- The reference that has been looked up holds, and the others are as before.
      rcases hp.holds q hq with hmem | hq
      · rcases List.mem_cons.mp hmem with rfl | hmem
        · exact Or.inr (hholds hok)
        · exact Or.inl hmem
      · exact Or.inr hq
  | nil =>
    -- All references have been looked up, so all of them hold when the record is written.
    obtain ⟨hs', hkeeps, hgrown, hnew⟩ := d.write_spec hl
    rw [perform_next_nil]
    refine ⟨hs', hkeeps, hgrown, fun k v hv => (hnew k v hv).imp id fun hdata => ?_, fun p' hp' => ?_⟩
    · refine ⟨hp.valid k v.data hdata, fun r hr => ?_⟩
      rw [← Draft.references_of_data? hdata] at hr
      rcases hp.holds r hr with hmem | hr
      · exact nomatch hmem
      · exact hr.mono hgrown
    · obtain ⟨-, -, hnone⟩ := map_eq_ok_iff.mp hp'
      exact nomatch hnone

/-- The primary keeps histories of sound data, and all requests that are being served are sound. -/
structure Session.Intact (s : Session) (hs : Histories) : Prop where
  keeps : s.ledger.Keeps hs
  versions : ∀ k, ∀ v ∈ hs k, Sound s.ledger.cluster.primary hs k v.data
  pending : ∀ p ∈ s.pending, p.Sound s.ledger.cluster.primary hs

namespace Session

theorem intact_opened (engine : Engine) (replicas : List Replica) (turn : Nat) (supply : Supply) :
    (Session.mk (.opened engine replicas turn supply) []).Intact fun _ => [] where
  keeps := Ledger.keeps_opened engine replicas turn supply
  versions _ _ hv := nomatch hv
  pending _ hp := nomatch hp

/-- Whatever happens next, data and requests are sound as before. -/
theorem Intact.act {s : Session} (hi : s.Intact hs) (a : Action) : ∃ hs', (s.act a).Intact hs' := by
  cases a with
  | receive r =>
    refine ⟨hs, ?_⟩
    rw [Session.act]
    split
    · rename_i d hd
      refine ⟨hi.keeps, hi.versions, fun p hp => ?_⟩
      rcases List.mem_append.mp hp with hp | hp
      · exact hi.pending p hp
      · -- Nothing has been looked up for a request that has just come in.
        rw [List.mem_singleton.mp hp]
        exact ⟨fun k a ha => r.isValid_of_check hd ha, fun _ hr => Or.inl hr⟩
    · exact hi
  | advance i =>
    rw [Session.act]
    split
    · exact ⟨hs, hi⟩
    · rename_i p hp
      obtain ⟨hs', hkeeps, hgrown, hnew, hrest⟩ :=
        p.next_spec hi.keeps (hi.pending p (List.mem_of_getElem? hp))
      refine ⟨hs', ?_⟩
      -- Others may have looked up what is there now, but nothing of it goes away.
      have hversions : ∀ k, ∀ v ∈ hs' k,
          Sound (p.next.perform s.ledger).2.cluster.primary hs' k v.data := by
        intro k v hv
        rcases hnew k v hv with hold | hsound
        · exact (hi.versions k v hold).mono hgrown
        · exact hsound
      split
      · rename_i p' l' heq
        rw [heq] at hkeeps hgrown hrest hversions
        refine ⟨hkeeps, hversions, fun q hq => ?_⟩
        rcases List.mem_or_eq_of_mem_set hq with hq | rfl
        · exact (hi.pending q hq).mono hgrown
        · exact hrest q rfl
      · rename_i l' heq
        rw [heq] at hkeeps hgrown hversions
        exact ⟨hkeeps, hversions, fun q hq => (hi.pending q (List.mem_of_mem_eraseIdx hq)).mono hgrown⟩
      · rename_i fault l' heq
        rw [heq] at hkeeps hgrown hversions
        exact ⟨hkeeps, hversions, fun q hq => (hi.pending q (List.mem_of_mem_eraseIdx hq)).mono hgrown⟩
  | abandon i =>
    exact ⟨hs, hi.keeps, hi.versions, fun p hp => hi.pending p (List.mem_of_mem_eraseIdx hp)⟩

/-- Whatever happens, data and requests stay sound. -/
theorem Intact.run {s : Session} (hi : s.Intact hs) (actions : List Action) :
    ∃ hs', (s.run actions).Intact hs' := by
  induction actions generalizing s hs with
  | nil => exact ⟨hs, hi⟩
  | cons a actions ih =>
    obtain ⟨hs', hi'⟩ := hi.act a
    exact ih hi'

end Session

/-! ## What the tables hold -/

/-- What holds of the rows of all tables, superseded versions included. -/
structure Integrity (companies contractors : List StaticRow) (jobs : List (Version Job))
    (timelogs : List (Version Timelog)) (payments : List (Version Payment)) : Prop where
  job : ∀ r ∈ jobs, (∃ c ∈ companies, c.id = r.data.companyId) ∧
    (∃ c ∈ contractors, c.id = r.data.contractorId) ∧ r.data.IsValid
  timelog : ∀ r ∈ timelogs, (∃ j ∈ jobs, j.uid = r.data.jobUid) ∧ r.data.IsValid
  payment : ∀ r ∈ payments, (∃ j ∈ jobs, j.uid = r.data.jobUid) ∧
    (∃ t ∈ timelogs, t.uid = r.data.timelogUid ∧ t.data.jobUid = r.data.jobUid) ∧ r.data.IsValid

/-- A version that a reference asks for has its row, whether it is the latest or not. -/
private theorem exists_row {uid : String} (h : ∃ v ∈ hs k, v.uid = uid) :
    ∃ r ∈ rows (hs k), r.uid = uid := by
  obtain ⟨v, hv, huid⟩ := h
  obtain ⟨b, hrow⟩ := History.exists_row_of_mem hv
  exact ⟨row b v, hrow, huid⟩

/-- Where the histories are sound, what the rows refer to is there. -/
theorem Session.Intact.integrity {s : Session} (hi : s.Intact hs) {companies contractors : List StaticRow}
    (hcompanies : s.ledger.cluster.primary.staticRows .company = some companies)
    (hcontractors : s.ledger.cluster.primary.staticRows .contractor = some contractors) :
    Integrity companies contractors (rows (hs .job)) (rows (hs .timelog)) (rows (hs .payment)) where
  job r hr := by
    obtain ⟨b, v, hv, rfl⟩ := History.exists_mem_of_row hr
    obtain ⟨hvalid, hholds⟩ := hi.versions .job v hv
    obtain ⟨cs, hcs, hcompany⟩ := hholds (.company _) List.mem_cons_self
    obtain ⟨ds, hds, hcontractor⟩ := hholds (.contractor _) (List.mem_cons_of_mem _ List.mem_cons_self)
    rw [hcompanies, Option.some.injEq] at hcs
    rw [hcontractors, Option.some.injEq] at hds
    subst hcs hds
    exact ⟨hcompany, hcontractor, isValid_stored hvalid⟩
  timelog r hr := by
    obtain ⟨b, v, hv, rfl⟩ := History.exists_mem_of_row hr
    obtain ⟨hvalid, hholds⟩ := hi.versions .timelog v hv
    exact ⟨exists_row (hholds (.job _) List.mem_cons_self), isValid_stored hvalid⟩
  payment r hr := by
    obtain ⟨b, v, hv, rfl⟩ := History.exists_mem_of_row hr
    obtain ⟨hvalid, hholds⟩ := hi.versions .payment v hv
    obtain ⟨t, ht, huid, hjob⟩ := hholds (.timelog _ _) (List.mem_cons_of_mem _ List.mem_cons_self)
    obtain ⟨b', hrow⟩ := History.exists_row_of_mem ht
    exact ⟨exists_row (hholds (.job _) List.mem_cons_self), ⟨row b' t, hrow, huid, hjob⟩,
      isValid_stored hvalid⟩

/-- Whatever requests are served at the same time on an empty primary of the present schema, and in
whatever order their operations come, all tables are there and what their rows refer to is there. -/
theorem Session.integrity_run (engine : Engine) (replicas : List Replica) (turn : Nat) (supply : Supply)
    (actions : List Action) :
    let d := ((Session.mk (.opened engine replicas turn supply) []).run actions).ledger.cluster.primary
    ∃ companies contractors jobs timelogs payments, d.companies = some companies ∧
      d.contractors = some contractors ∧ d.jobs = some jobs ∧ d.timelogs = some timelogs ∧
      d.payments = some payments ∧ Integrity companies contractors jobs timelogs payments := by
  intro d
  obtain ⟨hs, hi⟩ := (intact_opened engine replicas turn supply).run actions
  obtain ⟨companies, hcompanies⟩ := hi.keeps.isMigrated.exists_staticRows .company
  obtain ⟨contractors, hcontractors⟩ := hi.keeps.isMigrated.exists_staticRows .contractor
  exact ⟨companies, contractors, _, _, _, hcompanies, hcontractors, (hi.keeps.keeps .job).versionRows_eq,
    (hi.keeps.keeps .timelog).versionRows_eq, (hi.keeps.keeps .payment).versionRows_eq,
    hi.integrity hcompanies hcontractors⟩

/-- A version is added to a job while a timelog and a payment for its first version are served. -/
example :
    let supply : Supply := { ids := toString, times := toString, drawn := 0 }
    let job : JobRequest := ⟨some "active", some 12.5, some "title", some "1", some "3"⟩
    let s := (Session.mk (.opened .plain [] 0 supply) []).run
      [.receive (.company ⟨some "company"⟩), .advance 0,
       .receive (.contractor ⟨some "name", some "name@example.org", some "1"⟩), .advance 0,
       .receive (.job job), .advance 0, .advance 0, .advance 0,
       .receive (.timelog ⟨some 0, some 60, none, some "work", some "5"⟩),
       .receive (.jobVersion "4" job),
       .advance 0, .advance 1, .advance 0, .advance 0,
       .receive (.payment ⟨some "5", some "7", some 12.5, some "paid"⟩),
       .advance 1, .advance 0, .advance 0, .advance 0]
    let d := s.ledger.cluster.primary
    (d.jobs.map (·.map (·.uid)), d.payments.map (·.map (·.data.timelogUid)), s.pending.length) =
      (some ["5", "8"], some ["7"], 0) := by
  decide +kernel

end Payroll
