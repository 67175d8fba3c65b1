import Payroll.Proofs.Durable
import Payroll.Proofs.Session
/-!
# What writing a record does to a database

Whatever a database holds, writing a record fails and leaves it as it was, or adds one row to one table.
A new version of a record also takes the claim to be the latest from the row of the version before it.
Nothing is assumed of the database: tables may be missing, and triggers may object.

## Key results

- `Ledger.makes_add`, `Ledger.makes_create`, `Ledger.makes_append`: what writing a record does
- `Service.IsRead.quiet`, `Service.quiet_check`: reads and look-ups of references change nothing
- `Service.makes_createJob` and its kin: what the service does to write a record
-/

namespace Payroll

variable {β γ : Type} {d d' : Database}

namespace Database

/-! ## One row more -/

/-- A record of a kind that is changed in place has got a row after all others of its table, from which
it is read back. Nothing else is different. -/
def Recorded (s : StaticKind) (a : s.Data) (d d' : Database) : Prop :=
  ∃ rows r, d.staticRows s = some rows ∧ r.decode s.Data = .ok a ∧
    d' = StaticTable.setRows s.Data (some (rows ++ [r])) d

/-- The first version of a record has got a row after all others of its table, which keeps it up to the
sign of a zero. Nothing else is different. -/
def Begun (k : VersionKind) (v : Version k.Data) (d d' : Database) : Prop :=
  v.version = 1 ∧ v.isLatest = true ∧ (v.stored.data == v.data) = true ∧
    ∃ rows, d.versionRows k = some rows ∧
      d' = VersionedTable.setRows (some (rows ++ [v.stored])) d

/-- A version of the record of an id has got a row after all others of its table, which keeps it up to the
sign of a zero. One row that was the latest of the id is no longer, and nothing else is different. -/
def Continued (k : VersionKind) (id : String) (v : Version k.Data) (d d' : Database) : Prop :=
  v.id = id ∧ v.isLatest = true ∧ (v.stored.data == v.data) = true ∧
    ∃ before current after, d.versionRows k = some (before ++ current :: after) ∧
      current.id = id ∧ current.isLatest = true ∧ v.version = nextVersion current.version ∧
      d' = VersionedTable.setRows (some (before ++ current.retired :: after ++ [v.stored])) d

/-- Where only one row makes the claim, retiring it changes that row and no other. -/
private theorem map_retired {α : Type} {p : Version α → Bool} {before after : List (Version α)}
    {current : Version α} (hp : p current = true)
    (hone : ((before ++ current :: after).filter p).length = 1) :
    (before ++ current :: after).map (fun r => if p r then r.retired else r) =
      before ++ current.retired :: after := by
  rw [List.filter_append, List.filter_cons_of_pos hp, List.length_append, List.length_cons] at hone
  -- No other row makes the claim, on either side.
  have hkept : ∀ xs : List (Version α), (xs.filter p).length = 0 →
      xs.map (fun r => if p r then r.retired else r) = xs := by
    intro xs hxs
    rw [List.length_eq_zero_iff, List.filter_eq_nil_iff] at hxs
    exact (List.map_congr_left fun r hr => if_neg (hxs r hr)).trans (List.map_id' xs)
  rw [List.map_append, List.map_cons, hkept before (by omega), hkept after (by omega), if_pos hp]

/-- Where one row is retired, it is the latest one of the id, and no other row is different. -/
theorem retire_eq_one {α : Type} [VersionedTable α] {before after : List (Version α)} {current : Version α}
    (hrows : VersionedTable.rows? d = some (before ++ current :: after)) (hlatest : current.isLatest = true)
    (h : d.retire α current.uid = .ok (1, d')) :
    d' = VersionedTable.setRows (some (before ++ current.retired :: after)) d := by
  obtain ⟨rows, hrows', hcount, rfl⟩ := retire_eq_ok h Nat.one_ne_zero
  rw [hrows, Option.some.injEq] at hrows'
  subst hrows'
  have hself : (current.uid == current.uid && current.isLatest) = true := by simp [hlatest]
  exact congrArg (fun rows => VersionedTable.setRows (some rows) d) (map_retired hself hcount.symm)

/-- A record is read back from the row that is made of it. -/
theorem decode_ofData (s : StaticKind) (a : s.Data) (place : Nat) :
    StaticRow.decode s.Data { StaticRow.ofData a with place } = .ok a := by
  cases s with
  | company => rfl
  | contractor => rfl

theorem pieces_singleton (size : Nat) (x : β) : pieces size [x] = [[x]] := by
  simp [pieces]

/-- A statement inserts a single record or leaves everything as it is. -/
theorem insertMany_cases (s : StaticKind) (a : s.Data) (d : Database) :
    (∃ fault, d.insertMany [a] = (some fault, d)) ∨
      ∃ d', d.insertMany [a] = (none, d') ∧ Recorded s a d d' := by
  -- A single record is a single piece, so there is one statement.
  rw [insertMany, List.map_singleton, pieces_singleton, insertPieces]
  cases hins : insertRows s.Data d [StaticRow.ofData a] with
  | error fault => exact Or.inl ⟨fault, congrArg (some fault, ·) (leftBy_singleton d _)⟩
  | ok d₁ =>
    refine Or.inr ⟨d₁, rfl, ?_⟩
    obtain ⟨rows, hrows, -, heq⟩ := insertRows_eq_ok_iff.mp hins
    exact ⟨rows, { StaticRow.ofData a with place := lastPlace rows + 1 }, hrows, decode_ofData s a _, heq⟩

end Database

open Database (Begun Continued Recorded)

/-! ## Operations that write -/

/-- Inserting the first version of a record fails and leaves no trace, or adds its row. -/
theorem Versioned.insert_begun {k : VersionKind} (id uid : String) (a : k.Data) (d : Database) :
    let v : Version k.Data := { Meta.first id uid with data := a }
    (∃ fault, Versioned.insert v d = (.error fault, d)) ∨
      ∃ d', Versioned.insert v d = (.ok (), d') ∧ Begun k v d d' := by
  intro v
  rcases Step.transaction_cases (fun d => do
    let d ← StoreFault.ofDatabase (d.insert v)
    return ((), d)) d with hfail | ⟨b, d', hok, heq⟩
  · exact Or.inl hfail
  · refine Or.inr ⟨d', heq, ?_⟩
    obtain ⟨d₁, hins, hok⟩ := bind_eq_ok_iff.mp hok
    obtain ⟨rows, hrows, hn, rfl⟩ := Database.insert_eq_ok_iff.mp (ofDatabase_eq_ok_iff.mp hins)
    obtain ⟨-, rfl⟩ := Prod.mk.inj (Except.ok.inj hok)
    exact ⟨rfl, rfl, stored_beq (Database.obstacle?_eq_none hn).1, rows, hrows, rfl⟩

/-- Adding a version to a record fails and leaves no trace, or adds its row and retires one other. -/
theorem Versioned.append_continued {k : VersionKind} (id uid : String) (a : k.Data) (d : Database) :
    (∃ fault, Versioned.append id uid a d = (.error fault, d)) ∨
      ∃ v d', Versioned.append id uid a d = (.ok v, d') ∧ Continued k id v d d' := by
  rcases Versioned.append_settles id uid a d with hfail | ⟨next, d', heq⟩
  · exact Or.inl hfail
  refine Or.inr ⟨next, d', heq, ?_⟩
  obtain ⟨rows, current, hrows, hfound, rfl, hn, hret⟩ := Versioned.append_eq_ok_iff.mp heq
  -- The latest version is a row of the table.
  obtain ⟨hclaim, before, after, rfl, -⟩ := List.find?_eq_some_iff_append.mp hfound
  obtain ⟨hid, hlatest⟩ := (Bool.and_eq_true _ _).mp hclaim
  -- The new row is behind all others when one of them is retired.
  have hadded := VersionedTable.rows?_setRows (some (before ++ current :: after ++ [Version.stored
    { current.toMeta.successor uid with data := a }])) d
  rw [List.append_assoc, List.cons_append] at hadded hret
  obtain rfl := Database.retire_eq_one hadded hlatest hret
  refine ⟨beq_iff_eq.mp hid, rfl, stored_beq (Database.obstacle?_eq_none hn).1, before, current, after,
    hrows, beq_iff_eq.mp hid, hlatest, rfl, ?_⟩
  rw [VersionedTable.setRows_setRows]
  simp

/-! ## Work that writes at most one record -/

section Work

variable {ε : Type}

/-- What is done to the ledger changes no database. -/
def Ledger.Quiet (f : Ledger → Except ε β × Ledger) : Prop :=
  ∀ l, (f l).2.cluster.primary = l.cluster.primary ∧ (f l).2.cluster.replicas = l.cluster.replicas

/-- What is done to the ledger fails and changes no database, or changes the primary as `q` says of what it
gives, and no replica. -/
def Ledger.Makes (f : Ledger → Except ε β × Ledger) (q : β → Database → Database → Prop) : Prop :=
  ∀ l, (f l).2.cluster.replicas = l.cluster.replicas ∧
    ((∃ fault, (f l).1 = .error fault ∧ (f l).2.cluster.primary = l.cluster.primary) ∨
      ∃ b, (f l).1 = .ok b ∧ q b l.cluster.primary (f l).2.cluster.primary)

namespace Ledger

theorem Makes.mono {f : Ledger → Except ε β × Ledger} {q q' : β → Database → Database → Prop}
    (hf : Makes f q) (hq : ∀ {b d d'}, q b d d' → q' b d d') : Makes f q' :=
  fun l => ⟨(hf l).1, (hf l).2.imp_right fun ⟨b, hb, h⟩ => ⟨b, hb, hq h⟩⟩

theorem quiet_onRead (k : Consistency) (f : Reading β) : Quiet (·.onRead k f) := by
  intro l
  refine ⟨primary_onRead l k f, ?_⟩
  simp only [onRead, Cluster.onRead, Cluster.site]
  split <;> rfl

theorem quiet_query {α : Type} [VersionedTable α] (r : Sql.Refinement) : Quiet (·.query α r) :=
  fun _ => ⟨rfl, rfl⟩

theorem makes_add (s : StaticKind) (a : s.Data) : Makes (Ledger.add · a) (Recorded s) := by
  intro l
  refine ⟨rfl, ?_⟩
  simp only [add, outcome_onPrimary, primary_onPrimary, Supply.id, Static.insertMany]
  rcases Database.insertMany_cases s (StaticData.withId (l.supply.ids l.supply.drawn) a)
    l.cluster.primary with ⟨fault, heq⟩ | ⟨d', heq, hrec⟩
  · rw [heq]
    exact Or.inl ⟨_, rfl, rfl⟩
  · rw [heq]
    exact Or.inr ⟨_, rfl, hrec⟩

theorem makes_create (k : VersionKind) (a : k.Data) : Makes (·.create a) (Begun k) := by
  intro l
  refine ⟨rfl, ?_⟩
  simp only [create, outcome_onPrimary, primary_onPrimary, Supply.firstMeta, Supply.id]
  rcases Versioned.insert_begun (l.supply.ids l.supply.drawn) (l.supply.ids (l.supply.drawn + 1)) a
    l.cluster.primary with ⟨fault, heq⟩ | ⟨d', heq, hbegun⟩
  · rw [heq]
    exact Or.inl ⟨_, rfl, rfl⟩
  · rw [heq]
    exact Or.inr ⟨_, rfl, hbegun⟩

theorem makes_append (k : VersionKind) (id : String) (a : k.Data) :
    Makes (·.append id a) (Continued k id) := by
  intro l
  refine ⟨rfl, ?_⟩
  simp only [append, outcome_onPrimary, primary_onPrimary, Supply.id]
  rcases Versioned.append_continued id (l.supply.ids l.supply.drawn) a l.cluster.primary with
    ⟨fault, heq⟩ | ⟨v, d', heq, hcont⟩
  · rw [heq]
    exact Or.inl ⟨_, rfl, rfl⟩
  · rw [heq]
    exact Or.inr ⟨_, rfl, hcont⟩

end Ledger

/-! ## Work of the service -/

namespace Service

open Ledger (Makes Quiet)

variable {s : Service β} {f : β → Service γ} {q : γ → Database → Database → Prop}

/-- The work leaves the ledger alone, and comes to the same whatever is in it. -/
def IsFixed (s : Service β) : Prop :=
  ∃ r, ∀ l, s.perform l = (r, l)

theorem isFixed_pure (b : β) : IsFixed (pure b) :=
  ⟨_, fun _ => rfl⟩

theorem isFixed_throw (fault : ServiceFault) : IsFixed (throw fault : Service β) :=
  ⟨_, fun _ => rfl⟩

theorem isFixed_ofCheck (r : Except Invalid β) : IsFixed (ofCheck r) :=
  ⟨_, fun _ => rfl⟩

theorem isFixed_orMissing (what : Missing) (found : Option β) : IsFixed (orMissing what found) := by
  cases found with
  | none => exact isFixed_throw _
  | some b => exact isFixed_pure b

theorem isFixed_checkPeriod (start stop : Int) : IsFixed (checkPeriod start stop) := by
  rw [checkPeriod]
  split
  · exact isFixed_throw _
  · exact isFixed_pure _

theorem IsFixed.quiet (hs : IsFixed s) : Quiet s.perform := by
  obtain ⟨r, hr⟩ := hs
  intro l
  rw [hr]
  exact ⟨rfl, rfl⟩

theorem quiet_now : Quiet now.perform :=
  fun _ => ⟨rfl, rfl⟩

theorem quiet_ofLedger {g : Ledger → Except StoreFault β × Ledger} (hg : Quiet g) :
    Quiet (ofLedger g).perform :=
  hg

/-- Quiet work after quiet work is quiet. -/
theorem quiet_bind (hs : Quiet s.perform) (hf : ∀ b, Quiet (f b).perform) :
    Quiet (s >>= f).perform := by
  intro l
  have hquiet := hs l
  rw [perform_bind]
  rcases hsl : s.perform l with ⟨fault | b, l'⟩
  · -- After a failure nothing more is done.
    rw [hsl] at hquiet
    exact hquiet
  · rw [hsl] at hquiet
    exact ⟨(hf b l').1.trans hquiet.1, (hf b l').2.trans hquiet.2⟩

/-- Work makes no more after quiet work than it makes alone. -/
theorem makes_bind (hs : Quiet s.perform) (hf : ∀ b, Makes (f b).perform q) :
    Makes (s >>= f).perform q := by
  intro l
  have hquiet := hs l
  rw [perform_bind]
  rcases hsl : s.perform l with ⟨fault | b, l'⟩
  · rw [hsl] at hquiet
    exact ⟨hquiet.2, Or.inl ⟨fault, rfl, hquiet.1⟩⟩
  · rw [hsl] at hquiet
    -- What is written is written to the primary that was there at the start.
    rw [← hquiet.1]
    exact ⟨(hf b l').1.trans hquiet.2, (hf b l').2⟩

theorem makes_ofLedger {g : Ledger → Except StoreFault γ × Ledger} (hg : Makes g q) :
    Makes (ofLedger g).perform q := by
  intro l
  obtain ⟨hreplicas, ⟨fault, hfail, hsame⟩ | ⟨b, hok, hq⟩⟩ := hg l
  · exact ⟨hreplicas, Or.inl ⟨.ofStore fault, by rw [perform_ofLedger, hfail]; rfl, hsame⟩⟩
  · exact ⟨hreplicas, Or.inr ⟨b, by rw [perform_ofLedger, hok]; rfl, hq⟩⟩

/-! ### Reads that may run on a replica -/

/-- The work is one read with the consistency that is asked for, and what is found decides what comes of
it. -/
def IsRead (s : Consistency → Service β) : Prop :=
  ∃ (α : Type) (f : Reading α) (decision : α → Service β), (∀ a, IsFixed (decision a)) ∧
    ∀ k, s k = ofLedger (·.onRead k f) >>= decision

theorem isRead_company (id : String) : IsRead (company · id) :=
  ⟨_, _, _, isFixed_orMissing _, fun _ => rfl⟩

theorem isRead_contractor (id : String) : IsRead (contractor · id) :=
  ⟨_, _, _, isFixed_orMissing _, fun _ => rfl⟩

theorem isRead_job (id : String) : IsRead (job · id) :=
  ⟨_, _, _, isFixed_orMissing _, fun _ => rfl⟩

theorem isRead_jobVersions (id : String) : IsRead (jobVersions · id) := by
  refine ⟨_, _, _, fun found => ?_, fun _ => rfl⟩
  cases found with
  | nil => exact isFixed_throw _
  | cons v vs => exact isFixed_pure _

theorem isRead_jobsWithStatus (status : String) : IsRead (jobsWithStatus · status) :=
  ⟨_, _, _, isFixed_pure, fun _ => (bind_pure _).symm⟩

theorem isRead_activeJobs (contractor : String) : IsRead (activeJobs · contractor) :=
  ⟨_, _, _, isFixed_pure, fun _ => (bind_pure _).symm⟩

theorem IsRead.quiet {s : Consistency → Service β} (hs : IsRead s) (k : Consistency) :
    Quiet (s k).perform := by
  obtain ⟨α, f, decision, hdecision, hs⟩ := hs
  rw [hs]
  exact quiet_bind (quiet_ofLedger (Ledger.quiet_onRead k f)) fun a => (hdecision a).quiet

/-! ### References -/

/-- A reference is looked up with a strong read. -/
theorem exists_isRead_check (r : Reference) : ∃ s, IsRead s ∧ s .strong = r.check := by
  cases r with
  | company id =>
    refine ⟨_, ⟨_, Static.first? Company (.one "id" (.text id)), _, fun found => ?_, fun _ => rfl⟩, rfl⟩
    cases found with
    | none => exact isFixed_throw _
    | some b => exact isFixed_pure _
  | contractor id =>
    refine ⟨_, ⟨_, Static.first? Contractor (.one "id" (.text id)), _, fun found => ?_, fun _ => rfl⟩, rfl⟩
    cases found with
    | none => exact isFixed_throw _
    | some b => exact isFixed_pure _
  | job uid =>
    refine ⟨_, ⟨_, Versioned.ofUid? Job uid, _, fun found => ?_, fun _ => rfl⟩, rfl⟩
    cases found with
    | none => exact isFixed_throw _
    | some b => exact isFixed_pure _
  | timelog uid jobUid =>
    refine ⟨_, ⟨_, Versioned.ofUid? Timelog uid, _, fun found => ?_, fun _ => rfl⟩, rfl⟩
    cases found with
    | none => exact isFixed_throw _
    | some t =>
      dsimp only
      split
      · exact isFixed_throw _
      · exact isFixed_pure _

/-- Looking a reference up changes nothing. -/
theorem quiet_check (r : Reference) : Quiet r.check.perform := by
  obtain ⟨s, hs, heq⟩ := exists_isRead_check r
  rw [← heq]
  exact hs.quiet .strong

theorem quiet_forM_check (rs : List Reference) : Quiet (rs.forM Reference.check).perform := by
  induction rs with
  | nil => exact (isFixed_pure _).quiet
  | cons r rs ih => exact quiet_bind (quiet_check r) fun _ => ih

/-! ### Writing records -/

/-- Looking up what a record refers to and writing it makes what the write makes. -/
theorem makes_perform {w : Writing γ} (hw : Makes w.write q) : Makes w.perform.perform q :=
  makes_bind (quiet_forM_check w.references) fun _ => makes_ofLedger hw

theorem makes_createCompany (r : CompanyRequest) :
    Makes (createCompany r).perform (Recorded .company) :=
  makes_bind (isFixed_ofCheck r.check).quiet fun _ =>
    makes_bind quiet_now fun _ => makes_ofLedger (Ledger.makes_add .company _)

theorem makes_createContractor (r : ContractorRequest) :
    Makes (createContractor r).perform (Recorded .contractor) :=
  makes_bind (isFixed_ofCheck r.check).quiet fun _ =>
    makes_bind quiet_now fun _ => makes_ofLedger (Ledger.makes_add .contractor _)

theorem makes_createJob (r : JobRequest) : Makes (createJob r).perform (Begun .job) :=
  makes_bind (isFixed_ofCheck r.check).quiet fun j => makes_perform (Ledger.makes_create .job j)

theorem makes_updateJob (id : String) (r : JobRequest) :
    Makes (updateJob id r).perform (Continued .job id) :=
  makes_bind (isFixed_ofCheck r.check).quiet fun j => makes_perform (Ledger.makes_append .job id j)

theorem makes_createTimelog (r : TimelogRequest) :
    Makes (createTimelog r).perform (Begun .timelog) :=
  makes_bind (isFixed_ofCheck r.check).quiet fun t => makes_perform (Ledger.makes_create .timelog t)

theorem makes_createPayment (r : PaymentRequest) :
    Makes (createPayment r).perform (Begun .payment) :=
  makes_bind (isFixed_ofCheck r.check).quiet fun p => makes_perform (Ledger.makes_create .payment p)

theorem makes_updatePayment (id : String) (r : PaymentRequest) :
    Makes (updatePayment id r).perform (Continued .payment id) :=
  makes_bind (isFixed_ofCheck r.check).quiet fun p => makes_perform (Ledger.makes_append .payment id p)

/-! ### What is within a period -/

theorem quiet_timelogsIn (contractor : String) (start stop : Int) :
    Quiet (timelogsIn contractor start stop).perform :=
  quiet_bind (isFixed_checkPeriod start stop).quiet fun _ => quiet_ofLedger (Ledger.quiet_query _)

theorem quiet_paymentsIn (contractor : String) (start stop : Int) :
    Quiet (paymentsIn contractor start stop).perform :=
  quiet_bind (isFixed_checkPeriod start stop).quiet fun _ => quiet_ofLedger (Ledger.quiet_query _)

end Service

end Work

end Payroll
