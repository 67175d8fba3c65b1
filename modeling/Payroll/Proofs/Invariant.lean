import Payroll.Proofs.Answer
/-!
# What holds after any calls

There are only a few things that calls do to the ledger: they read, they draw ids and times, and they
write records. What these few preserve is preserved by every call.

## Key results

- `Ledger.IsInvariant`: what reading, drawing and writing preserve
- `Http.preserves_work`: whatever a call asks for preserves it
- `Http.invariant_answers`: it holds after any calls if it held before them
-/

namespace Payroll

variable {ε β γ : Type} {I : Ledger → Prop}

namespace Ledger

/-- What is said of the ledger is preserved by all that calls do to it. Reading leaves the primary as it
is, and so does drawing an id or a time. -/
structure IsInvariant (I : Ledger → Prop) : Prop where
  quiet : ∀ {l l' : Ledger}, l'.cluster.primary = l.cluster.primary → l'.supply.ids = l.supply.ids →
    l.supply.drawn ≤ l'.supply.drawn → I l → I l'
  add : ∀ {l : Ledger} (s : StaticKind) (a : s.Data), I l → I (Ledger.add l a).2
  create : ∀ {l : Ledger} (k : VersionKind) (a : k.Data), I l → I (l.create a).2
  append : ∀ {l : Ledger} (k : VersionKind) (id : String) (a : k.Data), I l → I (l.append id a).2

/-- What is done to the ledger preserves what is said of it. -/
def Preserves (I : Ledger → Prop) (f : Ledger → Except ε β × Ledger) : Prop :=
  ∀ l, I l → I (f l).2

namespace IsInvariant

variable (hI : IsInvariant I)
include hI

theorem preserves_onRead (k : Consistency) (f : Reading β) : Preserves I (·.onRead k f) :=
  fun l => hI.quiet (primary_onRead l k f) rfl (Nat.le_refl _)

theorem preserves_query {α : Type} [VersionedTable α] (r : Sql.Refinement) :
    Preserves I (·.query α r) :=
  fun _ => hI.quiet rfl rfl (Nat.le_refl _)

theorem preserves_ping : Preserves I Ledger.ping :=
  fun _ => hI.quiet rfl rfl (Nat.le_refl _)

end IsInvariant

end Ledger

open Ledger (IsInvariant Preserves)

/-! ## Work of the service -/

namespace Service

variable {s : Service β} {f : β → Service γ}

theorem IsFixed.preserves (hs : IsFixed s) : Preserves I s.perform := by
  obtain ⟨r, hr⟩ := hs
  intro l hl
  rwa [hr]

theorem preserves_ofLedger {g : Ledger → Except StoreFault β × Ledger} (hg : Preserves I g) :
    Preserves I (ofLedger g).perform :=
  hg

/-- Work after work preserves what both preserve. -/
theorem preserves_bind (hs : Preserves I s.perform) (hf : ∀ b, Preserves I (f b).perform) :
    Preserves I (s >>= f).perform := by
  intro l hl
  have hafter := hs l hl
  rw [perform_bind]
  rcases hsl : s.perform l with ⟨fault | b, l'⟩
  · rw [hsl] at hafter
    exact hafter
  · rw [hsl] at hafter
    exact hf b l' hafter

variable (hI : IsInvariant I)
include hI

theorem preserves_now : Preserves I now.perform :=
  fun _ => hI.quiet rfl rfl (Nat.le_succ _)

theorem IsRead.preserves {s : Consistency → Service β} (hs : IsRead s) (k : Consistency) :
    Preserves I (s k).perform := by
  obtain ⟨α, f, decision, hdecision, hs⟩ := hs
  rw [hs]
  exact preserves_bind (preserves_ofLedger (hI.preserves_onRead k f)) fun a => (hdecision a).preserves

theorem preserves_check (r : Reference) : Preserves I r.check.perform := by
  obtain ⟨s, hs, heq⟩ := exists_isRead_check r
  rw [← heq]
  exact hs.preserves hI .strong

/-- Looking up what a record refers to and writing it preserves what the write preserves. -/
theorem preserves_perform {w : Writing β} (hw : Preserves I w.write) :
    Preserves I w.perform.perform := by
  have hchecks : ∀ rs : List Reference, Preserves I (rs.forM Reference.check).perform := by
    intro rs
    induction rs with
    | nil => exact (isFixed_pure _).preserves
    | cons r rs ih => exact preserves_bind (preserves_check hI r) fun _ => ih
  exact preserves_bind (hchecks w.references) fun _ => preserves_ofLedger hw

theorem preserves_createCompany (r : CompanyRequest) : Preserves I (createCompany r).perform :=
  preserves_bind (isFixed_ofCheck r.check).preserves fun _ =>
    preserves_bind (preserves_now hI) fun _ => preserves_ofLedger fun _ => hI.add .company _

theorem preserves_createContractor (r : ContractorRequest) :
    Preserves I (createContractor r).perform :=
  preserves_bind (isFixed_ofCheck r.check).preserves fun _ =>
    preserves_bind (preserves_now hI) fun _ => preserves_ofLedger fun _ => hI.add .contractor _

/-- Checking a request and creating the record that it gives. -/
theorem preserves_creating {k : VersionKind} {r : Except Invalid k.Data}
    {references : k.Data → List Reference} :
    Preserves I
      (ofCheck r >>= fun a => Writing.perform ⟨references a, (Ledger.create · a)⟩).perform :=
  preserves_bind (isFixed_ofCheck r).preserves fun a =>
    preserves_perform hI fun _ => hI.create k a

/-- Checking a request and adding the version that it gives. -/
theorem preserves_appending {k : VersionKind} {id : String} {r : Except Invalid k.Data}
    {references : k.Data → List Reference} :
    Preserves I
      (ofCheck r >>= fun a => Writing.perform ⟨references a, (Ledger.append · id a)⟩).perform :=
  preserves_bind (isFixed_ofCheck r).preserves fun a =>
    preserves_perform hI fun _ => hI.append k id a

theorem preserves_within {α : Type} [VersionedTable α] (start stop : Int) (r : Sql.Refinement) :
    Preserves I (checkPeriod start stop >>= fun _ => ofLedger (·.query α r)).perform :=
  preserves_bind (isFixed_checkPeriod start stop).preserves fun _ =>
    preserves_ofLedger (hI.preserves_query r)

end Service

/-! ## Calls -/

namespace Http

variable {limits : Limits} {c : Call}

namespace Work

theorem preserves_ofCall {r : Except BadCall β} {f : β → Work γ} (hf : ∀ b, Preserves I (f b).run) :
    Preserves I (ofCall r >>= f).run := by
  intro l hl
  rw [run_ofCall]
  cases r with
  | error bad => exact hl
  | ok b => exact hf b l hl

theorem preserves_ofService {s : Service β} {write : β → Nat × Json} (hs : Preserves I s.perform) :
    Preserves I (ofService s >>= fun b => pure (write b)).run := by
  intro l hl
  rw [run_ofService]
  exact hs l hl

end Work

theorem preserves_reading {segment : String} {read : String → Service β} {write : β → Json}
    (hread : ∀ id, Preserves I (read id).perform) : Preserves I (reading segment read write).run :=
  Work.preserves_ofCall fun id => Work.preserves_ofService (hread id)

theorem preserves_readingPeriod {α : Type} [VersionedData α] {segment : String}
    {read : String → Int → Int → Service (List (Version α))}
    (hread : ∀ id start stop, Preserves I (read id start stop).perform) :
    Preserves I (readingPeriod c segment read).run :=
  Work.preserves_ofCall fun id => Work.preserves_ofCall fun start => Work.preserves_ofCall fun stop =>
    Work.preserves_ofService (hread id start stop)

theorem preserves_posting {ρ : Type} [Request ρ] {create : ρ → Service β} {write : β → Json}
    (hcreate : ∀ r, Preserves I (create r).perform) :
    Preserves I (creating limits c create write).run :=
  Work.preserves_ofCall fun r => Work.preserves_ofService (hcreate r)

theorem preserves_updating {ρ : Type} [Request ρ] {segment : String} {update : String → ρ → Service β}
    {write : β → Json} (hupdate : ∀ id r, Preserves I (update id r).perform) :
    Preserves I (updating limits c segment update write).run :=
  Work.preserves_ofCall fun id => Work.preserves_ofCall fun r =>
    Work.preserves_ofService (hupdate id r)

variable (hI : IsInvariant I)
include hI

/-- Whatever a call asks of a resource preserves an invariant. -/
theorem preserves_work (limits : Limits) (c : Call) (r : Resource) :
    Preserves I (work limits c r).run := by
  cases r with
  | health => exact fun l hl => hI.preserves_ping l hl
  | companies => exact preserves_posting (Service.preserves_createCompany hI)
  | company id => exact preserves_reading fun id => (Service.isRead_company id).preserves hI _
  | contractors => exact preserves_posting (Service.preserves_createContractor hI)
  | contractor id => exact preserves_reading fun id => (Service.isRead_contractor id).preserves hI _
  | timelogsOf id =>
    exact preserves_readingPeriod fun _ start stop => Service.preserves_within hI start stop _
  | paymentsOf id =>
    exact preserves_readingPeriod fun _ start stop => Service.preserves_within hI start stop _
  | jobs => exact preserves_posting fun _ => Service.preserves_creating hI (k := .job)
  | extendedJobs =>
    exact Work.preserves_ofCall fun _ =>
      Work.preserves_ofService ((Service.isRead_jobsWithStatus _).preserves hI _)
  | activeJobs id => exact preserves_reading fun id => (Service.isRead_activeJobs id).preserves hI _
  | job id =>
    rw [work]
    split
    · exact preserves_updating fun _ _ => Service.preserves_appending hI (k := .job)
    · exact preserves_reading fun id => (Service.isRead_job id).preserves hI _
  | jobVersions id => exact preserves_reading fun id => (Service.isRead_jobVersions id).preserves hI _
  | timelogs => exact preserves_posting fun _ => Service.preserves_creating hI (k := .timelog)
  | payments => exact preserves_posting fun _ => Service.preserves_creating hI (k := .payment)
  | payment id => exact preserves_updating fun _ _ => Service.preserves_appending hI (k := .payment)

/-- Drawing an id for a call preserves an invariant. -/
theorem invariant_requestId (c : Call) {l : Ledger} (hl : I l) : I (requestId c l).2 := by
  rw [requestId]
  split
  · exact hl
  · have hdrawn : l.supply.drawn ≤ l.supply.id.2.drawn := Nat.le_succ _
    exact hI.quiet (l := l) rfl rfl hdrawn hl

theorem invariant_answer (limits : Limits) (c : Call) {l : Ledger} (hl : I l) :
    I (answer limits c l).2 := by
  have hid := invariant_requestId hI c hl
  by_cases hr : ∃ r, c.Reaches r
  · obtain ⟨r, hr⟩ := hr
    rw [answer_of_reaches hr]
    exact preserves_work hI limits c r _ hid
  · rw [answer_of_not_reaches limits l hr]
    exact hid

/-- An invariant that held before some calls holds after them. -/
theorem invariant_answers (calls : List (Limits × Call)) {l : Ledger} (hl : I l) :
    I (answers l calls).2 := by
  induction calls generalizing l with
  | nil => exact hl
  | cons call calls ih =>
    rw [answers_cons]
    exact ih (invariant_answer hI call.1 call.2 hl)

end Http

end Payroll
