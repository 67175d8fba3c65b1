import Payroll.Proofs.Answer
/-!
# Ledgers that differ in their replicas only

Two ledgers with the same primary and the same supply of ids and times are told apart only by reads that
a replica serves. Whatever else the service does has the same outcome on both, and leaves both with the
same primary and the same supply.

## Key results

- `Ledger.agrees_onRead`: reads agree where both see the primary
- `Service.IsRead.agrees`, `Service.agrees_check`: reads agree, and references are looked up alike
- `Service.agrees_createJob` and its kin: what the service does agrees
-/

namespace Payroll

variable {ε β γ : Type} {k k' : Consistency}

/-! ## Ledgers that are alike -/

namespace Ledger

/-- The ledgers have the same primary and the same supply, and replicas as the relation says. How often
replicas have been read makes no difference. -/
structure Alike (p : List Replica → List Replica → Prop) (l l' : Ledger) : Prop where
  primary : l.cluster.primary = l'.cluster.primary
  supply : l.supply = l'.supply
  replicas : p l.cluster.replicas l'.cluster.replicas

/-- What is done to ledgers that are alike has the same outcome, and leaves them alike. -/
def Agrees (p : List Replica → List Replica → Prop) (f f' : Ledger → Except ε β × Ledger) : Prop :=
  ∀ l l', Alike p l l' → (f l).1 = (f' l').1 ∧ Alike p (f l).2 (f' l').2

end Ledger

/-- A read with this consistency sees what is on the primary: it is a strong one, or all replicas are the
primary's own file. -/
def Consistency.SeesPrimary (k : Consistency) (replicas : List Replica) : Prop :=
  k = .strong ∨ ∀ r ∈ replicas, r = .shared

namespace Ledger

variable {p : List Replica → List Replica → Prop}

theorem outcome_onRead {l : Ledger} (hk : k.SeesPrimary l.cluster.replicas) (f : Reading β) :
    (l.onRead k f).1 = f l.cluster.primary := by
  rcases hk with rfl | hshared
  · exact outcome_onRead_strong l f
  · simp only [onRead, Cluster.onRead, Cluster.site]
    split
    · rfl
    · -- The replica whose turn it is is the primary's own file.
      simp only [Cluster.database]
      split
      · rename_i d hd
        cases hshared _ (List.mem_of_getElem? hd)
      · rfl

theorem agrees_onPrimary (f : Step β) : Agrees p (·.onPrimary f) (·.onPrimary f) := by
  intro l l' h
  simp only [outcome_onPrimary, h.primary, true_and]
  exact ⟨by rw [primary_onPrimary, primary_onPrimary, h.primary], h.supply, h.replicas⟩

/-- Reads agree where both see the primary. -/
theorem agrees_onRead
    (hp : ∀ rs rs', p rs rs' → k.SeesPrimary rs ∧ k'.SeesPrimary rs') (f : Reading β) :
    Agrees p (·.onRead k f) (·.onRead k' f) := by
  intro l l' h
  obtain ⟨hk, hk'⟩ := hp _ _ h.replicas
  refine ⟨by rw [outcome_onRead hk, outcome_onRead hk', h.primary], ?_, h.supply, ?_⟩
  · rw [primary_onRead, primary_onRead, h.primary]
  · rw [(quiet_onRead k f l).2, (quiet_onRead k' f l').2]
    exact h.replicas

theorem agrees_add (s : StaticKind) (a : s.Data) : Agrees p (Ledger.add · a) (Ledger.add · a) := by
  rintro ⟨⟨d, rs, turn⟩, supply⟩ ⟨⟨_, rs', turn'⟩, _⟩ ⟨rfl, rfl, hp⟩
  exact ⟨rfl, rfl, rfl, hp⟩

theorem agrees_create (k : VersionKind) (a : k.Data) : Agrees p (·.create a) (·.create a) := by
  rintro ⟨⟨d, rs, turn⟩, supply⟩ ⟨⟨_, rs', turn'⟩, _⟩ ⟨rfl, rfl, hp⟩
  exact ⟨rfl, rfl, rfl, hp⟩

theorem agrees_append (k : VersionKind) (id : String) (a : k.Data) :
    Agrees p (·.append id a) (·.append id a) := by
  rintro ⟨⟨d, rs, turn⟩, supply⟩ ⟨⟨_, rs', turn'⟩, _⟩ ⟨rfl, rfl, hp⟩
  exact ⟨rfl, rfl, rfl, hp⟩

end Ledger

/-! ## Work of the service -/

namespace Service

open Ledger (Agrees)

variable {p : List Replica → List Replica → Prop} {s s' : Service β} {f f' : β → Service γ}

theorem IsFixed.agrees (hs : IsFixed s) : Agrees p s.perform s.perform := by
  obtain ⟨r, hr⟩ := hs
  intro l l' h
  rw [hr, hr]
  exact ⟨rfl, h⟩

theorem agrees_now : Agrees p now.perform now.perform := by
  intro l l' h
  rw [perform_now, perform_now, h.supply]
  exact ⟨rfl, h.primary, rfl, h.replicas⟩

theorem agrees_ofLedger {g g' : Ledger → Except StoreFault β × Ledger} (hg : Agrees p g g') :
    Agrees p (ofLedger g).perform (ofLedger g').perform := by
  intro l l' h
  obtain ⟨hout, hafter⟩ := hg l l' h
  exact ⟨by rw [perform_ofLedger, perform_ofLedger, hout], hafter⟩

/-- Work that agrees so far and goes on alike agrees. -/
theorem agrees_bind (hs : Agrees p s.perform s'.perform)
    (hf : ∀ b, Agrees p (f b).perform (f' b).perform) :
    Agrees p (s >>= f).perform (s' >>= f').perform := by
  intro l l' h
  obtain ⟨hout, hafter⟩ := hs l l' h
  rw [perform_bind, perform_bind]
  rcases hsl : s.perform l with ⟨r, l₁⟩
  rcases hsl' : s'.perform l' with ⟨r', l₁'⟩
  rw [hsl, hsl'] at hout hafter
  -- The outcome decides how the work goes on.
  obtain rfl : r = r' := hout
  cases r with
  | error fault => exact ⟨rfl, hafter⟩
  | ok b => exact hf b l₁ l₁' hafter

/-- A read agrees where both ledgers see the primary. -/
theorem IsRead.agrees {s : Consistency → Service β} (hs : IsRead s)
    (hp : ∀ rs rs', p rs rs' → k.SeesPrimary rs ∧ k'.SeesPrimary rs') :
    Agrees p (s k).perform (s k').perform := by
  obtain ⟨α, f, decision, hdecision, hs⟩ := hs
  rw [hs, hs]
  exact agrees_bind (agrees_ofLedger (Ledger.agrees_onRead hp f)) fun a => (hdecision a).agrees

/-- References are looked up on the primary. -/
theorem agrees_check (r : Reference) : Agrees p r.check.perform r.check.perform := by
  obtain ⟨s, hs, heq⟩ := exists_isRead_check r
  rw [← heq]
  exact hs.agrees fun _ _ _ => ⟨Or.inl rfl, Or.inl rfl⟩

theorem agrees_forM_check (rs : List Reference) :
    Agrees p (rs.forM Reference.check).perform (rs.forM Reference.check).perform := by
  induction rs with
  | nil => exact (isFixed_pure _).agrees
  | cons r rs ih => exact agrees_bind (agrees_check r) fun _ => ih

theorem agrees_perform {w : Writing γ} (hw : Agrees p w.write w.write) :
    Agrees p w.perform.perform w.perform.perform :=
  agrees_bind (agrees_forM_check w.references) fun _ => agrees_ofLedger hw

/-! ### Requests -/

theorem agrees_createCompany (r : CompanyRequest) :
    Agrees p (createCompany r).perform (createCompany r).perform :=
  agrees_bind (isFixed_ofCheck r.check).agrees fun _ =>
    agrees_bind agrees_now fun _ => agrees_ofLedger (Ledger.agrees_add .company _)

theorem agrees_createContractor (r : ContractorRequest) :
    Agrees p (createContractor r).perform (createContractor r).perform :=
  agrees_bind (isFixed_ofCheck r.check).agrees fun _ =>
    agrees_bind agrees_now fun _ => agrees_ofLedger (Ledger.agrees_add .contractor _)

theorem agrees_createJob (r : JobRequest) : Agrees p (createJob r).perform (createJob r).perform :=
  agrees_bind (isFixed_ofCheck r.check).agrees fun j => agrees_perform (Ledger.agrees_create .job j)

theorem agrees_updateJob (id : String) (r : JobRequest) :
    Agrees p (updateJob id r).perform (updateJob id r).perform :=
  agrees_bind (isFixed_ofCheck r.check).agrees fun j => agrees_perform (Ledger.agrees_append .job id j)

theorem agrees_createTimelog (r : TimelogRequest) :
    Agrees p (createTimelog r).perform (createTimelog r).perform :=
  agrees_bind (isFixed_ofCheck r.check).agrees fun t => agrees_perform (Ledger.agrees_create .timelog t)

theorem agrees_createPayment (r : PaymentRequest) :
    Agrees p (createPayment r).perform (createPayment r).perform :=
  agrees_bind (isFixed_ofCheck r.check).agrees fun a => agrees_perform (Ledger.agrees_create .payment a)

theorem agrees_updatePayment (id : String) (r : PaymentRequest) :
    Agrees p (updatePayment id r).perform (updatePayment id r).perform :=
  agrees_bind (isFixed_ofCheck r.check).agrees fun a => agrees_perform (Ledger.agrees_append .payment id a)

theorem agrees_timelogsIn (contractor : String) (start stop : Int) :
    Agrees p (timelogsIn contractor start stop).perform (timelogsIn contractor start stop).perform :=
  agrees_bind (isFixed_checkPeriod start stop).agrees fun _ => agrees_ofLedger (Ledger.agrees_onPrimary _)

theorem agrees_paymentsIn (contractor : String) (start stop : Int) :
    Agrees p (paymentsIn contractor start stop).perform (paymentsIn contractor start stop).perform :=
  agrees_bind (isFixed_checkPeriod start stop).agrees fun _ => agrees_ofLedger (Ledger.agrees_onPrimary _)

end Service

end Payroll
