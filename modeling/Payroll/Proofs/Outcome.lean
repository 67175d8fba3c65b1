import Payroll.Store.Step
/-!
# Outcomes that are a success

How a computation that may fail comes to succeed: each of its parts does. A transaction that does not
succeed leaves the database as it was.
-/

namespace Payroll

variable {ε ε' β γ : Type}

/-- A computation succeeds if its first part does and what follows it does. -/
theorem bind_eq_ok_iff {x : Except ε β} {f : β → Except ε γ} {c : γ} :
    x >>= f = .ok c ↔ ∃ b, x = .ok b ∧ f b = .ok c := by
  cases x with
  | error fault => simp [bind, Except.bind]
  | ok b => simp [bind, Except.bind]

theorem map_eq_ok_iff {x : Except ε β} {f : β → γ} {c : γ} :
    x.map f = .ok c ↔ ∃ b, x = .ok b ∧ f b = c := by
  cases x <;> simp [Except.map]

/-- All items are read if each of them is. -/
theorem exists_mapM_eq_ok_iff {f : β → Except ε γ} {bs : List β} :
    (∃ cs, bs.mapM f = .ok cs) ↔ ∀ b ∈ bs, ∃ c, f b = .ok c := by
  induction bs with
  | nil => exact ⟨fun _ => nofun, fun _ => ⟨[], rfl⟩⟩
  | cons b bs ih =>
    rw [List.forall_mem_cons, ← ih, List.mapM_cons]
    constructor
    · rintro ⟨cs, hok⟩
      obtain ⟨c, hc, hok⟩ := bind_eq_ok_iff.mp hok
      obtain ⟨cs, hcs, -⟩ := bind_eq_ok_iff.mp hok
      exact ⟨⟨c, hc⟩, cs, hcs⟩
    · rintro ⟨⟨c, hc⟩, cs, hcs⟩
      exact ⟨c :: cs, by rw [hc, hcs]; rfl⟩

/-- What is read of a list is read of one of its items. -/
theorem exists_of_mem_mapM_ok {f : β → Except ε γ} {bs : List β} {cs : List γ} (h : bs.mapM f = .ok cs)
    {c : γ} (hc : c ∈ cs) : ∃ b ∈ bs, f b = .ok c := by
  induction bs generalizing cs with
  | nil =>
    obtain rfl := Except.ok.inj h
    exact nomatch hc
  | cons b bs ih =>
    rw [List.mapM_cons] at h
    obtain ⟨c', hb, h⟩ := bind_eq_ok_iff.mp h
    obtain ⟨cs', hbs, h⟩ := bind_eq_ok_iff.mp h
    obtain rfl := Except.ok.inj h
    rcases List.mem_cons.mp hc with rfl | hc
    · exact ⟨b, List.mem_cons_self, hb⟩
    · obtain ⟨b, hmem, hb⟩ := ih hbs hc
      exact ⟨b, List.mem_cons_of_mem _ hmem, hb⟩

/-- What a computation gives if it succeeds, as a list of at most one. -/
theorem mem_toList_toOption_iff {x : Except ε β} {b : β} :
    b ∈ x.toOption.toList ↔ x = .ok b := by
  cases x <;> simp [Except.toOption, eq_comm]

/-- A refusal before the rest of a computation is not made if the computation succeeds. -/
theorem unless_eq_ok_iff {p : Prop} [Decidable p] {fault : ε} {x : Except ε γ} {c : γ} :
    (if p then throw fault >>= (fun _ : PUnit => x) else x) = .ok c ↔ ¬p ∧ x = .ok c := by
  by_cases hp : p
  · simp [hp, bind, Except.bind, throw, throwThe, MonadExceptOf.throw]
  · simp [hp]

/-- The name of a fault makes no difference to a success. -/
@[simp] theorem mapError_eq_ok_iff {f : ε → ε'} {x : Except ε β} {b : β} :
    x.mapError f = .ok b ↔ x = .ok b := by
  cases x with
  | error fault => exact ⟨nofun, nofun⟩
  | ok a =>
    constructor
    · rintro ⟨⟩
      rfl
    · rintro ⟨⟩
      rfl

@[simp] theorem ofDatabase_eq_ok_iff {x : Except DatabaseFault β} {b : β} :
    StoreFault.ofDatabase x = .ok b ↔ x = .ok b :=
  mapError_eq_ok_iff

@[simp] theorem ofFilter_eq_ok_iff {x : Except Sql.FilterFault β} {b : β} :
    StoreFault.ofFilter x = .ok b ↔ x = .ok b :=
  mapError_eq_ok_iff

/-- A transaction fails and leaves the database as it was, or does all that it says. -/
theorem Step.transaction_cases (f : Database → Except StoreFault (β × Database)) (d : Database) :
    (∃ fault, Step.transaction f d = (.error fault, d)) ∨
      ∃ b d', f d = .ok (b, d') ∧ Step.transaction f d = (.ok b, d') := by
  cases hf : f d with
  | error fault => exact Or.inl ⟨fault, by simp only [Step.transaction, hf]⟩
  | ok r => exact Or.inr ⟨r.1, r.2, rfl, by simp only [Step.transaction, hf]⟩

/-- A transaction that succeeds has done all that it says. -/
theorem Step.transaction_eq_ok_iff {f : Database → Except StoreFault (β × Database)} {d d' : Database}
    {b : β} : Step.transaction f d = (.ok b, d') ↔ f d = .ok (b, d') := by
  rw [Step.transaction]
  cases f d with
  | error fault => simp
  | ok r => simp [Prod.ext_iff]

/-- What holds before a transaction holds after it, if it does once all that it says is done. -/
theorem Step.transaction_preserves {I : Database → Prop} {d : Database} (hd : I d)
    {f : Database → Except StoreFault (β × Database)} (hf : ∀ b d', f d = .ok (b, d') → I d') :
    I (Step.transaction f d).2 := by
  rcases Step.transaction_cases f d with ⟨fault, heq⟩ | ⟨b, d', hok, heq⟩
  · rw [heq]
    exact hd
  · rw [heq]
    exact hf b d' hok

end Payroll
