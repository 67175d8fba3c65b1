import Payroll.Proofs.Accepted
import Payroll.Proofs.Layers
/-!
# Settings under variables

The variables of a process are laid over settings one by one. Laid over them again they change nothing, what
the service can run with before it can run with after, and a variable that says nothing of its setting, or
something that is no value of it, leaves it as it was. Numbers are taken as they are written, and only
inside their bounds.

## Key results

- `Settings.validate_eq_ok_iff`: which settings the service can run with
- `Settings.validate_override`: variables do not take that away
- `Settings.overridden`: what the variables come to, whatever their texts are
-/

namespace Payroll

open Settings.Variable (natWithin?)
open Text (isBlankText nat64? trim)

variable {vars : Variables} {s : Settings}

/-! ## One variable -/

namespace Settings

/-- A variable has a value for a setting if it has a text that is not blank and is one. -/
theorem override?_eq_some_iff {α : Type} {name : String} {read : String → Option α} {a : α} :
    override? vars name read = some a ↔
      ∃ text, vars name = some text ∧ isBlankText text = false ∧ read text = some a := by
  rw [override?]
  cases hname : vars name with
  | none => simp
  | some text => cases hblank : isBlankText text <;> simp [hblank]

/-- A number is read from the digits of a text, and has to be inside its bounds. -/
theorem Variable.natWithin?_eq_some_iff {least most n : Nat} {text : String} :
    natWithin? least most text = some n ↔
      nat64? (trim text) = some n ∧ least ≤ n ∧ n ≤ most := by
  rw [natWithin?]
  cases hread : nat64? (trim text) with
  | none => simp
  | some m =>
    simp only [Option.bind_eq_bind, Option.bind_some, Option.some.injEq]
    constructor
    · intro h
      split at h
      · rename_i hbounds
        cases h
        exact ⟨rfl, hbounds⟩
      · cases h
    · rintro ⟨rfl, hbounds⟩
      rw [if_pos hbounds]
      rfl

/-- No number is read from a blank text. -/
theorem isBlankText_of_nat64? {text : String} {n : Nat} (h : nat64? (trim text) = some n) :
    isBlankText text = false := by
  cases hblank : isBlankText text with
  | false => rfl
  | true =>
    rw [trim_of_isBlankText hblank] at h
    cases h

end Settings

/-- The setting has no variable, or one without a text, with a blank text, or with a text that is no value
of the setting. -/
def Setting.IsUnsaid (f : Setting) (vars : Variables) : Prop :=
  ∀ name read, f.byVariable = some (name, read) → ∀ text, vars name = some text →
    isBlankText text = true ∨ read text = none

/-- Nothing is given then. -/
theorem Setting.IsUnsaid.given?_eq_none {f : Setting} (h : f.IsUnsaid vars) : f.given? vars = none := by
  cases hvariable : f.byVariable with
  | none => rw [given?, hvariable]
  | some p =>
    obtain ⟨name, read⟩ := p
    rw [given?_eq hvariable, Option.eq_none_iff_forall_ne_some]
    intro a ha
    obtain ⟨text, htext, hblank, hread⟩ := Settings.override?_eq_some_iff.mp ha
    rcases h name read hvariable text htext with hblank' | hnone
    · rw [hblank'] at hblank
      cases hblank
    · rw [hnone] at hread
      cases hread

namespace Settings

/-! ## What the service can run with -/

/-- The service can run with settings whose numbers are not too small and that name a database. -/
theorem validate_eq_ok_iff : s.validate = .ok () ↔
    (s.reload.enabled = true → leastPollIntervalSecs ≤ s.reload.pollIntervalSecs.toNat) ∧
      isBlankText s.database.path = false ∧ s.database.poolSize ≠ 0 ∧
      s.server.requestTimeoutMs ≠ 0 := by
  rw [validate]
  constructor
  · intro h
    split at h
    · cases h
    · rename_i hpoll
      split at h
      · cases h
      · rename_i hpath
        split at h
        · cases h
        · rename_i hpool
          split at h
          · cases h
          · rename_i htimeout
            exact ⟨fun henabled => by simpa [henabled] using hpoll, by simpa using hpath, hpool,
              htimeout⟩
  · rintro ⟨hpoll, hpath, hpool, htimeout⟩
    rw [if_neg (fun h => by have := hpoll h.1; omega), if_neg (by simp [hpath]), if_neg hpool,
      if_neg htimeout]

/-! ## Numbers -/

/-- A setting that is a number which a variable may give, with its bounds. -/
structure Count where
  variableName : String
  least : Nat
  most : Nat
  number : Settings → Nat

namespace Count

/-- The port. -/
def port : Count :=
  { variableName := "PAYTRACK_PORT", least := 0, most := 65535,
    number := fun s => s.server.port.toNat }

/-- How long a request may take. -/
def requestTimeout : Count :=
  { variableName := "PAYTRACK_REQUEST_TIMEOUT_MS", least := 1, most := 600000,
    number := fun s => s.server.requestTimeoutMs.toNat }

/-- How many connections are kept. -/
def poolSize : Count :=
  { variableName := "PAYTRACK_DB_POOL_SIZE", least := 1, most := 256,
    number := fun s => s.database.poolSize.toNat }

/-- The numbers that variables may give. -/
def all : List Count :=
  [port, requestTimeout, poolSize]

/-- The number that the text of a variable writes, if it is inside the bounds. -/
def given? (c : Count) (vars : Variables) : Option Nat :=
  override? vars c.variableName (natWithin? c.least c.most)

/-- A number that is given is inside the bounds. -/
theorem bounds_of_given? {c : Count} {n : Nat} (h : c.given? vars = some n) :
    c.least ≤ n ∧ n ≤ c.most := by
  obtain ⟨text, -, -, hread⟩ := override?_eq_some_iff.mp h
  exact (Variable.natWithin?_eq_some_iff.mp hread).2

/-- A number under the variables is what its own variable gives, else what it was. -/
theorem number_override {c : Count} (hc : c ∈ all) (vars : Variables) (s : Settings) :
    c.number (s.override vars) = (c.given? vars).getD (c.number s) := by
  simp only [all, port, requestTimeout, poolSize, List.mem_cons, List.not_mem_nil, or_false] at hc
  -- The setting is wide enough for every number inside the bounds.
  cases hgiven : c.given? vars with
  | none =>
    rw [given?] at hgiven
    rcases hc with rfl | rfl | rfl <;>
      simp only [override, Server.override, Database.override, hgiven, Option.map_none,
        Option.getD_none]
  | some n =>
    have hmost := (bounds_of_given? hgiven).2
    rw [given?] at hgiven
    rcases hc with rfl | rfl | rfl <;>
      simp only [override, Server.override, Database.override, hgiven, Option.map_some,
        Option.getD_some]
    · exact UInt16.toNat_ofNat_of_lt (Nat.lt_of_le_of_lt hmost (by decide))
    · exact UInt64.toNat_ofNat_of_lt (Nat.lt_of_le_of_lt hmost (by decide))
    · exact UInt32.toNat_ofNat_of_lt (Nat.lt_of_le_of_lt hmost (by decide))

/-- A number whose variable's text writes one is that, inside the bounds, and stays as it is outside them. -/
theorem number_override_of_nat64? {c : Count} (hc : c ∈ all) {text : String} {n : Nat}
    (htext : vars c.variableName = some text) (hn : nat64? (trim text) = some n) :
    c.number (s.override vars) = if c.least ≤ n ∧ n ≤ c.most then n else c.number s := by
  have hgiven : c.given? vars = natWithin? c.least c.most text := by
    simp [given?, override?, htext, isBlankText_of_nat64? hn]
  rw [number_override hc, hgiven, natWithin?, hn]
  simp only [Option.bind_eq_bind, Option.bind_some]
  split <;> rfl

/-- A number that may not be zero does not become zero. -/
theorem number_override_ne_zero {c : Count} (hc : c ∈ all) (hleast : 1 ≤ c.least)
    (h : c.number s ≠ 0) : c.number (s.override vars) ≠ 0 := by
  rw [number_override hc]
  cases hgiven : c.given? vars with
  | none => exact h
  | some n =>
    have := (bounds_of_given? hgiven).1
    rw [Option.getD_some]
    omega

end Count

/-! ## The whole -/

/-- The variables do not take away that the service can run with the settings. -/
theorem validate_override (vars : Variables) (h : s.validate = .ok ()) :
    (s.override vars).validate = .ok () := by
  obtain ⟨hpoll, hpath, hpool, htimeout⟩ := validate_eq_ok_iff.mp h
  -- When to look at the file again is no matter of variables.
  refine validate_eq_ok_iff.mpr ⟨hpoll, ?_, ?_, ?_⟩
  · show isBlankText ((override? vars "PAYTRACK_DB_PATH" some).getD s.database.path) = false
    cases hgiven : override? vars "PAYTRACK_DB_PATH" some with
    | none => exact hpath
    | some path =>
      obtain ⟨text, -, hblank, heq⟩ := override?_eq_some_iff.mp hgiven
      cases heq
      exact hblank
  · intro hzero
    have hold : Count.poolSize.number s ≠ 0 := fun h => hpool (UInt32.toNat_inj.mp h)
    exact Count.number_override_ne_zero (by simp [Count.all]) (by decide) hold
      (congrArg UInt32.toNat hzero)
  · intro hzero
    have hold : Count.requestTimeout.number s ≠ 0 := fun h => htimeout (UInt64.toNat_inj.mp h)
    exact Count.number_override_ne_zero (by simp [Count.all]) (by decide) hold
      (congrArg UInt64.toNat hzero)

/-- What laying variables over settings comes to. -/
structure Overridden (vars : Variables) (s : Settings) : Prop where
  /-- Laid over them again, the variables change nothing. -/
  again : (s.override vars).override vars = s.override vars
  /-- What the service can run with before it can run with after. -/
  valid : s.validate = .ok () → (s.override vars).validate = .ok ()
  /-- A setting of which the variables say nothing, or nothing that is a value of it, stays. -/
  unsaid : ∀ f ∈ Setting.all, f.IsUnsaid vars → f.get (s.override vars) = f.get s
  /-- A number that is given is inside its bounds, and the setting is that number. -/
  count : ∀ c ∈ Count.all, ∀ n, c.given? vars = some n →
    c.least ≤ n ∧ n ≤ c.most ∧ c.number (s.override vars) = n
  /-- It is given where its variable's text writes a number inside the bounds; a number outside them changes
  nothing. -/
  bounds : ∀ c ∈ Count.all, ∀ text n, vars c.variableName = some text → nat64? (trim text) = some n →
    c.number (s.override vars) = if c.least ≤ n ∧ n ≤ c.most then n else c.number s

/-- **Variables are laid over settings one by one, and within bounds.** This is so for all settings and for
all variables, whatever their texts are. -/
theorem overridden (vars : Variables) (s : Settings) : Overridden vars s where
  again := by
    apply eq_of_get_eq
    intro f hf
    rw [Setting.get_override hf, Setting.get_override hf]
    cases f.given? vars with
    | none => rfl
    | some a => rfl
  valid := validate_override vars
  unsaid f hf hunsaid := by
    rw [Setting.get_override hf, hunsaid.given?_eq_none, Option.getD_none]
  count c hc n hn := by
    obtain ⟨hleast, hmost⟩ := Count.bounds_of_given? hn
    refine ⟨hleast, hmost, ?_⟩
    rw [Count.number_override hc, hn, Option.getD_some]
  bounds _ hc _ _ htext hn := Count.number_override_of_nat64? hc htext hn

end Settings

end Payroll
