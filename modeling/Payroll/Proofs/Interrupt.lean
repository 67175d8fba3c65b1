import Mathlib.Data.List.Nodup
import Payroll.Store.Call
/-!
# What abandoning a call interrupts

The moves of any number of calls on one pool, in any order. A connection is free or held by one worker,
since every move takes, keeps or gives back the connection that its call holds. A connection is registered
for a call only while the worker of the call holds it, except where the closure broke down: the connection
then goes back while it is still registered, and whoever abandons the call after that interrupts what
another call does. A call that is abandoned before a connection is registered never runs its closure.

## Key results

- `Call.move_eq_some_iff`: the moves of a call, rule by rule
- `Pool.uses_run`: connections are neither lost nor doubled
- `Pool.spares_run`: what abandoning a call interrupts, after whatever moves
- `Pool.interrupts_other_call`: the connection of another call can be interrupted
-/

namespace Payroll

namespace Call

variable {c : Call} {free : List Nat} {m : Move} {r : Moved} {k : Nat}

/-! ## The moves of a call -/

/-- The moves of a call, rule by rule. -/
inductive Moves (c : Call) (free : List Nat) : Move → Moved → Prop where
  | take {k : Nat} (stage : c.worker = .queued) (isFree : k ∈ free) :
    Moves c free (.take k) ⟨{ c with worker := .holding k }, free.erase k, none⟩
  | refuse (stage : c.worker = .queued) :
    Moves c free .refuse ⟨{ c with worker := .finished .refused }, free, none⟩
  | giveUp {k : Nat} (stage : c.worker = .holding k) (gone : c.abandoned = true) :
    Moves c free .register ⟨{ c with worker := .gaveUp k }, free, none⟩
  | register {k : Nat} (stage : c.worker = .holding k) (waited : ¬c.abandoned = true) :
    Moves c free .register ⟨{ c with worker := .running k, registered := some k }, free, none⟩
  | complete {k : Nat} (stage : c.worker = .running k) :
    Moves c free .complete ⟨{ c with worker := .returned k }, free, none⟩
  | breakDown {k : Nat} (stage : c.worker = .running k) :
    Moves c free .breakDown ⟨{ c with worker := .broken k }, free, none⟩
  | clear {k : Nat} (stage : c.worker = .returned k) :
    Moves c free .clear ⟨{ c with worker := .cleared k, registered := none }, free, none⟩
  | giveBackUnused {k : Nat} (stage : c.worker = .gaveUp k) :
    Moves c free .giveBack ⟨{ c with worker := .finished .gaveUp }, k :: free, none⟩
  | giveBack {k : Nat} (stage : c.worker = .cleared k) :
    Moves c free .giveBack ⟨{ c with worker := .finished .returned }, k :: free, none⟩
  | unwind {k : Nat} (stage : c.worker = .broken k) :
    Moves c free .giveBack ⟨{ c with worker := .finished .broken }, k :: free, none⟩
  | answer {how : WorkerEnd} (stage : c.worker = .finished how) (waits : c.caller = .waiting) :
    Moves c free .answer ⟨{ c with caller := .answered }, free, none⟩
  | abandon (waits : c.caller = .waiting) :
    Moves c free .abandon
      ⟨{ c with caller := .gone, abandoned := true, registered := none }, free, c.registered⟩

theorem move_eq_some_iff : c.move free m = some r ↔ Moves c free m r := by
  constructor
  · intro h
    revert h
    -- Each branch in which the move can be made is one of the rules.
    fun_cases move c free m
    all_goals rintro ⟨⟩
    all_goals constructor <;> assumption
  · intro h
    cases h <;> simp_all [move]

/-! ## Connections -/

/-- The worker of the call holds the connection. -/
def holds (k : Nat) (c : Call) : Bool :=
  c.worker.connection? == some k

theorem not_holds_made (k : Nat) : ¬made.holds k = true :=
  Bool.false_ne_true

/-- A connection that is free or held by the call is so once after a move if it was once before it. -/
theorem Moves.count_eq (h : Moves c free m r) (k : Nat) :
    r.free.count k + (if r.call.holds k then 1 else 0) =
      free.count k + if c.holds k then 1 else 0 := by
  cases h with
  | @take j hstage hfree =>
    have hpos := List.count_pos_iff.mpr hfree
    simp only [holds, hstage, WorkerStage.connection?, List.count_erase]
    by_cases hjk : j = k
    · subst hjk
      simp; omega
    · simp [hjk]
  | giveBackUnused hstage | giveBack hstage | unwind hstage =>
    simp [holds, hstage, WorkerStage.connection?, List.count_cons]
  | refuse hstage | giveUp hstage | register hstage | complete hstage | breakDown hstage | clear hstage =>
    simp [holds, hstage, WorkerStage.connection?]
  | answer | abandon => rfl

/-! ## What is registered -/

/-- A connection is registered for the call only while its worker holds it, or after its closure broke
down. -/
def IsSound (c : Call) : Prop :=
  ∀ k, c.registered = some k →
    c.worker = .running k ∨ c.worker = .returned k ∨ c.worker = .broken k ∨ c.worker = .finished .broken

theorem isSound_made : made.IsSound :=
  nofun

theorem IsSound.holds (hc : c.IsSound) (hk : c.registered = some k)
    (hunbroken : c.worker ≠ .finished .broken) : c.holds k = true := by
  rcases hc k hk with hstage | hstage | hstage | hstage
  · simp [Call.holds, hstage, WorkerStage.connection?]
  · simp [Call.holds, hstage, WorkerStage.connection?]
  · simp [Call.holds, hstage, WorkerStage.connection?]
  · exact absurd hstage hunbroken

/-- A move registers the connection that the worker holds, and a worker that gives it back has cleared the
registration unless its closure broke down. -/
theorem Moves.isSound (h : Moves c free m r) (hc : c.IsSound) : r.call.IsSound := by
  intro k hk
  cases h with
  | register => simp_all
  | clear | abandon => cases hk
  | take hstage | refuse hstage | giveUp hstage | complete hstage | breakDown hstage
  | giveBackUnused hstage | giveBack hstage | unwind hstage =>
    have := hc k hk
    simp_all
  | answer hstage =>
    exact hc k hk

/-- Nothing but abandoning a call interrupts, and that only what is registered for it. -/
theorem Moves.interrupted_eq (h : Moves c free m r) (hk : r.interrupted = some k) :
    m = .abandon ∧ c.registered = some k := by
  cases h with
  | abandon => exact ⟨rfl, hk⟩
  | _ => cases hk

/-- A call that was abandoned before its closure was run stays so. -/
theorem Moves.not_hasRun (h : Moves c free m r) (hgone : c.abandoned = true)
    (hidle : c.worker.hasRun = false) : r.call.abandoned = true ∧ r.call.worker.hasRun = false := by
  cases h with
  | abandon => exact ⟨rfl, hidle⟩
  | register hstage hwaited => exact absurd hgone hwaited
  | take hstage | refuse hstage | giveUp hstage | giveBackUnused hstage => exact ⟨hgone, rfl⟩
  | answer => exact ⟨hgone, hidle⟩
  | complete hstage | breakDown hstage | clear hstage | giveBack hstage | unwind hstage =>
    rw [hstage] at hidle
    cases hidle

end Call

namespace Pool

open Call (Moves)

variable {p q : Pool} {i j k : Nat} {m : Move} {ms : List (Nat × Move)}

/-! ## The moves of all calls -/

/-- A step of the pool is a move of one of its calls, and no other call is different after it. -/
theorem step_eq_some_iff {e : Option Nat} :
    p.step i m = some (q, e) ↔ ∃ c r, p.calls[i]? = some c ∧ Moves c p.free m r ∧
      q = { free := r.free, calls := p.calls.set i r.call } ∧ e = r.interrupted := by
  simp only [step, Option.bind_eq_bind, Option.bind_eq_some_iff, Option.pure_def, Option.some.injEq,
    Prod.mk.injEq, ← Call.move_eq_some_iff]
  constructor
  · rintro ⟨c, hc, r, hr, rfl, rfl⟩
    exact ⟨c, r, hc, hr, rfl, rfl⟩
  · rintro ⟨c, r, hc, hr, rfl, rfl⟩
    exact ⟨c, hc, r, hr, rfl, rfl⟩

/-- What every step keeps holds after a run if it holds before it. -/
theorem run_preserves {I : Pool → Prop} (hstep : ∀ {p q i m e}, I p → p.step i m = some (q, e) → I q)
    (hp : I p) (h : p.run ms = some q) : I q := by
  induction ms generalizing p with
  | nil =>
    rw [← Option.some.inj h]
    exact hp
  | cons im ms ih =>
    obtain ⟨⟨p₁, e⟩, hp₁, hrun⟩ := Option.bind_eq_some_iff.mp h
    exact ih (hstep hp hp₁) hrun

/-! ## Connections are neither lost nor doubled -/

/-- How often a connection is free or held. -/
def uses (p : Pool) (k : Nat) : Nat :=
  p.free.count k + p.calls.countP (Call.holds k)

theorem uses_step {e : Option Nat} (h : p.step i m = some (q, e)) (k : Nat) : q.uses k = p.uses k := by
  obtain ⟨c, r, hc, hr, rfl, -⟩ := step_eq_some_iff.mp h
  obtain ⟨hi, rfl⟩ := List.getElem?_eq_some_iff.mp hc
  have hcount := hr.count_eq k
  have hset : (p.calls.set i r.call).countP (Call.holds k) + (if p.calls[i].holds k then 1 else 0) =
      p.calls.countP (Call.holds k) + if r.call.holds k then 1 else 0 := by
    rw [List.countP_set hi]
    split
    · have hpos : 0 < p.calls.countP (Call.holds k) :=
        List.countP_pos_iff.mpr ⟨_, List.getElem_mem hi, by assumption⟩
      omega
    · omega
  show r.free.count k + (p.calls.set i r.call).countP (Call.holds k) = _
  rw [uses]
  omega

theorem uses_run (h : p.run ms = some q) (k : Nat) : q.uses k = p.uses k :=
  run_preserves (fun hp hstep => (uses_step hstep k).trans hp) rfl h

theorem uses_opened (connections : List Nat) (calls k : Nat) :
    (opened connections calls).uses k = connections.count k := by
  have hnone : (List.replicate calls Call.made).countP (Call.holds k) = 0 := by
    rw [List.countP_eq_zero]
    intro c hc
    rw [List.eq_of_mem_replicate hc]
    exact Call.not_holds_made k
  rw [uses, opened, hnone, Nat.add_zero]

/-- The connection is held by the call, and by no other one, and it is not free. -/
def HeldBy (p : Pool) (k i : Nat) : Prop :=
  k ∉ p.free ∧ ∀ j, (∃ c, p.calls[j]? = some c ∧ c.holds k = true) ↔ j = i

/-- A connection that is used at most once is held by no other call than the one that holds it. -/
theorem heldBy_of_holds (hone : p.uses k ≤ 1) {c : Call} (hc : p.calls[i]? = some c)
    (hk : c.holds k = true) : p.HeldBy k i := by
  obtain ⟨hi, rfl⟩ := List.getElem?_eq_some_iff.mp hc
  have hpos : 0 < p.calls.countP (Call.holds k) :=
    List.countP_pos_iff.mpr ⟨_, List.getElem_mem hi, hk⟩
  rw [uses] at hone
  refine ⟨fun hfree => ?_, fun j => ⟨?_, ?_⟩⟩
  · have := List.count_pos_iff.mpr hfree
    omega
  · rintro ⟨c, hcj, hcon⟩
    by_contra hne
    -- Without the call itself there would still be one that holds the connection.
    have hset : (p.calls.set i Call.made).countP (Call.holds k) = p.calls.countP (Call.holds k) - 1 := by
      rw [List.countP_set hi, if_pos hk, if_neg (Call.not_holds_made k), Nat.add_zero]
    have hmem : c ∈ p.calls.set i Call.made := by
      have hcj' : (p.calls.set i Call.made)[j]? = some c := by rw [List.getElem?_set_ne (Ne.symm hne), hcj]
      exact List.mem_of_getElem? hcj'
    have := List.countP_pos_iff.mpr ⟨c, hmem, hcon⟩
    omega
  · rintro rfl
    exact ⟨_, hc, hk⟩

/-! ## What is interrupted -/

/-- All calls of the pool are sound. -/
def IsSound (p : Pool) : Prop :=
  ∀ c ∈ p.calls, c.IsSound

theorem isSound_opened (connections : List Nat) (calls : Nat) : (opened connections calls).IsSound := by
  intro c hc
  rw [List.eq_of_mem_replicate hc]
  exact Call.isSound_made

theorem IsSound.step {e : Option Nat} (hp : p.IsSound) (h : p.step i m = some (q, e)) : q.IsSound := by
  obtain ⟨c, r, hc, hr, rfl, -⟩ := step_eq_some_iff.mp h
  intro c' hc'
  rcases List.mem_or_eq_of_mem_set hc' with hc' | rfl
  · exact hp c' hc'
  · exact hr.isSound (hp c (List.mem_of_getElem? hc))

/-- The call was abandoned before its closure was run. -/
def IsForgone (p : Pool) (i : Nat) : Prop :=
  ∃ c, p.calls[i]? = some c ∧ c.abandoned = true ∧ c.worker.hasRun = false

theorem IsForgone.step {e : Option Nat} (hp : p.IsForgone i) (h : p.step j m = some (q, e)) :
    q.IsForgone i := by
  obtain ⟨c, hc, hgone, hidle⟩ := hp
  obtain ⟨c', r, hc', hr, rfl, -⟩ := step_eq_some_iff.mp h
  by_cases hij : i = j
  · subst hij
    obtain rfl := Option.some.inj (hc.symm.trans hc')
    obtain ⟨hi, -⟩ := List.getElem?_eq_some_iff.mp hc
    exact ⟨r.call, List.getElem?_set_self hi, hr.not_hasRun hgone hidle⟩
  · refine ⟨c, ?_, hgone, hidle⟩
    show (p.calls.set j r.call)[i]? = some c
    rw [List.getElem?_set_ne (Ne.symm hij), hc]

/-- What the calls on a pool do to each other when they are abandoned. -/
structure Spares (p : Pool) : Prop where
  /-- Only abandoning a call interrupts. What is interrupted is held by that very call, unless its closure
  broke down and the connection has gone back since. -/
  interrupted : ∀ i m q k, p.step i m = some (q, some k) →
    m = .abandon ∧ (p.HeldBy k i ∨ ∃ c, p.calls[i]? = some c ∧ c.worker = .finished .broken)
  /-- A call that was abandoned before its connection was registered never runs its closure. -/
  forgone : ∀ i, p.IsForgone i → ∀ ms q, p.run ms = some q → q.IsForgone i

/-- Whatever moves the calls on a pool of distinct connections make, in whatever order, abandoning a call
interrupts no other call, unless a closure broke down. -/
theorem spares_run {connections : List Nat} (hdistinct : connections.Nodup) {calls : Nat}
    (h : (opened connections calls).run ms = some p) : p.Spares where
  interrupted i m q k hstep := by
    have hsound : p.IsSound :=
      run_preserves (fun hp hstep => hp.step hstep) (isSound_opened connections calls) h
    have hone : p.uses k ≤ 1 := by
      rw [uses_run h, uses_opened]
      exact List.nodup_iff_count_le_one.mp hdistinct k
    obtain ⟨c, r, hc, hr, -, he⟩ := step_eq_some_iff.mp hstep
    obtain ⟨rfl, hk⟩ := hr.interrupted_eq he.symm
    refine ⟨rfl, ?_⟩
    by_cases hbroken : c.worker = .finished .broken
    · exact Or.inr ⟨c, hc, hbroken⟩
    · exact Or.inl (heldBy_of_holds hone hc ((hsound c (List.mem_of_getElem? hc)).holds hk hbroken))
  forgone i hi ms q hrun := run_preserves (fun hp hstep => IsForgone.step hp hstep) hi hrun

/-- The first of two calls is abandoned while it runs its closure, and the second one while it waits for
the connection. -/
theorem spares_run_two :
    let p : Pool := ⟨[], [⟨.running 0, .waiting, false, some 0⟩, ⟨.queued, .gone, true, none⟩]⟩
    [0].Nodup ∧ (opened [0] 2).run [(0, .take 0), (0, .register), (1, .abandon)] = some p ∧
      (∃ q, p.step 0 .abandon = some (q, some 0)) ∧ p.HeldBy 0 0 ∧
      ∀ ms q, p.run ms = some q → q.IsForgone 1 := by
  intro p
  have hrun : (opened [0] 2).run [(0, .take 0), (0, .register), (1, .abandon)] = some p := rfl
  have hspares := spares_run (List.nodup_singleton 0) hrun
  refine ⟨List.nodup_singleton 0, hrun, ⟨_, rfl⟩, ?_, hspares.forgone 1 ⟨_, rfl, rfl, rfl⟩⟩
  rcases (hspares.interrupted 0 .abandon _ 0 rfl).2 with hheld | ⟨c, hc, hbroken⟩
  · exact hheld
  · cases hc
    cases hbroken

/-- Where a closure breaks down, its connection goes back while it is still registered. If another call
has taken it by the time that the first one is abandoned, it is the other call that is interrupted. -/
theorem interrupts_other_call :
    let p : Pool := ⟨[], [⟨.finished .broken, .waiting, false, some 0⟩, ⟨.running 0, .waiting, false, some 0⟩]⟩
    [0].Nodup ∧ (opened [0] 2).run [(0, .take 0), (0, .register), (0, .breakDown), (0, .giveBack),
        (1, .take 0), (1, .register)] = some p ∧
      (∃ q, p.step 0 .abandon = some (q, some 0)) ∧ ¬p.HeldBy 0 0 ∧ p.HeldBy 0 1 := by
  intro p
  refine ⟨List.nodup_singleton 0, rfl, ⟨_, rfl⟩, fun hheld => ?_, heldBy_of_holds (by decide) rfl rfl⟩
  obtain ⟨c, hc, hk⟩ := (hheld.2 0).mpr rfl
  cases hc
  cases hk

end Pool

end Payroll
