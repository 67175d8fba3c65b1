import Mathlib.Algebra.Group.Nat.Defs
import Payroll.Proofs.Accepted
/-!
# Windows of time at the ends of 64 bits

The times of a timelog are integers of 64 bits, and so is its duration. The length of a window may not be:
from the least integer to the greatest it takes 65 bits. Such a window is refused if its length is asked
for, and makes no difference if a duration is given.

## Key results

- `windowLength_eq`: the length is the difference as it is computed in 64 bits, unless that overflows
- `TimelogRequest.checksExactly`: which requests pass, and what comes of them
-/

namespace Payroll

open Text (trim)

/-! ## Differences of 64 bits -/

/-- The difference of two integers as it is computed in 64 bits; none if it overflows. -/
def differenceInt64? (i j : Int) : Option Int :=
  let x := BitVec.ofInt 64 i
  let y := BitVec.ofInt 64 j
  if x.ssubOverflow y then none else some (x - y).toInt

/-- What fits 64 bits is not wrapped. -/
theorem bmod_of_fitsInt64 {i : Int} (h : FitsInt64 i) : i.bmod (2 ^ 64) = i :=
  Int.bmod_eq_of_le h.1 h.2

theorem toInt_ofInt64 {i : Int} (h : FitsInt64 i) : (BitVec.ofInt 64 i).toInt = i := by
  rw [BitVec.toInt_ofInt, bmod_of_fitsInt64 h]

/-- The computed difference is the exact one if that fits, and there is none otherwise. -/
theorem differenceInt64?_eq {i j : Int} (hi : FitsInt64 i) (hj : FitsInt64 j) :
    differenceInt64? i j = if FitsInt64 (i - j) then some (i - j) else none := by
  have hoverflow : (BitVec.ofInt 64 i).ssubOverflow (BitVec.ofInt 64 j) = decide (¬FitsInt64 (i - j)) := by
    rw [BitVec.ssubOverflow, toInt_ofInt64 hi, toInt_ofInt64 hj, ← Bool.decide_or]
    exact decide_eq_decide.mpr (by omega)
  rw [differenceInt64?]
  by_cases hfits : FitsInt64 (i - j)
  · have hsub : (BitVec.ofInt 64 i - BitVec.ofInt 64 j).toInt = i - j := by
      rw [BitVec.toInt_sub, toInt_ofInt64 hi, toInt_ofInt64 hj, bmod_of_fitsInt64 hfits]
    simp [hoverflow, hfits, hsub]
  · simp [hoverflow, hfits]

/-- The length of a window that does not end before it starts is the difference of its ends as it is
computed in 64 bits. The window is too large if that overflows, and for no other reason. -/
theorem windowLength_eq {start stop : Int} (hstart : FitsInt64 start) (hstop : FitsInt64 stop)
    (hle : start ≤ stop) :
    windowLength start stop = (differenceInt64? stop start).elim (.error .windowTooLarge) .ok := by
  rw [differenceInt64?_eq hstop hstart, windowLength, maxInt64]
  by_cases hfits : FitsInt64 (stop - start)
  · rw [if_pos (by omega), if_pos hfits]
    rfl
  · rw [if_neg (by omega), if_neg hfits]
    rfl

/-! ## Requests for timelogs -/

namespace TimelogRequest

/-- The numbers of the request are integers of 64 bits. -/
structure Fits (r : TimelogRequest) : Prop where
  timeStart : ∀ i ∈ r.timeStart, FitsInt64 i
  timeEnd : ∀ i ∈ r.timeEnd, FitsInt64 i
  duration : ∀ i ∈ r.duration, FitsInt64 i

/-- Everything but the duration is there, the window does not end before it starts, something is left of
the type once it is trimmed, and the duration is not below zero or, where none is given, the length of the
window fits 64 bits. -/
def IsAcceptable (r : TimelogRequest) : Prop :=
  ∃ start ∈ r.timeStart, ∃ stop ∈ r.timeEnd, ∃ type ∈ r.type, r.jobUid.isSome = true ∧
    start ≤ stop ∧ trim type ≠ "" ∧
      ((∃ d ∈ r.duration, 0 ≤ d) ∨ r.duration = none ∧ stop - start ≤ maxInt64)

/-- What the check of a request for a timelog says about it. -/
structure ChecksExactly (r : TimelogRequest) : Prop where
  accepted : (∃ t, r.check = .ok t) ↔ r.IsAcceptable
  /-- The timelog has the times, the trimmed type and the duration of the request, or else the exact length of
  the window. -/
  content : ∀ t, r.check = .ok t →
    r.timeStart = some t.timeStart ∧ r.timeEnd = some t.timeEnd ∧ r.type.map trim = some t.type ∧
      r.jobUid = some t.jobUid ∧ t.duration = r.duration.getD (t.timeEnd - t.timeStart)
  fits : ∀ t, r.check = .ok t → FitsInt64 t.duration ∧ FitsInt64 t.timeStart ∧ FitsInt64 t.timeEnd
  /-- The length of the window is computed in 64 bits without wrapping. -/
  computed : ∀ start ∈ r.timeStart, ∀ stop ∈ r.timeEnd, start ≤ stop →
    windowLength start stop = (differenceInt64? stop start).elim (.error .windowTooLarge) .ok

/-- A request that passes gives a duration, or leaves it to the window, whose length fits 64 bits. -/
theorem duration_eq {r : TimelogRequest} {t : Timelog} (h : r.check = .ok t) :
    r.duration = some t.duration ∨
      r.duration = none ∧ t.timeEnd - t.timeStart ≤ maxInt64 ∧
        t.timeEnd - t.timeStart = t.duration := by
  obtain ⟨-, -, -, hlasted, -⟩ := check_eq_ok_iff.mp h
  exact lasted_eq_ok_iff.mp hlasted

theorem exists_check_eq_ok_iff {r : TimelogRequest} : (∃ t, r.check = .ok t) ↔ r.IsAcceptable := by
  constructor
  · rintro ⟨t, h⟩
    obtain ⟨hstart, hstop, hperiod, -, hnegative, htype, hjob⟩ := check_eq_ok_iff.mp h
    obtain ⟨type, hgiven, hblank, -⟩ := requiredText_eq_ok_iff.mp htype
    refine ⟨t.timeStart, hstart, t.timeEnd, hstop, type, hgiven, by simp [hjob], hperiod,
      trim_ne_empty_iff.mpr hblank, ?_⟩
    rcases duration_eq h with hduration | ⟨hduration, hlength, -⟩
    · exact .inl ⟨t.duration, hduration, hnegative⟩
    · exact .inr ⟨hduration, hlength⟩
  · rintro ⟨start, hstart, stop, hstop, type, htype, hjob, hperiod, hne, hduration⟩
    obtain ⟨jobUid, hjob⟩ := Option.isSome_iff_exists.mp hjob
    have htrimmed : requiredText "type" r.type = .ok (trim type) :=
      requiredText_eq_ok_iff.mpr ⟨type, htype, trim_ne_empty_iff.mp hne, rfl⟩
    -- The duration is the one that is given, or else the length of the window, which is not below zero.
    obtain ⟨d, hlasted, hd⟩ : ∃ d, r.lasted start stop = .ok d ∧ 0 ≤ d := by
      rcases hduration with ⟨d, hgiven, hd⟩ | ⟨hnone, hlength⟩
      · exact ⟨d, lasted_eq_ok_iff.mpr (.inl hgiven), hd⟩
      · exact ⟨stop - start, lasted_eq_ok_iff.mpr (.inr ⟨hnone, hlength, rfl⟩), by omega⟩
    exact ⟨⟨d, start, stop, trim type, jobUid⟩,
      check_eq_ok_iff.mpr ⟨hstart, hstop, hperiod, hlasted, hd, htrimmed, hjob⟩⟩

/-- Requests for timelogs are checked exactly, up to both ends of 64 bits. -/
theorem checksExactly {r : TimelogRequest} (hr : r.Fits) : r.ChecksExactly where
  accepted := exists_check_eq_ok_iff
  content t h := by
    obtain ⟨hstart, hstop, -, -, -, htype, hjob⟩ := check_eq_ok_iff.mp h
    obtain ⟨type, hgiven, -, htrim⟩ := requiredText_eq_ok_iff.mp htype
    refine ⟨hstart, hstop, by rw [hgiven, ← htrim]; rfl, hjob, ?_⟩
    rcases duration_eq h with hduration | ⟨hduration, -, hlength⟩
    · rw [hduration, Option.getD_some]
    · rw [hduration, Option.getD_none, hlength]
  fits t h := by
    obtain ⟨hstart, hstop, -, -, hnegative, -⟩ := check_eq_ok_iff.mp h
    refine ⟨?_, hr.timeStart _ hstart, hr.timeEnd _ hstop⟩
    rcases duration_eq h with hduration | ⟨-, hlength, hexact⟩
    · exact hr.duration _ hduration
    · rw [maxInt64] at hlength
      omega
  computed start hstart stop hstop := windowLength_eq (hr.timeStart _ hstart) (hr.timeEnd _ hstop)

/-- The widest window there is, with a duration. -/
def widest : TimelogRequest :=
  ⟨some (-9223372036854775808), some 9223372036854775807, some 1, some " captured ", some "u"⟩

/-- The widest window is accepted with a duration, and refused without one. -/
theorem checksExactly_widest :
    widest.Fits ∧ widest.ChecksExactly ∧
      widest.check = .ok ⟨1, -9223372036854775808, 9223372036854775807, "captured", "u"⟩ ∧
      TimelogRequest.check { widest with duration := none } = .error .windowTooLarge := by
  have hfits : widest.Fits := ⟨by decide, by decide, by decide⟩
  refine ⟨hfits, checksExactly hfits, mem_toList_toOption_iff.mp (by decide +kernel), ?_⟩
  rfl

end TimelogRequest

end Payroll
