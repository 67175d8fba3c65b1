import Payroll.Record.Data
/-!
# Floats that are stored

A float comes back from the database as the same number, even though a zero loses its sign. Main
statements: a stored number equals the number that was given, and is finite and not below zero if that
is.
-/

namespace Payroll

/-- The zero that is stored for every zero. -/
private theorem unpack_zero : (0 : Float).toModel.unpack = .zero .positive := by
  rfl

/-- What equals zero is a zero of either sign. -/
private theorem unpack_of_beq_zero {x : Float} (hx : (x == 0) = true) :
    ∃ s, x.toModel.unpack = .zero s := by
  replace hx : x.toModel.unpack.beq (0 : Float).toModel.unpack = true := hx
  rw [unpack_zero] at hx
  cases hu : x.toModel.unpack with
  | zero s => exact ⟨s, rfl⟩
  | notANumber =>
    rw [hu] at hx
    exact nomatch hx
  | infinity s | finite s m e hm =>
    rw [hu] at hx
    cases s <;> exact absurd hx Bool.false_ne_true

/-- A float that is a number equals itself. -/
private theorem real_beq_self {x : Float} (hx : x.isNaN = false) : (x == x) = true := by
  show x.toModel.unpack.beq x.toModel.unpack = true
  replace hx : x.toModel.unpack.isNaN = false := hx
  cases hu : x.toModel.unpack with
  | notANumber =>
    rw [hu] at hx
    exact nomatch hx
  | zero s => rfl
  | infinity s => cases s <;> rfl
  | finite s m e hm =>
    -- Exponents are compared first and then mantissas, the other way round below zero.
    have he : compare e e = .eq := Std.ReflCmp.compare_self
    have hm : compare m m = .eq := Std.ReflCmp.compare_self
    cases s with
    | positive =>
      show (some ((compare e e).then (compare m m)) == some .eq) = true
      rw [he, hm]
      rfl
    | negative =>
      show (some ((compare e e).then (compare m m)).swap == some .eq) = true
      rw [he, hm]
      rfl

/-- A number is stored as one that equals it. -/
theorem storedReal_beq {x : Float} (hx : x.isNaN = false) : (storedReal x == x) = true := by
  rw [storedReal]
  split
  · -- A zero of either sign is stored as the positive one.
    rename_i hzero
    obtain ⟨s, hs⟩ := unpack_of_beq_zero hzero
    show (0 : Float).toModel.unpack.beq x.toModel.unpack = true
    rw [unpack_zero, hs]
    rfl
  · exact real_beq_self hx

/-- A finite number that is not below zero is stored as such a number. -/
theorem storedReal_nonNegative {x : Float} (hx : x.isFinite = true ∧ 0 ≤ x) :
    (storedReal x).isFinite = true ∧ 0 ≤ storedReal x := by
  rw [storedReal]
  split
  · decide
  · exact hx

/-- A number that is stored as one that is finite and not below zero is such a number itself. -/
theorem nonNegative_of_storedReal {x : Float}
    (hx : (storedReal x).isFinite = true ∧ 0 ≤ storedReal x) : x.isFinite = true ∧ 0 ≤ x := by
  rw [storedReal] at hx
  split at hx
  · rename_i hzero
    obtain ⟨s, hs⟩ := unpack_of_beq_zero hzero
    constructor
    · show x.toModel.unpack.isFinite = true
      rw [hs]
      rfl
    · -- A zero is not below zero, whatever its sign.
      refine decide_eq_true (p := (0 : Float).toModel ≤ x.toModel) ?_
      show (0 : Float).toModel.unpack.le x.toModel.unpack = true
      rw [unpack_zero, hs]
      rfl
  · exact hx

/-- A number that has been stored stays as it is. -/
theorem storedReal_storedReal (x : Float) : storedReal (storedReal x) = storedReal x := by
  by_cases hx : (x == 0) = true
  · have hzero : storedReal x = 0 := if_pos hx
    rw [hzero]
    decide
  · have hsame : storedReal x = x := if_neg hx
    rw [hsame, hsame]

/-- A finite float is a number. -/
theorem isNaN_of_isFinite {x : Float} (hx : x.isFinite = true) : x.isNaN = false := by
  replace hx : x.toModel.unpack.isFinite = true := hx
  show x.toModel.unpack.isNaN = false
  cases hu : x.toModel.unpack with
  | notANumber =>
    rw [hu] at hx
    cases hx
  | infinity s | zero s => rfl
  | finite s m e hm => rfl

/-- A number is its own value. -/
theorem realCell_eq {x : Float} (hx : x.isNaN = false) : realCell x = .real x := by
  rw [realCell, Sql.Value.bound, hx]
  rfl

/-- A value of a column for floats is null only if it is no number. -/
theorem isNull_realCell (x : Float) : (realCell x).isNull = x.isNaN := by
  rw [realCell, Sql.Value.bound]
  split
  · rename_i hx
    rw [hx]
    rfl
  · rename_i hx
    simpa [Sql.Value.isNull] using hx

end Payroll
