import Mathlib
import Payroll.Json.Numeral
/-!
# Floats that are read are finite

A number in a text is read by converting its digits to a float and multiplying or dividing that by a power
of ten. The power is one or more, so a quotient cannot leave the range of floats; a product that does is
refused. A float is a whole number of at most 53 bits times a power of two, and it is finite as long as that
power, its last place, is not too high. So the last place is followed upwards through each operation, and for
what is divided by, the first place downwards.

## Key results

- `Rounding.isWithin_roundWithAccuracy`, `Rounding.isNormal_roundWithAccuracy`: where rounding puts the last
  place and the first one
- `Rounding.isWithin_unpack_pack`, `Rounding.isAtLeast_unpack_pack`: packing leaves them there
- `Decimal.isFinite_ofParts`: a decimal is read as a finite float
- `Json.Numeral.isBounded_value`: a number is read as an integer of 64 bits or a finite float
-/

namespace Payroll.Rounding

open Float.Model (Format UnpackedFloat totalExponent)
open Float.Model.UnpackedFloat

/-! ## Places of whole numbers -/

theorem log2_le_of_lt_two_pow {n k : Nat} (h : n < 2 ^ (k + 1)) : n.log2 ≤ k := by
  by_cases hn : n = 0
  · simp [hn]
  · exact Nat.le_of_lt_succ ((Nat.log2_lt hn).mpr h)

/-- Dividing by a power of two takes as many places. -/
theorem log2_div_two_pow {m k : Nat} (hk : k ≤ m.log2) : (m / 2 ^ k).log2 = m.log2 - k := by
  by_cases hm : m = 0
  · simp [hm]
  · have hlow : 2 ^ (m.log2 - k) ≤ m / 2 ^ k := by
      rw [Nat.le_div_iff_mul_le (Nat.two_pow_pos k), ← Nat.pow_add, Nat.sub_add_cancel hk]
      exact Nat.log2_self_le hm
    have hhigh : m / 2 ^ k < 2 ^ (m.log2 - k + 1) := by
      rw [Nat.div_lt_iff_lt_mul (Nat.two_pow_pos k), ← Nat.pow_add,
        show m.log2 - k + 1 + k = m.log2 + 1 by omega]
      exact Nat.lt_log2_self
    have hne : m / 2 ^ k ≠ 0 := Nat.pos_iff_ne_zero.mp (Nat.lt_of_lt_of_le (Nat.two_pow_pos _) hlow)
    exact (Nat.log2_eq_iff hne).mpr ⟨hlow, hhigh⟩

theorem log2_mul_le (m n : Nat) : (m * n).log2 ≤ m.log2 + n.log2 + 1 := by
  refine log2_le_of_lt_two_pow ?_
  have hlt := Nat.mul_lt_mul'' (Nat.lt_log2_self (n := m)) (Nat.lt_log2_self (n := n))
  rw [← Nat.pow_add] at hlt
  exact Nat.lt_of_lt_of_le hlt (Nat.pow_le_pow_right (by decide) (by omega))

theorem log2_shiftLeft_le (m k : Nat) : (m <<< k).log2 ≤ m.log2 + k := by
  refine log2_le_of_lt_two_pow ?_
  rw [Nat.shiftLeft_eq, show m.log2 + k + 1 = m.log2 + 1 + k by omega, Nat.pow_add]
  exact Nat.mul_lt_mul_of_pos_right Nat.lt_log2_self (Nat.two_pow_pos k)

theorem log2_div_le {m n : Nat} (hn : 0 < n) : (m / n).log2 ≤ m.log2 + 1 - n.log2 := by
  have hle : 2 ^ n.log2 ≤ n := Nat.log2_self_le (by omega)
  refine log2_le_of_lt_two_pow ((Nat.div_lt_iff_lt_mul hn).mpr ?_)
  have hlt : m < 2 ^ (m.log2 + 1 - n.log2 + 1) * 2 ^ n.log2 := by
    rw [← Nat.pow_add]
    exact Nat.lt_of_lt_of_le Nat.lt_log2_self (Nat.pow_le_pow_right (by decide) (by omega))
  exact Nat.lt_of_lt_of_le hlt (Nat.mul_le_mul_left _ hle)

/-! ## Ranges -/

/-- A finite number, whose last place is that of `2 ^ c` at most. -/
def IsWithin (c : Int) : UnpackedFloat → Prop
  | .zero _ => True
  | .finite _ _ e _ => e ≤ c
  | .infinity _ | .notANumber => False

/-- A finite number whose first place is below that of `2 ^ n`. -/
def IsBelow (n : Int) : UnpackedFloat → Prop
  | .zero _ => True
  | .finite _ m e _ => m.log2 + 1 + e ≤ n
  | .infinity _ | .notANumber => False

/-- A number whose first place is at least the one below that of `2 ^ n`. This can be evaluated. -/
def isAtLeast (n : Int) : UnpackedFloat → Bool
  | .finite _ m e _ => n ≤ m.log2 + 1 + e
  | .infinity _ | .zero _ | .notANumber => false

/-- A number of 53 bits, the first of which is at least the one below that of `2 ^ n`. -/
def IsNormal (n : Int) : UnpackedFloat → Prop
  | .finite _ m e _ => m.log2 = 52 ∧ n ≤ e + 53
  | .infinity _ | .zero _ | .notANumber => False

theorem isFinite_of_isWithin {c : Int} {u : UnpackedFloat} (hu : IsWithin c u) : u.isFinite = true := by
  cases u with
  | infinity | notANumber => exact hu.elim
  | zero | finite => rfl

theorem isFinite_of_isAtLeast {n : Int} {u : UnpackedFloat} (hu : isAtLeast n u = true) :
    u.isFinite = true := by
  cases u with
  | infinity | zero | notANumber => cases hu
  | finite => rfl

/-! ## The format -/

theorem exponentBias_eq : (Format.binary64.exponentBias : Int) = 1023 := by decide

/-- The greatest exponent stands for no finite number. -/
theorem unpackExponent_ne_iff {b : BitVec Format.binary64.numBits} :
    unpackExponent b ≠ -1#_ ↔ (unpackExponent b).toNat < 2047 := by
  have hlt : (unpackExponent b).toNat < 2048 := (unpackExponent b).isLt
  have hlast : (-1#_ : BitVec Format.binary64.exponentBits).toNat = 2047 := by decide
  rw [Ne, ← BitVec.toNat_inj, hlast]
  omega

/-! ## Rounding -/

/-- What places are left of a mantissa that is shifted. -/
theorem mantissa_shiftRight (em : ExtendedMantissa) (k : Nat) :
    (em >>> k).mantissa = em.mantissa / 2 ^ k := by
  induction k with
  | zero => exact (Nat.div_one _).symm
  | succ k ih =>
    show (em >>> k).mantissa / 2 = _
    rw [ih, Nat.div_div_eq_div_mul, Nat.pow_succ]

/-- Rounding keeps a mantissa or adds one to it. -/
theorem roundedMantissa_eq_or (em : ExtendedMantissa) :
    em.roundedMantissa = em.mantissa ∨ em.roundedMantissa = em.mantissa + 1 := by
  rw [ExtendedMantissa.roundedMantissa]
  -- What is lost decides, and if it is just half, whether the mantissa is odd.
  cases em.accuracy with
  | exact => exact .inl rfl
  | inexact o =>
    cases o with
    | lt => exact .inl rfl
    | gt => exact .inr rfl
    | eq =>
      show em.mantissa + em.mantissa % 2 = _ ∨ em.mantissa + em.mantissa % 2 = _
      omega

theorem mantissa_ofMantissaAndAccuracy (m : Nat) (a : Accuracy) :
    (ExtendedMantissa.ofMantissaAndAccuracy m a).mantissa = m := by
  cases a with
  | exact => rfl
  | inexact o => cases o <;> rfl

/-- The places by which a mantissa is shifted so that 53 bits of it are left, or the last place there is. -/
def shift (m : Nat) (e : Int) : Nat :=
  (max ((m.log2 : Int) + 1 + e - 53) (-1074) - e).toNat

/-- The mantissa that is left after the shift, one more if what is lost is rounded up. -/
def roundedOff (m : Nat) (e : Int) (a : Accuracy) : Nat :=
  (ExtendedMantissa.ofMantissaAndAccuracy m a >>> shift m e).roundedMantissa

theorem roundedOff_bounds (m : Nat) (e : Int) (a : Accuracy) :
    m / 2 ^ shift m e ≤ roundedOff m e a ∧ roundedOff m e a ≤ m / 2 ^ shift m e + 1 := by
  have hrounded := roundedMantissa_eq_or (ExtendedMantissa.ofMantissaAndAccuracy m a >>> shift m e)
  rw [mantissa_shiftRight, mantissa_ofMantissaAndAccuracy, ← roundedOff] at hrounded
  omega

/-- Rounding adds one place at most, for a carry. -/
theorem log2_roundedOff_le (m : Nat) (e : Int) (a : Accuracy) :
    (roundedOff m e a).log2 ≤ m.log2 + 1 - shift m e := by
  have hrounded := (roundedOff_bounds m e a).2
  generalize shift m e = k at hrounded ⊢
  have hshift : m / 2 ^ k < 2 ^ (m.log2 + 1 - k) := by
    rw [Nat.div_lt_iff_lt_mul (Nat.two_pow_pos k), ← Nat.pow_add]
    exact Nat.lt_of_lt_of_le Nat.lt_log2_self (Nat.pow_le_pow_right (by decide) (by omega))
  have hpos := Nat.two_pow_pos (m.log2 + 1 - k)
  refine log2_le_of_lt_two_pow ?_
  rw [Nat.pow_succ]
  omega

/-- A number is shifted and rounded, and shifted once more, in case a carry has made it one place longer. -/
theorem roundWithAccuracy_eq (s : Sign) (m : Nat) (e : Int) (a : Accuracy) :
    roundWithAccuracy Format.binary64 s m e a =
      if h : roundedOff m e a / 2 ^ shift (roundedOff m e a) (e + shift m e) = 0 then .zero s
      else .finite s (roundedOff m e a / 2 ^ shift (roundedOff m e a) (e + shift m e))
        (e + shift m e + shift (roundedOff m e a) (e + shift m e)) (Nat.pos_of_ne_zero h) := by
  have hleft : (ExtendedMantissa.ofMantissaAndAccuracy (roundedOff m e a) .exact >>>
      shift (roundedOff m e a) (e + shift m e)).mantissa =
        roundedOff m e a / 2 ^ shift (roundedOff m e a) (e + shift m e) := by
    rw [mantissa_shiftRight, mantissa_ofMantissaAndAccuracy]
  simp only [← hleft]
  rfl

/-- Rounding raises the last place so far that 53 bits are left, and by one more for a carry. -/
theorem isWithin_roundWithAccuracy {c : Int} (s : Sign) (m : Nat) (e : Int) (a : Accuracy)
    (he : e ≤ c) (hm : m.log2 + e ≤ c + 51) (hc : -1074 ≤ c) :
    IsWithin c (roundWithAccuracy Format.binary64 s m e a) := by
  have hlog := log2_roundedOff_le m e a
  rw [roundWithAccuracy_eq]
  split
  · trivial
  · simp only [IsWithin, shift] at hlog ⊢
    omega

/-- A mantissa of 53 bits or more keeps 53 when it is shifted, if it is above the last place there is. -/
theorem log2_shift {m : Nat} {e : Int} (hm : 52 ≤ m.log2) (hlow : -1022 ≤ m.log2 + e) :
    (m / 2 ^ shift m e).log2 = 52 ∧ e + shift m e = m.log2 + e - 52 := by
  have hshift : shift m e = m.log2 - 52 := by rw [shift]; omega
  rw [hshift, log2_div_two_pow (by omega)]
  omega

/-- Rounding keeps the first place of a number that has 53 bits, or raises it. -/
theorem isNormal_roundWithAccuracy {n : Int} (s : Sign) (m : Nat) (e : Int) (a : Accuracy)
    (hm : 52 ≤ m.log2) (hn : n ≤ m.log2 + 1 + e) (hlow : -1021 ≤ n) :
    IsNormal n (roundWithAccuracy Format.binary64 s m e a) := by
  obtain ⟨hfirst, hplace⟩ := log2_shift (e := e) hm (by omega)
  have hbits : 52 ≤ (roundedOff m e a).log2 := by
    have hne : m / 2 ^ shift m e ≠ 0 := by intro h; rw [h] at hfirst; cases hfirst
    have hle := Nat.le_trans (Nat.log2_self_le hne) (roundedOff_bounds m e a).1
    rw [hfirst] at hle
    exact (Nat.le_log2 (by omega)).mpr hle
  obtain ⟨hlast, hplace'⟩ := log2_shift (e := e + shift m e) hbits (by omega)
  rw [roundWithAccuracy_eq]
  split
  · rename_i hzero
    rw [hzero] at hlast
    cases hlast
  · exact ⟨hlast, by omega⟩

/-! ## Operations before packing -/

/-- The place of a product is where those of its factors put it. -/
theorem isWithin_mul {a b c : Int} {u v : UnpackedFloat} (hu : IsBelow a u) (hv : IsBelow b v)
    (hab : a + b ≤ c) (hc : -1074 ≤ c) : IsWithin c (mul Format.binary64 u v) := by
  cases u with
  | infinity | notANumber => exact hu.elim
  | zero s =>
    cases v with
    | infinity | notANumber => exact hv.elim
    | zero | finite => trivial
  | finite s m e hm =>
    cases v with
    | infinity | notANumber => exact hv.elim
    | zero s' => trivial
    | finite s' n f hn =>
      have hmul := log2_mul_le m n
      simp only [IsBelow] at hu hv
      exact isWithin_roundWithAccuracy _ _ _ _ (by omega) (by omega) hc

/-- A quotient is below its dividend by the places of its divisor. -/
theorem isWithin_div {a b c : Int} {u v : UnpackedFloat} (hu : IsBelow a u)
    (hv : isAtLeast b v = true) (hab : a - b ≤ c + 50) (hc : -1074 ≤ c) :
    IsWithin c (div Format.binary64 u v) := by
  cases v with
  | infinity | notANumber | zero => cases hv
  | finite s' n f hn =>
    cases u with
    | infinity | notANumber => exact hu.elim
    | zero s => trivial
    | finite s m e hm =>
      simp only [IsBelow] at hu
      simp only [isAtLeast, decide_eq_true_eq] at hv
      -- The dividend is shifted so that 53 bits of the quotient are there before it is rounded.
      have htarget : Format.binary64.targetExponent (totalExponent m e - totalExponent n f) =
          max (((m.log2 : Int) + 1 + e) - (n.log2 + 1 + f) - 53) (-1074) := rfl
      simp only [div, divCore, htarget]
      generalize hplace : min (e - f) (max (((m.log2 : Int) + 1 + e) - (n.log2 + 1 + f) - 53) (-1074)) =
        place
      have hshift := log2_shiftLeft_le m (e - f - place).toNat
      have hquotient := log2_div_le (m := m <<< (e - f - place).toNat) hn
      exact isWithin_roundWithAccuracy _ _ _ _ (by omega) (by omega) hc

/-- A natural number has as many places as it has bits. -/
theorem isWithin_ofNat {c : Int} {n : Nat} (hn : n.log2 ≤ c) :
    IsWithin c (ofNat Format.binary64 n) := by
  rw [ofNat, ofInt, UnpackedFloat.normalize]
  split
  · rename_i hneg
    rw [Int.compare_eq_lt] at hneg
    omega
  · trivial
  · rw [UnpackedFloat.round]
    simp only [decreaseExponent, Int.toNat_natCast]
    generalize (0 - Format.binary64.targetExponent (totalExponent n 0)).toNat = k
    have hshift := log2_shiftLeft_le n k
    exact isWithin_roundWithAccuracy _ _ _ _ (by omega) (by omega) (by omega)

/-- The product of finite numbers is finite before it is packed. -/
theorem isFinite_mul {u v : UnpackedFloat} (hu : u.isFinite = true) (hv : v.isFinite = true) :
    (mul Format.binary64 u v).isFinite = true := by
  cases u with
  | infinity | notANumber => cases hu
  | zero s =>
    cases v with
    | infinity | notANumber => cases hv
    | zero | finite => rfl
  | finite s m e hm =>
    cases v with
    | infinity | notANumber => cases hv
    | zero s' => rfl
    | finite s' n f hn =>
      show (roundWithAccuracy Format.binary64 _ _ _ _).isFinite = true
      rw [roundWithAccuracy_eq]
      split <;> rfl

/-! ## Packing -/

/-- Bits that stand for neither infinity nor no number stand for a finite number, whose last place their
exponent tells. -/
theorem isWithin_unpack {c : Int} {b : BitVec Format.binary64.numBits} (hc : -1074 ≤ c)
    (hb : (unpackExponent b).toNat < 2047) (he : (unpackExponent b).toNat ≤ c + 1075) :
    IsWithin c (unpack Format.binary64 b) := by
  have hbias := exponentBias_eq
  rw [unpack, if_neg (unpackExponent_ne_iff.mpr hb)]
  split
  · rename_i hzero
    split
    · trivial
    · simp only [IsWithin, hzero, BitVec.toNat_zero]
      omega
  · simp only [IsWithin]
    omega

/-- No finite number is above the greatest one. -/
theorem isWithin_of_isFinite {b : BitVec Format.binary64.numBits}
    (hb : (unpack Format.binary64 b).isFinite = true) : IsWithin 971 (unpack Format.binary64 b) := by
  have hexponent : unpackExponent b ≠ -1#_ := by
    intro h
    rw [unpack, if_pos h] at hb
    split at hb <;> cases hb
  have hlt := unpackExponent_ne_iff.mp hexponent
  exact isWithin_unpack (by decide) hlt (by omega)

/-- A finite number whose last place is not too high is finite once it is packed. -/
theorem isWithin_unpack_pack {c : Int} {u : UnpackedFloat} (hu : IsWithin c u) (hlow : -1074 ≤ c)
    (hhigh : c ≤ 971) : IsWithin c (Float.Model.pack u).unpack := by
  show IsWithin c (unpack Format.binary64 (pack Format.binary64 u))
  cases u with
  | infinity s | notANumber => exact hu.elim
  | zero s =>
    rw [pack, unpack_packedZero]
    trivial
  | finite s m e hm =>
    have he : e ≤ c := hu
    simp only [pack, exponentBias_eq]
    rw [if_neg (by omega)]
    -- A number of 53 bits is packed with its own exponent, and one of fewer with the least one.
    split
    · apply isWithin_unpack hlow
      · simp; omega
      · simp; omega
    · apply isWithin_unpack hlow
      · simp
      · simp; omega

/-- A finite number is packed as a finite one, or else as an infinite one. -/
theorem isFinite_unpack_pack {u : UnpackedFloat} (hu : u.isFinite = true)
    (hinf : (Float.Model.pack u).unpack.isInf = false) : (Float.Model.pack u).unpack.isFinite = true := by
  cases u with
  | infinity s | notANumber => cases hu
  | zero s => cases s <;> rfl
  | finite s m e hm =>
    by_cases he : e ≤ 971
    · refine isFinite_of_isWithin (isWithin_unpack_pack (c := max e (-1074)) ?_ ?_ ?_)
      · show e ≤ max e (-1074)
        omega
      · omega
      · omega
    · have hpack : pack Format.binary64 (.finite s m e hm) = packedInfinity Format.binary64 s := by
        simp only [pack, exponentBias_eq]
        rw [if_pos (by omega)]
      have hinfinite : (Float.Model.pack (.finite s m e hm)).unpack.isInf = true := by
        show (unpack Format.binary64 (pack Format.binary64 (.finite s m e hm))).isInf = true
        rw [hpack]
        cases s <;> rfl
      rw [hinfinite] at hinf
      cases hinf

/-- The bit before the point, which bits leave out, is the first of 53. -/
theorem log2_implicit (v : BitVec Format.binary64.mantissaBitsWithoutImplicit) :
    (1#1 ++ v).toNat.log2 = 52 := by
  have hv : v.toNat < 2 ^ 52 := v.isLt
  have hvalue : (1#1 ++ v).toNat = 2 ^ 52 + v.toNat := by
    rw [BitVec.toNat_append]
    exact (Nat.two_pow_add_eq_or_of_lt hv 1).symm
  rw [hvalue]
  exact (Nat.log2_eq_iff (by omega)).mpr ⟨by omega, by omega⟩

/-- A number that is unpacked has 53 bits at most. -/
theorem isBelow_unpack {c : Int} {b : BitVec Format.binary64.numBits}
    (hb : IsWithin c (unpack Format.binary64 b)) : IsBelow (c + 53) (unpack Format.binary64 b) := by
  revert hb
  rw [unpack]
  dsimp only
  split
  · split <;> exact False.elim
  · split
    · -- With the least exponent there is no bit before the point.
      split
      · exact fun _ => trivial
      · intro hb
        have hlog := log2_le_of_lt_two_pow (k := 51) (unpackMantissa b).isLt
        simp only [IsWithin, IsBelow] at hb ⊢
        omega
    · intro hb
      have hlog := log2_implicit (unpackMantissa b)
      simp only [IsWithin, IsBelow] at hb ⊢
      omega

/-- Bits with an exponent that is neither the least nor the greatest stand for a number of 53 bits. -/
theorem isAtLeast_unpack {n : Int} {b : BitVec Format.binary64.numBits}
    (hlow : 0 < (unpackExponent b).toNat) (hhigh : (unpackExponent b).toNat < 2047)
    (hn : n ≤ (unpackExponent b).toNat - 1022) : isAtLeast n (unpack Format.binary64 b) = true := by
  have hzero : unpackExponent b ≠ 0#_ := by
    intro h
    rw [h] at hlow
    exact absurd hlow (by decide)
  have hlog := log2_implicit (unpackMantissa b)
  have hbias := exponentBias_eq
  rw [unpack, if_neg (unpackExponent_ne_iff.mpr hhigh), if_neg hzero]
  simp only [isAtLeast, decide_eq_true_eq]
  omega

/-- A number of 53 bits keeps its first place when it is packed. -/
theorem isAtLeast_unpack_pack {n : Int} {u : UnpackedFloat} (hu : IsNormal n u) (hlow : -1021 ≤ n)
    (hhigh : IsWithin 971 u) : isAtLeast n (Float.Model.pack u).unpack = true := by
  cases u with
  | infinity | zero | notANumber => exact hu.elim
  | finite s m e hm =>
    obtain ⟨hbits, hn⟩ := hu
    have he : e ≤ 971 := hhigh
    have hall : 52 + 1 = Format.binary64.mantissaBits := rfl
    show isAtLeast n (unpack Format.binary64 (pack Format.binary64 (.finite s m e hm))) = true
    simp only [pack, exponentBias_eq, hbits]
    rw [if_neg (by omega), if_pos hall]
    apply isAtLeast_unpack
    · simp; omega
    · simp; omega
    · simp; omega

end Payroll.Rounding

namespace Payroll

open Float.Model (Format UnpackedFloat)
open Rounding

/-! ## Floats -/

/-- The finite floats are those whose last place is not above that of the greatest one. -/
theorem isFinite_iff_isWithin {x : Float} :
    x.isFinite = true ↔ IsWithin 971 x.toModel.unpack :=
  ⟨fun hx => isWithin_of_isFinite hx, isFinite_of_isWithin⟩

theorem isWithin_toFloat (n : UInt64) : IsWithin 63 n.toFloat.toModel.unpack := by
  have hlog : n.toNat.log2 ≤ 63 := log2_le_of_lt_two_pow n.toNat_lt
  exact isWithin_unpack_pack (isWithin_ofNat (by omega)) (by decide) (by decide)

/-- A number with more than 53 bits, or times a power of ten that is in no table, is rounded as it is. -/
theorem toModel_ofScientific {m n : Nat} (hm : m ≠ 0) (htable : ¬(m < 2 ^ 53 ∧ n ≤ 22))
    (hn : n ≤ 2048) :
    (Float.ofScientific m false n).toModel =
      Float.Model.pack (UnpackedFloat.roundWithAccuracy Format.binary64 .positive
        (m <<< 53 * 10 ^ n) (-53) .exact) := by
  have hlimit : (2 : Int) ^ Format.binary64.exponentBits = 2048 := by decide
  rw [Float.ofScientific, dif_neg htable]
  simp only [Float.Model.ofScientific, UnpackedFloat.ofScientific, hlimit]
  rw [dif_neg hm, if_neg, if_neg, if_pos]
  · rfl
  · exact Int.natCast_nonneg n
  · show ¬(n : Int) < -(2048 + (m.log2 : Nat))
    omega
  · show ¬(n : Int) > 2048
    omega

/-- A power of ten that a float can hold is one or more. -/
theorem isAtLeast_powerOfTen {n : Nat} (hn : n ≤ 308) :
    isAtLeast 1 (Decimal.powerOfTen n).toModel.unpack = true := by
  -- The first powers are in a table, and the last one is on the edge of the range.
  by_cases htable : n ≤ 22
  · have hall : ∀ m ≤ 22, isAtLeast 1 (Decimal.powerOfTen m).toModel.unpack = true := by decide +kernel
    exact hall n htable
  by_cases hlast : n = 308
  · subst hlast
    decide +kernel
  · have hpos : 0 < 10 ^ n := Nat.pow_pos (by decide)
    have hle : 2 ^ 53 ≤ 1 <<< 53 * 10 ^ n := Nat.le_mul_of_pos_right _ hpos
    have hlow : 53 ≤ (1 <<< 53 * 10 ^ n).log2 := (Nat.le_log2 (by omega)).mpr hle
    have hhigh : (1 <<< 53 * 10 ^ n).log2 ≤ 1075 := by
      have hbits : ∀ m ≤ 307, 1 <<< 53 * 10 ^ m < 2 ^ (1075 + 1) := by decide +kernel
      exact log2_le_of_lt_two_pow (hbits n (by omega))
    rw [Decimal.powerOfTen, toModel_ofScientific (by decide) (by omega) (by omega)]
    refine isAtLeast_unpack_pack (isNormal_roundWithAccuracy _ _ _ _ ?_ ?_ ?_) ?_
      (isWithin_roundWithAccuracy _ _ _ _ ?_ ?_ ?_) <;> omega

theorem isFinite_neg {x : Float} (hx : x.isFinite = true) : (-x).isFinite = true := by
  have hwithin : IsWithin 971 x.toModel.unpack.neg := by
    have h := isFinite_iff_isWithin.mp hx
    cases hu : x.toModel.unpack with
    | infinity | notANumber => rw [hu] at h; exact h.elim
    | zero s => trivial
    | finite s m e hm => rw [hu] at h; exact h
  exact isFinite_iff_isWithin.mpr (isWithin_unpack_pack hwithin (by decide) (by decide))

/-- A number of 64 bits and what is left of it after divisions by powers of ten are in the range. -/
theorem isFinite_scaleDown {x : Float} (hx : IsWithin 63 x.toModel.unpack) (n : Nat) :
    (Decimal.scaleDown x n).isFinite = true := by
  have hlast : isAtLeast 1024 (Decimal.powerOfTen 308).toModel.unpack = true := by decide +kernel
  fun_induction Decimal.scaleDown x n with
  | case1 x n hn =>
    have hdiv := isWithin_div (c := 65) (isBelow_unpack hx) (isAtLeast_powerOfTen hn) (by decide) (by decide)
    exact isFinite_of_isWithin (isWithin_unpack_pack hdiv (by decide) (by decide))
  | case2 x n hn hzero => exact isFinite_of_isWithin hx
  | case3 x n hn hzero ih =>
    have hdiv := isWithin_div (c := 63) (isBelow_unpack hx) hlast (by decide) (by decide)
    exact ih (isWithin_unpack_pack hdiv (by decide) (by decide))

/-- A number of 64 bits times a power of ten is finite, if it is given at all. -/
theorem Decimal.isFinite_ofParts {significand : Nat} {exponent : Int} {x : Float}
    (h : Decimal.ofParts significand exponent = some x) : x.isFinite = true := by
  have hstart := isWithin_toFloat (UInt64.ofNat significand)
  unfold ofParts at h
  dsimp only at h
  split at h
  · cases h
    exact isFinite_scaleDown hstart _
  · split at h
    · -- With a power of ten that no float holds, only zero is given.
      split at h
      · cases h
        exact isFinite_of_isWithin hstart
      · cases h
    · split at h
      · cases h
      · rename_i hinf
        cases h
        have hpower := isFinite_of_isAtLeast (isAtLeast_powerOfTen (n := exponent.toNat) (by omega))
        exact isFinite_unpack_pack (isFinite_mul (isFinite_of_isWithin hstart) hpower)
          (Bool.not_eq_true _ ▸ hinf)

/-- The float nearest to a number that is not much above 64 bits is finite. -/
theorem isFinite_ofNat {n : Nat} (hn : n ≤ 2 ^ 64) : (Float.ofNat n).isFinite = true := by
  show (Float.ofScientific n false 0).toModel.unpack.isFinite = true
  by_cases htable : n < 2 ^ 53
  · -- A number of 53 bits is multiplied by the first power of ten in the table, which is one.
    have hone : IsWithin (-52) (Float.ofBits 0x3FF0000000000000).toModel.unpack := by
      show (-52 : Int) ≤ -52
      decide
    have hmul := isWithin_mul (c := 117) (isBelow_unpack (isWithin_toFloat n.toUInt64)) (isBelow_unpack hone)
      (by decide) (by decide)
    rw [Float.ofScientific, dif_pos ⟨htable, by decide⟩]
    exact isFinite_of_isWithin (isWithin_unpack_pack hmul (by decide) (by decide))
  · have hshift := log2_shiftLeft_le n 53
    have hlog : n.log2 ≤ 64 := log2_le_of_lt_two_pow (by omega)
    rw [toModel_ofScientific (by omega) (by omega) (by decide), Nat.pow_zero, Nat.mul_one]
    generalize n <<< 53 = shifted at hshift
    have hround := isWithin_roundWithAccuracy (c := 66) .positive shifted (-53) .exact (by decide)
      (by omega) (by decide)
    exact isFinite_of_isWithin (isWithin_unpack_pack hround (by decide) (by decide))

/-! ## Numbers that are read -/

namespace Json

/-- The digits that are taken make a number of 64 bits. -/
theorem takeDigits_lt {n : Nat} (hn : n < UInt64.size) (ds : List Nat) :
    (takeDigits n ds).1 < UInt64.size := by
  induction ds generalizing n with
  | nil => exact hn
  | cons d ds ih =>
    rw [takeDigits]
    split
    · rename_i hd
      exact ih hd
    · exact hn

/-- An integer that 64 bits hold with or without a sign, or a finite float. -/
def Number.IsBounded : Number → Prop
  | .int i => -(maxInt64 + 1) ≤ i ∧ i < UInt64.size
  | .real x => x.isFinite = true

theorem Numeral.isFinite_realValue {n : Numeral} {x : Float} (h : n.realValue = some x) :
    x.isFinite = true := by
  obtain ⟨y, hy, rfl⟩ := Option.map_eq_some_iff.mp h
  split
  · exact isFinite_neg (Decimal.isFinite_ofParts hy)
  · exact Decimal.isFinite_ofParts hy

/-- A number that is read is bounded. -/
theorem Numeral.isBounded_value {n : Numeral} {x : Number} (h : n.value = some x) : x.IsBounded := by
  have hreal (h : n.realValue.map Number.real = some x) : x.IsBounded := by
    obtain ⟨y, hy, rfl⟩ := Option.map_eq_some_iff.mp h
    exact n.isFinite_realValue hy
  have hsize := takeDigits_lt (n := 0) (by decide) n.whole
  unfold value at h
  split at h
  · dsimp only at h
    split at h
    · exact hreal h
    · split at h
      · cases h
        exact ⟨by rw [maxInt64]; omega, by omega⟩
      · split at h
        · exact hreal h
        · rename_i hrange
          cases h
          simp only [Bool.or_eq_true, decide_eq_true_eq, not_or] at hrange
          obtain ⟨-, hrange⟩ := hrange
          rw [maxInt64] at hrange
          exact ⟨by rw [maxInt64, Int.ofNat_eq_natCast]; omega, by rw [Int.ofNat_eq_natCast]; omega⟩
  · exact hreal h

/-- The float of an integer of 64 bits is finite. -/
theorem Number.isFinite_toFloat {x : Number} (h : x.IsBounded) : x.toFloat.isFinite = true := by
  cases x with
  | real x => exact h
  | int i =>
    obtain ⟨hlow, hhigh⟩ := h
    rw [maxInt64] at hlow
    cases i with
    | ofNat n =>
      have hsize : (UInt64.size : Int) = 18446744073709551616 := rfl
      exact isFinite_ofNat (by simp only [Int.ofNat_eq_natCast] at hhigh; omega)
    | negSucc n => exact isFinite_neg (isFinite_ofNat (by omega))

end Json

end Payroll
