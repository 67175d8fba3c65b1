import Mathlib.Algebra.Order.Group.Unbundled.Int
import Mathlib.Order.Compare
import Payroll.Proofs.Filter
import Payroll.Proofs.Real
/-!
# The order of the values in a column

A column of a table of versions holds texts, integers, or floats that are numbers or else null. In each of
these the order of values is that of some linear order, so the column can be sorted by. That is not so of
all values together, since what is not a number stands in no order to anything.

## Key results

- `transCmp_order`: the values of a column are in an order
-/

namespace Payroll

open Float.Model (UnpackedFloat)
open Sql (Value)

/-! ## Floats -/

/-- Where a float stands among the others: what is not a number, then the numbers below zero, zeros and
the numbers above zero. Those of one sign stand by their exponents and then by their mantissas, below
zero the other way round. -/
private def rank : UnpackedFloat → Int × Int × Int
  | .notANumber => (-3, 0, 0)
  | .infinity .negative => (-2, 0, 0)
  | .finite .negative mantissa exponent _ => (-1, -exponent, -mantissa)
  | .zero _ => (0, 0, 0)
  | .finite .positive mantissa exponent _ => (1, exponent, mantissa)
  | .infinity .positive => (2, 0, 0)

/-- The order of ranks, the first part that differs deciding. -/
private def compareRanks : Int × Int × Int → Int × Int × Int → Ordering :=
  compareLex (compareOn (·.1)) (compareLex (compareOn (·.2.1)) (compareOn (·.2.2)))

private theorem transCmp_compareRanks : Std.TransCmp compareRanks :=
  inferInstanceAs (Std.TransCmp (compareLex _ (compareLex _ _)))

private theorem compare_natCast (m n : Nat) : compare (m : Int) n = compare m n := by
  rw [← cmp_eq_compare, ← cmp_eq_compare]
  exact Int.natCast_strictMono.cmp_map_eq m n

private theorem compare_neg (m n : Int) : compare (-m) (-n) = (compare m n).swap := by
  rw [← cmp_eq_compare, ← cmp_eq_compare, cmp_swap]
  exact StrictAnti.cmp_map_eq (fun _ _ => Int.neg_lt_neg) m n

/-- Numbers are in the order of their ranks. -/
private theorem compare_eq_compareRanks {u v : UnpackedFloat} (hu : u ≠ .notANumber)
    (hv : v ≠ .notANumber) : u.compare v = some (compareRanks (rank u) (rank v)) := by
  cases u with
  | notANumber => exact absurd rfl hu
  | infinity s =>
    cases v with
    | notANumber => exact absurd rfl hv
    | infinity s' => cases s <;> cases s' <;> rfl
    | zero s' => cases s <;> rfl
    | finite s' m' e' => cases s <;> cases s' <;> rfl
  | zero s =>
    cases v with
    | notANumber => exact absurd rfl hv
    | infinity s' => cases s' <;> rfl
    | zero s' => rfl
    | finite s' m' e' => cases s' <;> rfl
  | finite s m e =>
    cases v with
    | notANumber => exact absurd rfl hv
    | infinity s' => cases s <;> cases s' <;> rfl
    | zero s' => cases s <;> rfl
    | finite s' m' e' =>
      -- Of two numbers with one sign, exponents and mantissas decide.
      cases s with
      | positive =>
        cases s' with
        | positive =>
          show some ((compare e e').then (compare m m')) =
            some ((compare e e').then (compare (m : Int) m'))
          rw [compare_natCast]
        | negative => rfl
      | negative =>
        cases s' with
        | positive => rfl
        | negative =>
          show some ((compare e e').then (compare m m')).swap =
            some ((compare (-e) (-e')).then (compare (-(m : Int)) (-m')))
          rw [compare_neg, compare_neg, compare_natCast, Ordering.swap_then]

/-- The order of floats that are numbers is that of their ranks. -/
private theorem compareReal_eq {x y : Float} (hx : x.isNaN = false) (hy : y.isNaN = false) :
    Value.compareReal x y = compareRanks (rank x.toModel.unpack) (rank y.toModel.unpack) := by
  have hcompare : x.toModel.unpack.compare y.toModel.unpack =
      some (compareRanks (rank x.toModel.unpack) (rank y.toModel.unpack)) := by
    refine compare_eq_compareRanks (fun hnan => ?_) fun hnan => ?_
    · replace hx : x.toModel.unpack.isNaN = false := hx
      rw [hnan] at hx
      cases hx
    · replace hy : y.toModel.unpack.isNaN = false := hy
      rw [hnan] at hy
      cases hy
  generalize compareRanks (rank x.toModel.unpack) (rank y.toModel.unpack) = o at hcompare ⊢
  have hlt : x < y ↔ o = .lt := by
    have hmodel : x.toModel < y.toModel ↔ o = .lt := by
      show (x.toModel.unpack.compare y.toModel.unpack == some .lt) = true ↔ o = .lt
      rw [hcompare]
      simp
    exact Iff.trans ⟨of_decide_eq_true, decide_eq_true⟩ hmodel
  have heq : (x == y) = (o == .eq) := by
    show (x.toModel.unpack.compare y.toModel.unpack == some .eq) = _
    rw [hcompare]
    rfl
  rw [Value.compareReal]
  cases o <;> simp [hlt, heq]

private theorem unpack_of_isNaN {x : Float} (hx : x.isNaN = true) :
    x.toModel.unpack = .notANumber := by
  replace hx : x.toModel.unpack.isNaN = true := hx
  cases hu : x.toModel.unpack with
  | notANumber => rfl
  | infinity | zero | finite =>
    rw [hu] at hx
    cases hx

/-- A number stands after what is not a number. -/
private theorem compareRanks_notANumber {u : UnpackedFloat} (hu : u.isNaN = false) :
    compareRanks (rank .notANumber) (rank u) = .lt ∧ compareRanks (rank u) (rank .notANumber) = .gt := by
  cases u with
  | notANumber => cases hu
  | zero s => exact ⟨rfl, rfl⟩
  | infinity s => cases s <;> exact ⟨rfl, rfl⟩
  | finite s m e => cases s <;> exact ⟨rfl, rfl⟩

/-- As values of a column, floats are in the order of their ranks. -/
private theorem order_realCell (x y : Float) :
    (realCell x).order (realCell y) = compareRanks (rank x.toModel.unpack) (rank y.toModel.unpack) := by
  -- What is not a number is null in its column.
  have hnull {z : Float} (hz : z.isNaN = true) : realCell z = .null := if_pos hz
  cases hx : x.isNaN with
  | true =>
    rw [hnull hx, unpack_of_isNaN hx]
    cases hy : y.isNaN with
    | true =>
      rw [hnull hy, unpack_of_isNaN hy]
      rfl
    | false =>
      rw [realCell_eq hy, (compareRanks_notANumber hy).1]
      rfl
  | false =>
    rw [realCell_eq hx]
    cases hy : y.isNaN with
    | true =>
      rw [hnull hy, unpack_of_isNaN hy, (compareRanks_notANumber hx).2]
      rfl
    | false =>
      rw [realCell_eq hy]
      exact compareReal_eq hx hy

/-! ## Columns -/

private theorem transCmp_comap {β γ : Type} (cmp : γ → γ → Ordering) [Std.TransCmp cmp] (f : β → γ) :
    Std.TransCmp fun a b => cmp (f a) (f b) where
  eq_swap := Std.OrientedCmp.eq_swap
  isLE_trans := Std.TransCmp.isLE_trans

/-- The values of a column are in an order, whatever they are values of. -/
theorem transCmp_order {β : Type} {g : β → Value} {c : Column} (hc : c.affinity ≠ .none)
    (hg : ∀ b, c.Admits (g b)) : Std.TransCmp fun a b => (g a).order (g b) := by
  cases haffinity : c.affinity with
  | none => exact absurd haffinity hc
  | text =>
    choose text htext using fun b => (hg b).1 haffinity
    simp only [htext]
    exact transCmp_comap (compare : String → String → Ordering) text
  | integer =>
    choose int hint using fun b => (hg b).2.1 haffinity
    simp only [hint]
    exact transCmp_comap (compare : Int → Int → Ordering) int
  | real =>
    choose x hx using fun b => (hg b).2.2 haffinity
    simp only [hx, order_realCell]
    have := transCmp_compareRanks
    exact transCmp_comap compareRanks fun b => rank (x b).toModel.unpack

end Payroll
