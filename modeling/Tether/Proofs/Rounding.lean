import Mathlib.Algebra.Order.Floor.Div
import Mathlib.Data.Rat.Floor
import Mathlib.Tactic.NormNum.Basic
import Tether.Number.Binary64

/-!
# Rounding up to a count

The bits of a finite number stand for a rational one (`Binary64.value`). To round it up is to take
the least natural number that is not below it, and a count ends at the largest word
(`Binary64.roundUp`). The program does so on the bits (`Binary64.ceilCount`), which comes to the
same (`Binary64.ceilCount_eq`).
-/

namespace Tether.Binary64

/-- The rational number that a finite number is. -/
def value (x : Binary64) : ℚ :=
  (if x.negative then -1 else 1) * (x.mantissa * (2 : ℚ) ^ x.scale)

/-- A number rounded up to a count. What is not a number gives zero, and an infinity the count at
its end. -/
def roundUp (x : Binary64) : ℕ :=
  if x.isNaN then 0
  else if x.isInfinite then (if x.negative then 0 else maxCount)
  else min ⌈x.value⌉₊ maxCount

/-- A quotient of natural numbers, rounded up. -/
theorem ceil_natCast_div {a b : ℕ} (hb : 0 < b) : ⌈(a : ℚ) / b⌉₊ = (a + b - 1) / b := by
  rw [← Nat.ceilDiv_eq_add_pred_div]
  refine eq_of_forall_ge_iff fun n => ?_
  rw [Nat.ceil_le, div_le_iff₀ (Nat.cast_pos.mpr hb), ceilDiv_le_iff_le_mul hb, ← Nat.cast_mul,
    Nat.cast_le, Nat.mul_comm]

/-- Nothing is left of a negative number. -/
theorem ceil_value_of_negative {x : Binary64} (h : x.negative = true) : ⌈x.value⌉₊ = 0 := by
  have hnonneg : 0 ≤ (x.mantissa : ℚ) * (2 : ℚ) ^ x.scale :=
    mul_nonneg (Nat.cast_nonneg _) (zpow_nonneg (by norm_num) _)
  rw [Nat.ceil_eq_zero, value, if_pos h, neg_one_mul]
  exact neg_nonpos.mpr hnonneg

/-- Of other numbers the mantissa is multiplied by a power of two, or divided by it. -/
theorem ceil_value_of_nonnegative {x : Binary64} (h : x.negative = false) : ⌈x.value⌉₊ =
    if 0 ≤ x.scale then x.mantissa * 2 ^ x.scale.toNat
    else (x.mantissa + 2 ^ (-x.scale).toNat - 1) / 2 ^ (-x.scale).toNat := by
  rw [value, if_neg (by simp [h]), one_mul]
  split
  · rename_i hscale
    obtain ⟨k, hk⟩ := Int.eq_ofNat_of_zero_le hscale
    rw [hk, Int.toNat_natCast, zpow_natCast]
    exact_mod_cast Nat.ceil_natCast (R := ℚ) (x.mantissa * 2 ^ k)
  · rename_i hscale
    obtain ⟨k, hk⟩ := Int.eq_ofNat_of_zero_le (show 0 ≤ -x.scale by omega)
    rw [← ceil_natCast_div (Nat.two_pow_pos _), hk, Int.toNat_natCast,
      show x.scale = -(k : ℤ) by omega, zpow_neg, zpow_natCast, ← div_eq_mul_inv]
    push_cast
    rfl

/-- The program rounds up. -/
theorem ceilCount_eq (x : Binary64) : x.ceilCount = x.roundUp := by
  unfold ceilCount roundUp
  cases hnan : x.isNaN with
  | true => rfl
  | false =>
    cases hnegative : x.negative with
    | true => cases x.isInfinite <;> simp [ceil_value_of_negative hnegative]
    | false => simp only [ceil_value_of_nonnegative hnegative, Bool.or_self, Bool.false_eq_true,
        ↓reduceIte]

-- One and a half gives two, minus one and a half nothing.
example : roundUp ⟨0x3ff8000000000000⟩ = 2 ∧ roundUp ⟨0xbff8000000000000⟩ = 0 := by
  rw [← ceilCount_eq, ← ceilCount_eq]
  decide

end Tether.Binary64
