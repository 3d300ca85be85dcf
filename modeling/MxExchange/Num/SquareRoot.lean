import MxExchange.Num.BigNumber
import Mathlib.Data.Nat.Sqrt

/-!
# Square roots of decimals

The root of a decimal, cut off at a number of decimal places. In units of the
last place it is a root of whole numbers (`sqrtUnits`), which is compared with
squares only (`le_sqrtUnits_iff`). Its whole part is that of the root itself:
the largest whole number whose square is not above the decimal
(`le_truncate_sqrtPlaces_iff`).
-/

namespace MxExchange.Num

variable {dp : ℕ} {q : ℚ}

/-- The root in units of the last decimal. -/
def sqrtUnits (dp : ℕ) (q : ℚ) : ℕ := Nat.sqrt ⌊q * 10 ^ (2 * dp)⌋.toNat

/-- `sqrt()`: the root with its decimals, the rest cut off. -/
def sqrtPlaces (dp : ℕ) (q : ℚ) : ℚ := (sqrtUnits dp q : ℚ) / 10 ^ dp

/-- `squareRoot` of the decimal library. -/
def BigNumber.sqrt : BigNumber → BigNumber
  | .nan => .nan
  | .infinity => .infinity
  | .negInfinity => .nan
  | .fin q => if q < 0 then .nan else .fin (sqrtPlaces BigNumber.DECIMAL_PLACES q)

/-- The root is the greatest number of units whose square fits. -/
theorem le_sqrtUnits_iff (hq : 0 ≤ q) {n : ℕ} :
    n ≤ sqrtUnits dp q ↔ (n : ℚ) ^ 2 ≤ q * 10 ^ (2 * dp) := by
  have hx : 0 ≤ q * 10 ^ (2 * dp) := by positivity
  rw [sqrtUnits, Nat.le_sqrt', Int.le_toNat (Int.floor_nonneg.mpr hx), Int.le_floor]
  push_cast
  exact Iff.rfl

theorem sqrtPlaces_nonneg (dp : ℕ) (q : ℚ) : 0 ≤ sqrtPlaces dp q := by
  unfold sqrtPlaces
  positivity

/-- The decimals of the root do not matter for its whole part. -/
theorem le_truncate_sqrtPlaces_iff (hq : 0 ≤ q) {n : ℕ} :
    (n : ℤ) ≤ truncate (sqrtPlaces dp q) ↔ (n : ℚ) ^ 2 ≤ q := by
  have hscale : (0 : ℚ) < 10 ^ dp := by positivity
  have hunits : (n : ℚ) ≤ sqrtPlaces dp q ↔ n * 10 ^ dp ≤ sqrtUnits dp q := by
    rw [sqrtPlaces, le_div_iff₀ hscale]
    exact_mod_cast Iff.rfl
  rw [le_truncate_iff (sqrtPlaces_nonneg _ _), Int.cast_natCast, hunits, le_sqrtUnits_iff hq]
  push_cast
  rw [mul_pow, ← pow_mul, mul_comm dp 2]
  exact mul_le_mul_iff_left₀ (by positivity)

/-- Of a whole number it is the integer root. -/
theorem truncate_sqrtPlaces_natCast (dp n : ℕ) : truncate (sqrtPlaces dp n) = Nat.sqrt n := by
  obtain ⟨m, hm⟩ := Int.eq_ofNat_of_zero_le (truncate_nonneg (sqrtPlaces_nonneg dp n))
  have hroot : ∀ k : ℕ, k ≤ m ↔ k ≤ Nat.sqrt n := by
    intro k
    have hk : (k : ℤ) ≤ truncate (sqrtPlaces dp n) ↔ (k : ℚ) ^ 2 ≤ n :=
      le_truncate_sqrtPlaces_iff (Nat.cast_nonneg n)
    rw [hm, Int.ofNat_le] at hk
    rw [hk, Nat.le_sqrt']
    exact_mod_cast Iff.rfl
  have hself := (hroot m).mp le_rfl
  have hother := (hroot (Nat.sqrt n)).mpr le_rfl
  omega

end MxExchange.Num
