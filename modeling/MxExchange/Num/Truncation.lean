import MxExchange.Num.BigNumber
import Mathlib.Data.Nat.Cast.Order.Field
import Mathlib.Data.Nat.Log

/-!
# Quotients of whole numbers, truncated

`Math.trunc(x / y)` on numbers that are whole. The quotient is a double, and
a double just below a whole number can round up to it; that does not happen
while numerator and denominator together stay within 53 bits
(`truncate_roundDouble_div`). Within that range the program computes the
integer quotient, and that is how it is modelled (`truncQuotient`), with the
infinities and `NaN` of a division by zero.
-/

namespace MxExchange.Num

/-- `Math.trunc(x / y)` -/
def truncQuotient : BigNumber → BigNumber → BigNumber
  | .fin a, .fin b =>
    if b = 0 then BigNumber.infinityOfSign (BigNumber.fin a).sgn
    else .fin (truncate (a / b) : ℤ)
  | x, y => x.dividedBy y

/-- On amounts of units it is their whole quotient. -/
theorem truncQuotient_natCast (a : ℕ) {b : ℕ} (h : 0 < b) :
    truncQuotient (.fin a) (.fin b) = .ofNat (a / b) := by
  have hb : (b : ℚ) ≠ 0 := by exact_mod_cast h.ne'
  have hnonneg : (0 : ℚ) ≤ a / b := by positivity
  rw [truncQuotient, if_neg hb, truncate_of_nonneg hnonneg, Rat.floor_natCast_div_natCast]
  rfl

/-! ## Doubles -/

/-- The double before a whole number, of the binade that the number closes. -/
theorem isDouble_before {m k : ℕ} (h0 : 0 < m) (hk : k ≤ 53) (h : m ≤ 2 ^ k) :
    IsDouble ((m : ℚ) - 2 ^ ((k : ℤ) - 53)) := by
  have hsplit : (2 : ℕ) ^ 53 = 2 ^ (53 - k) * 2 ^ k := by
    rw [← pow_add]
    congr 1
    omega
  have hle : m * 2 ^ (53 - k) ≤ 2 ^ 53 := by
    rw [hsplit, mul_comm]
    exact Nat.mul_le_mul_left _ h
  have hpos : 0 < m * 2 ^ (53 - k) := Nat.mul_pos h0 (by positivity)
  refine ⟨m * 2 ^ (53 - k) - 1, (k : ℤ) - 53, ?_, by omega, ?_⟩
  · rw [abs_lt]
    have hcast : ((m * 2 ^ (53 - k) : ℕ) : ℤ) ≤ 2 ^ 53 := by exact_mod_cast hle
    have hcast' : (0 : ℤ) < (m * 2 ^ (53 - k) : ℕ) := by exact_mod_cast hpos
    push_cast at hcast hcast'
    omega
  · have hunit : (2 : ℚ) ^ (53 - k) * 2 ^ ((k : ℤ) - 53) = 1 := by
      rw [← zpow_natCast, ← zpow_add₀ (by norm_num : (2 : ℚ) ≠ 0)]
      have hzero : ((53 - k : ℕ) : ℤ) + ((k : ℤ) - 53) = 0 := by omega
      rw [hzero, zpow_zero]
    push_cast
    rw [sub_mul, mul_assoc, hunit, mul_one, one_mul]

/-- The gap before a small number is less than the one a quotient with a
small denominator leaves. -/
theorem gap_mul_lt {b m : ℕ} (hb : 0 < b) (hm0 : 0 < m) (hmb : m * b ≤ 2 ^ 53) :
    (2 : ℚ) ^ ((Nat.clog 2 m : ℤ) - 53) * b < 2 := by
  have hpow : 2 ^ Nat.clog 2 m < 2 * m := by
    rcases Nat.lt_or_ge 1 m with hlt | hle1
    · have hpred := Nat.pow_pred_clog_lt_self (b := 2) (by omega) hlt
      have hclog : 0 < Nat.clog 2 m := Nat.clog_pos (by omega) hlt
      obtain ⟨k, hk'⟩ := Nat.exists_eq_succ_of_ne_zero hclog.ne'
      rw [hk', Nat.pred_succ] at hpred
      rw [hk', Nat.pow_succ]
      omega
    · obtain rfl : m = 1 := by omega
      simp
  have hprod : 2 ^ Nat.clog 2 m * b < 2 * 2 ^ 53 :=
    calc 2 ^ Nat.clog 2 m * b < 2 * m * b := Nat.mul_lt_mul_of_pos_right hpow hb
      _ = 2 * (m * b) := Nat.mul_assoc _ _ _
      _ ≤ 2 * 2 ^ 53 := Nat.mul_le_mul_left 2 hmb
  have hprodq : (2 : ℚ) ^ Nat.clog 2 m * b < 2 * 2 ^ 53 := by exact_mod_cast hprod
  rw [zpow_sub₀ (by norm_num : (2 : ℚ) ≠ 0), zpow_natCast, div_mul_eq_mul_div,
    div_lt_iff₀ (by norm_num)]
  exact_mod_cast hprodq

/-- A quotient below a whole number does not round up to it, as long as the
number times the denominator is small. -/
theorem roundDouble_div_lt {a b m : ℕ} (hb : 0 < b) (hmb : m * b ≤ 2 ^ 53) (h : a < m * b) :
    roundDouble ((a : ℚ) / b) < m := by
  have hbq : (0 : ℚ) < b := by exact_mod_cast hb
  have hm0 : 0 < m := by
    rcases Nat.eq_zero_or_pos m with rfl | hpos
    · omega
    · exact hpos
  have hm53 : m ≤ 2 ^ 53 := (Nat.le_mul_of_pos_right m hb).trans hmb
  have hk : Nat.clog 2 m ≤ 53 := (Nat.clog_le_iff_le_pow (by omega)).mpr hm53
  have hbefore := isDouble_before hm0 hk (Nat.le_pow_clog (by omega) m)
  have hunit := unit_pos ((Nat.clog 2 m : ℤ) - 53)
  have hgap := gap_mul_lt hb hm0 hmb
  have hq : (a : ℚ) / b ≤ m - 1 / b := by
    rw [div_le_iff₀ hbq, sub_mul, div_mul_cancel₀ _ hbq.ne']
    have hsucc : (a : ℚ) + 1 ≤ m * b := by exact_mod_cast h
    linarith
  have hinv : (0 : ℚ) < 1 / b := by positivity
  by_contra hge
  rcases le_or_gt ((a : ℚ) / b) (m - 2 ^ ((Nat.clog 2 m : ℤ) - 53)) with hle | hgt
  · have hmono := roundDouble_mono hle
    rw [roundDouble_of_isDouble hbefore] at hmono
    linarith
  · -- between the double before `m` and `m`, and nearer to the former
    have hnear := roundDouble_nearest ((a : ℚ) / b) hbefore
    rw [abs_of_nonpos (by linarith), abs_of_pos (by linarith)] at hnear
    have hwide : 2 / (b : ℚ) ≤ 2 ^ ((Nat.clog 2 m : ℤ) - 53) := by
      have htwo : 2 / (b : ℚ) = 1 / b + 1 / b := by ring
      linarith
    rw [div_le_iff₀ hbq] at hwide
    linarith

/-- Truncated, the double quotient of small numbers is the integer one. -/
theorem truncate_roundDouble_div {a b : ℕ} (hb : 0 < b) (hsmall : a + b ≤ 2 ^ 53) :
    truncate (roundDouble ((a : ℚ) / b)) = (a / b : ℕ) := by
  have hq : (0 : ℚ) ≤ (a : ℚ) / b := by positivity
  have hdiv : a / b * b ≤ a := Nat.div_mul_le_self a b
  have hnext : (a / b + 1) * b ≤ 2 ^ 53 := by
    rw [add_mul, one_mul]
    omega
  have hlt : roundDouble ((a : ℚ) / b) < (a / b + 1 : ℕ) :=
    roundDouble_div_lt hb hnext (Nat.lt_mul_of_div_lt (Nat.lt_succ_self _) hb)
  have hdouble : IsDouble (((a / b : ℕ) : ℤ) : ℚ) := by
    apply isDouble_intCast
    have hself : a / b ≤ a := Nat.div_le_self a b
    have hbound : a / b < 2 ^ 53 := by omega
    rw [Nat.abs_cast]
    exact_mod_cast hbound
  have hle : ((a / b : ℕ) : ℚ) ≤ roundDouble ((a : ℚ) / b) := by
    have hmono : roundDouble (((a / b : ℕ) : ℤ) : ℚ) ≤ roundDouble ((a : ℚ) / b) := by
      apply roundDouble_mono
      exact_mod_cast Nat.cast_div_le
    rw [roundDouble_of_isDouble hdouble] at hmono
    exact_mod_cast hmono
  rw [truncate_of_nonneg (roundDouble_nonneg hq), Int.floor_eq_iff]
  push_cast at hlt ⊢
  exact ⟨by exact_mod_cast hle, by exact_mod_cast hlt⟩

/-- So the model's quotient is the double one. -/
theorem truncQuotient_eq_double {a b : ℕ} (hb : 0 < b) (hsmall : a + b ≤ 2 ^ 53) :
    truncQuotient (.fin a) (.fin b) = .fin (truncate (roundDouble ((a : ℚ) / b))) := by
  rw [truncQuotient_natCast a hb, truncate_roundDouble_div hb hsmall, Int.cast_natCast]
  rfl

end MxExchange.Num
