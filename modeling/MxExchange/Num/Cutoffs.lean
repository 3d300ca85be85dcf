import MxExchange.Num.Binary64

/-!
# Cutoffs of a rounded difference

A value between `0` and `1` is cut off at a number of decimal places, taken from
one, and the difference compared with a double. Rounding loses nothing of the
order, so what comes out above the double are the values below a cutoff
(`lt_roundDouble_sub_iff`): as many last places as the double leaves
(`stepsBelow`).
-/

namespace MxExchange.Num

section Steps

variable {P : ℕ → Prop} [DecidablePred P] {bound k : ℕ}

/-- How many of the steps `0, 1, …, bound` satisfy the condition, until one does
not. -/
def stepsBelow (P : ℕ → Prop) [DecidablePred P] (bound : ℕ) : ℕ :=
  Nat.find (p := fun k => bound < k ∨ ¬P k) ⟨bound + 1, Or.inl (Nat.lt_succ_self bound)⟩

/-- The search counts the steps that pass, for a test that fails from some step
on. -/
theorem lt_stepsBelow_iff (hP : ∀ i j, i ≤ j → P j → P i) (hk : k ≤ bound) :
    k < stepsBelow P bound ↔ P k := by
  rw [stepsBelow, Nat.lt_find_iff]
  constructor
  · intro h
    by_contra hnot
    exact h k (Nat.le_refl k) (Or.inr hnot)
  · rintro hPk i hi (hlarge | hnot)
    · omega
    · exact hnot (hP i k hi hPk)

end Steps

/-! ## A share taken from one -/

section Cutoff

variable {dp : ℕ} {M : Double} {q : ℚ}

/-- So many steps of the last decimal place can be taken from one. -/
def stepsAbove (dp : ℕ) (M : Double) : ℕ :=
  stepsBelow (fun k => M.val < roundDouble (1 - k / 10 ^ dp)) (10 ^ dp)

/-- The cutoff: so many units of the last decimal. -/
def cutoffAbove (dp : ℕ) (M : Double) : ℚ := stepsAbove dp M / 10 ^ dp

/-- Steps that pass the test come before those that do not. -/
theorem lt_roundDouble_step_mono (dp : ℕ) (M : Double) (i j : ℕ) (hij : i ≤ j)
    (h : M.val < roundDouble (1 - j / 10 ^ dp)) : M.val < roundDouble (1 - i / 10 ^ dp) := by
  have hstep : (i : ℚ) / 10 ^ dp ≤ j / 10 ^ dp := by
    have hcast : (i : ℚ) ≤ j := by exact_mod_cast hij
    gcongr
  exact h.trans_le (roundDouble_mono (by linarith))

/-- What is above the double after rounding and taking from one is below the
cutoff. -/
theorem lt_roundDouble_sub_iff (h0 : 0 ≤ q) (h1 : q ≤ 1) :
    M.val < roundDouble (1 - truncatePlaces dp q) ↔ q < cutoffAbove dp M := by
  have hscale : (0 : ℚ) < 10 ^ dp := by positivity
  have hscaled : 0 ≤ q * 10 ^ dp := mul_nonneg h0 hscale.le
  obtain ⟨m, hm⟩ := Int.eq_ofNat_of_zero_le (truncate_nonneg hscaled)
  have hbound : m ≤ 10 ^ dp := by
    have hle := (truncate_le hscaled).trans (mul_le_mul_of_nonneg_right h1 hscale.le)
    rw [hm, one_mul] at hle
    exact_mod_cast hle
  have hround : truncatePlaces dp q = (m : ℚ) / 10 ^ dp := by
    rw [truncatePlaces, hm, Int.cast_natCast]
  rw [hround, ← lt_stepsBelow_iff (lt_roundDouble_step_mono dp M) hbound, cutoffAbove,
    lt_div_iff₀ hscale, ← not_le, ← not_le, ← stepsAbove]
  refine not_congr ?_
  rw [← Int.ofNat_le, ← hm]
  exact le_truncate_iff hscaled

end Cutoff

end MxExchange.Num
