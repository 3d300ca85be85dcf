import MxExchange.Num.Rounding

/-!
# Sums of rounded values

Values are cut off at a decimal place, in steps of one unit of it: two values
come out alike if they are in the same step (`sameStep_iff`). A sum of values
that are cut off is the sum, cut off, as long as what is left off does not make
a unit of its own (`truncatePlaces_plus_eq_iff`).
-/

namespace MxExchange.Num

section RoundedSums

variable {dp : ℕ} {u v : ℚ}

/-- The values of which `k` units of the last place are left. -/
def InPlace (dp : ℕ) (k : ℤ) (u : ℚ) : Prop := k / 10 ^ dp ≤ u ∧ u < (k + 1) / 10 ^ dp

/-- Two values that have the same decimals. -/
def SameStep (dp : ℕ) (u v : ℚ) : Prop := ∃ k : ℤ, InPlace dp k u ∧ InPlace dp k v

/-- What is left off, in units of the last place. -/
def leftOff (dp : ℕ) (u : ℚ) : ℚ := Int.fract (u * 10 ^ dp)

/-- The rests of two values make no unit of their own. -/
def NoCarry (dp : ℕ) (u v : ℚ) : Prop := leftOff dp u + leftOff dp v < 1

theorem inPlace_truncate (h : 0 ≤ u) : InPlace dp (truncate (u * 10 ^ dp)) u :=
  (truncatePlaces_eq_iff h).mp rfl

theorem SameStep.refl (h : 0 ≤ u) : SameStep dp u u :=
  ⟨_, inPlace_truncate h, inPlace_truncate h⟩

/-- Truncating cannot tell them apart, and can any others. -/
theorem sameStep_iff (hu : 0 ≤ u) (hv : 0 ≤ v) :
    SameStep dp u v ↔ truncatePlaces dp u = truncatePlaces dp v := by
  constructor
  · rintro ⟨k, hku, hkv⟩
    rw [(truncatePlaces_eq_iff hu).mpr hku, (truncatePlaces_eq_iff hv).mpr hkv]
  · intro heq
    exact ⟨_, inPlace_truncate hu, (truncatePlaces_eq_iff hv).mp heq.symm⟩

/-- The rest and the whole part are the value. -/
theorem leftOff_add_truncate (dp : ℕ) (h : 0 ≤ u) :
    leftOff dp u + truncate (u * 10 ^ dp) = u * 10 ^ dp := by
  rw [leftOff, truncate_of_nonneg (by positivity)]
  exact Int.fract_add_floor _

/-- Truncating leaves off, and never adds. -/
theorem leftOff_nonneg (dp : ℕ) (u : ℚ) : 0 ≤ leftOff dp u := Int.fract_nonneg _

/-- Truncated parts add up to the truncated sum if what they leave off makes no
step. -/
theorem truncatePlaces_plus_eq_iff (hu : 0 ≤ u) (hv : 0 ≤ v) :
    truncatePlaces dp u + truncatePlaces dp v = truncatePlaces dp (u + v) ↔ NoCarry dp u v := by
  have hscale : (0 : ℚ) < 10 ^ dp := by positivity
  have hsum : truncatePlaces dp u + truncatePlaces dp v =
      ((truncate (u * 10 ^ dp) + truncate (v * 10 ^ dp) : ℤ) : ℚ) / 10 ^ dp := by
    rw [truncatePlaces, truncatePlaces, Int.cast_add, add_div]
  have hrestu := leftOff_add_truncate dp hu
  have hrestv := leftOff_add_truncate dp hv
  have hposu := leftOff_nonneg dp u
  have hposv := leftOff_nonneg dp v
  rw [hsum, eq_comm, truncatePlaces_eq_iff (add_nonneg hu hv), div_le_iff₀ hscale,
    lt_div_iff₀ hscale, NoCarry, Int.cast_add, add_mul]
  constructor
  · rintro ⟨-, hupper⟩
    linarith
  · intro hless
    exact ⟨by linarith, by linarith⟩

end RoundedSums

end MxExchange.Num
