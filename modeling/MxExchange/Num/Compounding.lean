import MxExchange.Num.Valleys

/-!
# Compound interest

Interest `x` paid in `n` parts, each of them on what has been paid before,
multiplies a capital by `(1 + x / n) ^ n`. What one more part adds may at
first grow with the number of parts, but once it has shrunk it does not grow
again (`noValley_gain`): among real numbers of parts, what decides is whether
`t * ((t + x) * slope x t) ^ 2` is below `x ^ 2`, and it does not get above it
again once it is (`spread_le`).
-/

namespace MxExchange.Num.Compounding

/-- A capital of one after `n` periods, the interest `x` split into `n` parts.
-/
def growth {K : Type} [Field K] (x : K) (n : ℕ) : K := (1 + x / n) ^ n

/-- What one more part adds. -/
def gain {K : Type} [Field K] (x : K) (n : ℕ) : K := growth x (n + 1) - growth x n

noncomputable section

/-- The logarithm of what one of `t` parts multiplies the capital by. -/
def rate (x t : ℝ) : ℝ := Real.log (t + x) - Real.log t

/-- Growth for any positive number of parts, through the logarithm of `rate`. -/
def growthAt (x t : ℝ) : ℝ := Real.exp (t * rate x t)

/-- The derivative of the logarithm of `growthAt`. -/
def slope (x t : ℝ) : ℝ := rate x t - x / (t + x)

/-- The second derivative, but for the factor `growthAt`. -/
def bend (x t : ℝ) : ℝ := slope x t ^ 2 - x ^ 2 / (t * (t + x) ^ 2)

/-- What the bend compares with `x ^ 2` (`bend_eq`). -/
def spread (x t : ℝ) : ℝ := t * ((t + x) * slope x t) ^ 2

/-- How far the logarithm is above a quotient that it crosses once. -/
def excess (u : ℝ) : ℝ := Real.log (1 + u) - 3 * u / (3 + u)

end

/-! ## The logarithm and the quotient -/

/-- `excess` falls below three and rises above it. -/
theorem hasDerivAt_excess {u : ℝ} (hu : 0 ≤ u) :
    HasDerivAt excess (u * (u - 3) / ((3 + u) ^ 2 * (1 + u))) u := by
  have hone : 1 + u ≠ 0 := by positivity
  have hthree : 3 + u ≠ 0 := by positivity
  have hlog : HasDerivAt (fun u => Real.log (1 + u)) (1 / (1 + u)) u :=
    ((hasDerivAt_id u).const_add 1).log hone
  have hquotient : HasDerivAt (fun u => 3 * u / (3 + u))
      ((3 * 1 * (3 + u) - 3 * u * 1) / (3 + u) ^ 2) u :=
    ((hasDerivAt_id u).const_mul 3).div ((hasDerivAt_id u).const_add 3) hthree
  refine (hlog.sub hquotient).congr_deriv ?_
  field_simp
  ring

/-- It starts at zero and falls, so it is negative up to three. -/
theorem excess_nonpos {u : ℝ} (hu : 0 ≤ u) (hthree : u ≤ 3) : excess u ≤ 0 := by
  have hanti : AntitoneOn excess (Set.Icc 0 3) := by
    refine antitoneOn_of_hasDerivWithinAt_nonpos (convex_Icc 0 3)
      (fun v hv => (hasDerivAt_excess hv.1).continuousAt.continuousWithinAt)
      (fun v hv => (hasDerivAt_excess (interior_subset hv).1).hasDerivWithinAt) fun v hv => ?_
    obtain ⟨hv, hvthree⟩ := interior_subset hv
    -- the derivative has the sign of `v - 3`
    refine div_nonpos_of_nonpos_of_nonneg ?_ (by positivity)
    exact mul_nonpos_of_nonneg_of_nonpos hv (sub_nonpos.mpr hvthree)
  have hzero : excess 0 = 0 := by simp [excess]
  rw [← hzero]
  exact hanti ⟨le_rfl, by norm_num⟩ ⟨hu, hthree⟩ hu

/-- From three on it rises. -/
theorem excess_le_excess {u v : ℝ} (hu : 3 ≤ u) (huv : u ≤ v) : excess u ≤ excess v := by
  have hpos : ∀ {w : ℝ}, w ∈ Set.Ici (3 : ℝ) → 0 ≤ w := fun hw => le_trans (by norm_num) hw
  have hmono : MonotoneOn excess (Set.Ici 3) := by
    refine monotoneOn_of_hasDerivWithinAt_nonneg (convex_Ici 3)
      (fun w hw => (hasDerivAt_excess (hpos hw)).continuousAt.continuousWithinAt)
      (fun w hw => (hasDerivAt_excess (hpos (interior_subset hw))).hasDerivWithinAt) fun w hw => ?_
    have hw' : (3 : ℝ) ≤ w := interior_subset hw
    have hw0 : 0 ≤ w := hpos hw'
    exact div_nonneg (mul_nonneg hw0 (sub_nonneg.mpr hw')) (by positivity)
  exact hmono hu (hu.trans huv) huv

/-! ## Derivatives -/

section Derivatives

variable {x t : ℝ}

/-- The logarithm of the growth of one part. -/
theorem hasDerivAt_rate (hx : 0 ≤ x) (ht : 0 < t) :
    HasDerivAt (rate x) (1 / (t + x) - 1 / t) t := by
  have hsum : t + x ≠ 0 := by positivity
  exact (((hasDerivAt_id t).add_const x).log hsum).sub ((hasDerivAt_id t).log ht.ne')

/-- Growth changes by its slope, relative to itself. -/
theorem hasDerivAt_growthAt (hx : 0 ≤ x) (ht : 0 < t) :
    HasDerivAt (growthAt x) (growthAt x t * slope x t) t := by
  have hsum : t + x ≠ 0 := by positivity
  have hexponent : HasDerivAt (fun t => t * rate x t)
      (1 * rate x t + t * (1 / (t + x) - 1 / t)) t :=
    (hasDerivAt_id t).mul (hasDerivAt_rate hx ht)
  refine hexponent.exp.congr_deriv ?_
  unfold growthAt slope
  field_simp
  ring

/-- The slope falls. -/
theorem hasDerivAt_slope (hx : 0 ≤ x) (ht : 0 < t) :
    HasDerivAt (slope x) (-x ^ 2 / (t * (t + x) ^ 2)) t := by
  have hsum : t + x ≠ 0 := by positivity
  have hquotient : HasDerivAt (fun t => x / (t + x)) ((0 * (t + x) - x * 1) / (t + x) ^ 2) t :=
    (hasDerivAt_const t x).div ((hasDerivAt_id t).add_const x) hsum
  refine ((hasDerivAt_rate hx ht).sub hquotient).congr_deriv ?_
  field_simp
  ring

/-- The second derivative of the growth is `bend`, relative to the growth. -/
theorem hasDerivAt_growthAt_slope (hx : 0 ≤ x) (ht : 0 < t) :
    HasDerivAt (fun t => growthAt x t * slope x t) (growthAt x t * bend x t) t := by
  refine ((hasDerivAt_growthAt hx ht).mul (hasDerivAt_slope hx ht)).congr_deriv ?_
  unfold bend
  ring

/-- The difference of logarithms is the logarithm of a quotient. -/
theorem rate_eq (hx : 0 ≤ x) (ht : 0 < t) : rate x t = Real.log (1 + x / t) := by
  have hsum : t + x ≠ 0 := by positivity
  unfold rate
  rw [← Real.log_div hsum ht.ne', add_div, div_self ht.ne']

/-- The derivative of the spread has the sign of `excess`. -/
theorem hasDerivAt_spread (hx : 0 ≤ x) (ht : 0 < t) :
    HasDerivAt (spread x) ((t + x) * slope x t * ((3 * t + x) * excess (x / t))) t := by
  have hsum : t + x ≠ 0 := by positivity
  have hthree : 3 * t + x ≠ 0 := by positivity
  have hinner : HasDerivAt (fun t => (t + x) * slope x t)
      (1 * slope x t + (t + x) * (-x ^ 2 / (t * (t + x) ^ 2))) t :=
    ((hasDerivAt_id t).add_const x).mul (hasDerivAt_slope hx ht)
  have hsquare : HasDerivAt (fun t => ((t + x) * slope x t) ^ 2)
      (2 * ((t + x) * slope x t) ^ 1 *
        (1 * slope x t + (t + x) * (-x ^ 2 / (t * (t + x) ^ 2)))) t :=
    hinner.pow 2
  have hproduct : HasDerivAt (spread x)
      (1 * ((t + x) * slope x t) ^ 2 + t * (2 * ((t + x) * slope x t) ^ 1 *
        (1 * slope x t + (t + x) * (-x ^ 2 / (t * (t + x) ^ 2))))) t :=
    (hasDerivAt_id t).mul hsquare
  -- in the derivative the logarithm is left over, with the quotient that `excess` takes
  -- off
  refine hproduct.congr_deriv ?_
  have hquotient : 3 * (x / t) / (3 + x / t) = 3 * x / (3 * t + x) := by
    field_simp
  unfold excess
  rw [hquotient, ← rate_eq hx ht]
  unfold slope
  field_simp
  ring

/-- Growth never falls with the number of parts. -/
theorem slope_nonneg (hx : 0 ≤ x) (ht : 0 < t) : 0 ≤ slope x t := by
  have hsum : 0 < t + x := by positivity
  have hpos : 0 < 1 + x / t := by positivity
  -- a logarithm is no less than the quotient that the slope takes off
  have hlog := Real.one_sub_inv_le_log_of_pos hpos
  have hinv : 1 - (1 + x / t)⁻¹ = x / (t + x) := by
    field_simp
    ring
  unfold slope
  rw [rate_eq hx ht, ← hinv]
  exact sub_nonneg.mpr hlog

end Derivatives

/-! ## How the growth bends -/

section Bend

variable {x : ℝ}

/-- The bend is negative where the spread is below `x ^ 2`. -/
theorem bend_eq {t : ℝ} (hx : 0 ≤ x) (ht : 0 < t) :
    bend x t = (spread x t - x ^ 2) / (t * (t + x) ^ 2) := by
  have hsum : t + x ≠ 0 := by positivity
  unfold bend spread
  field_simp

theorem le_slope_one (hthree : 3 ≤ x) (hexcess : 0 ≤ excess x) : x ≤ (1 + x) * slope x 1 := by
  have hx : 0 ≤ x := le_trans (by norm_num) hthree
  have hsum : 1 + x ≠ 0 := by positivity
  have hprod : (1 + x) * slope x 1 = (1 + x) * Real.log (1 + x) - x := by
    unfold slope
    rw [rate_eq hx one_pos, div_one]
    field_simp
  -- past the turning point the logarithm is no less than the quotient of `excess`
  have hquotient : 2 * x ≤ (1 + x) * (3 * x / (3 + x)) := by
    rw [← mul_div_assoc, le_div_iff₀ (by positivity)]
    nlinarith
  have hlog : (1 + x) * (3 * x / (3 + x)) ≤ (1 + x) * Real.log (1 + x) :=
    mul_le_mul_of_nonneg_left (sub_nonneg.mp hexcess) (by positivity)
  linarith

/-- An interest past the turning point of `excess` begins with the spread above
its limit. -/
theorem spread_one_ge (hthree : 3 ≤ x) (hexcess : 0 ≤ excess x) : x ^ 2 ≤ spread x 1 := by
  unfold spread
  rw [one_mul]
  exact pow_le_pow_left₀ (le_trans (by norm_num) hthree) (le_slope_one hthree hexcess) 2

/-- The spread rises as long as the parts are so few that the excess is
positive. -/
theorem spread_le_spread (hx : 0 ≤ x) {s r : ℝ} (hs : 1 ≤ s) (hsr : s ≤ r)
    (hexcess : ∀ t, 1 ≤ t → t ≤ r → 0 ≤ excess (x / t)) : spread x 1 ≤ spread x s := by
  have hpos : ∀ {t : ℝ}, t ∈ Set.Icc 1 r → 0 < t := fun ht => one_pos.trans_le ht.1
  have hmono : MonotoneOn (spread x) (Set.Icc 1 r) := by
    refine monotoneOn_of_hasDerivWithinAt_nonneg (convex_Icc 1 r)
      (fun t ht => (hasDerivAt_spread hx (hpos ht)).continuousAt.continuousWithinAt)
      (fun t ht => (hasDerivAt_spread hx (hpos (interior_subset ht))).hasDerivWithinAt)
      fun t ht => ?_
    have ht' := interior_subset ht
    have ht0 : 0 < t := hpos ht'
    have hslope := slope_nonneg hx ht0
    have hrises := hexcess t ht'.1 ht'.2
    positivity
  exact hmono ⟨le_rfl, hs.trans hsr⟩ ⟨hs, hsr⟩ hs

/-- Before a place where the spread rises it was never below the square. -/
theorem sq_le_spread (hx : 0 ≤ x) {s r : ℝ} (hs : 1 ≤ s) (hsr : s ≤ r)
    (hrises : 0 < excess (x / r)) : x ^ 2 ≤ spread x s := by
  have hr : 1 ≤ r := hs.trans hsr
  -- the excess is positive beyond 3 only, and it grows there
  have hthree : 3 < x / r := by
    by_contra hle
    have hquotient : 0 ≤ x / r := div_nonneg hx (zero_le_one.trans hr)
    exact absurd (excess_nonpos hquotient (not_lt.mp hle)) (not_le.mpr hrises)
  have hearlier : ∀ t, 1 ≤ t → t ≤ r → 0 ≤ excess (x / t) := fun t ht htr =>
    hrises.le.trans (excess_le_excess hthree.le
      (div_le_div_of_nonneg_left hx (one_pos.trans_le ht) htr))
  have hstart := hearlier 1 le_rfl hr
  rw [div_one] at hstart
  have hxr : x / r ≤ x := div_le_self hx hr
  calc x ^ 2 ≤ spread x 1 := spread_one_ge (hthree.le.trans hxr) hstart
    _ ≤ spread x s := spread_le_spread hx hs hsr hearlier

/-- Once the spread is below the square it never gets above it again. -/
theorem spread_le (hx : 0 ≤ x) {s t : ℝ} (hs : 1 ≤ s) (hst : s < t) (hlt : spread x s < x ^ 2) :
    spread x t ≤ x ^ 2 := by
  by_contra habove
  rw [not_le] at habove
  -- to get above it the spread would have to rise somewhere in between
  have hderiv : ∀ t ∈ Set.Ici (1 : ℝ),
      HasDerivAt (spread x) ((t + x) * slope x t * ((3 * t + x) * excess (x / t))) t :=
    fun t ht => hasDerivAt_spread hx (one_pos.trans_le ht)
  obtain ⟨r, hsr, -, hpos⟩ := exists_deriv_pos hderiv hs hst (hlt.trans habove)
  have hr : 0 < r := by linarith
  have hrises : 0 < excess (x / r) := by
    have hslope := slope_nonneg hx hr
    have hinner := pos_of_mul_pos_right hpos (by positivity)
    exact pos_of_mul_pos_right hinner (by positivity)
  exact absurd hlt (not_lt.mpr (sq_le_spread hx hs hsr.le hrises))

/-- The derivative of the growth never rises after it has fallen. -/
theorem noValley_growthAt_slope (hx : 0 ≤ x) :
    NoValley (fun t => growthAt x t * slope x t) (Set.Ici 1) := by
  refine noValley_of_hasDerivAt
    (fun t ht => hasDerivAt_growthAt_slope hx (one_pos.trans_le ht)) fun s t hs hst hneg => ?_
  have hs0 : 0 < s := by linarith
  have ht0 : 0 < t := hs0.trans hst
  have hgrowth : ∀ r, 0 < growthAt x r := fun r => Real.exp_pos _
  -- the sign of the second derivative is that of the spread less the square
  have hbend : bend x s < 0 := neg_of_mul_neg_right hneg (hgrowth s).le
  rw [bend_eq hx hs0] at hbend
  have hlt : spread x s - x ^ 2 < 0 := by
    by_contra hge
    exact absurd hbend (not_lt.mpr (div_nonneg (not_lt.mp hge) (by positivity)))
  have hle := spread_le hx hs hst (sub_neg.mp hlt)
  refine mul_nonpos_of_nonneg_of_nonpos (hgrowth t).le ?_
  rw [bend_eq hx ht0]
  exact div_nonpos_of_nonpos_of_nonneg (sub_nonpos.mpr hle) (by positivity)

end Bend

/-! ## What one more part adds -/

section Gain

variable {x : ℝ}

/-- On whole numbers of parts this is the compound interest. -/
theorem growthAt_natCast (hx : 0 ≤ x) {n : ℕ} (hn : 1 ≤ n) : growthAt x n = growth x n := by
  have hpos : (0 : ℝ) < n := by exact_mod_cast hn
  unfold growthAt growth
  rw [Real.exp_nat_mul, rate_eq hx hpos, Real.exp_log (by positivity)]

/-- The gain is the growth over a distance of one, and so has no valley either.
-/
theorem noValley_gain (hx : 0 ≤ x) : NoValley (gain x) (Set.Ici 1) := by
  have hreal := NoValley.sub_shift
    (fun t ht => hasDerivAt_growthAt hx (one_pos.trans_le ht)) (noValley_growthAt_slope hx) one_pos
  have hnat := hreal.comp (Nat.strictMono_cast (α := ℝ))
    (fun n (hn : n ∈ Set.Ici 1) => (Nat.one_le_cast.mpr hn : (1 : ℝ) ≤ n))
  have hgain : ∀ n : ℕ, 1 ≤ n → growthAt x (n + 1) - growthAt x n = gain x n := by
    intro n hn
    have hnext := growthAt_natCast hx (Nat.le_add_left 1 n)
    rw [Nat.cast_succ] at hnext
    rw [hnext, growthAt_natCast hx hn]
    rfl
  intro a ha b hb c hc hab hbc hfall
  rw [← hgain c hc, ← hgain b hb]
  rw [← hgain b hb, ← hgain a ha] at hfall
  exact hnat a ha b hb c hc hab hbc hfall

/-- The first part: simple interest. -/
theorem gain_zero {K : Type} [Field K] (x : K) : gain x 0 = x := by
  unfold gain growth
  norm_num

theorem gain_one : gain x 1 = x ^ 2 / 4 := by
  unfold gain growth
  norm_num
  ring

/-- The third part; with it the first gains can be compared. -/
theorem gain_two : gain x 2 = x ^ 2 / 12 + x ^ 3 / 27 := by
  unfold gain growth
  norm_num
  ring

/-- Up to fourfold interest the second part is worth more than any later one. -/
theorem gain_le_gain_one (hx : 0 ≤ x) (hfour : x ≤ 4) {k : ℕ} (hk : 1 ≤ k) :
    gain x k ≤ gain x 1 := by
  rcases Nat.eq_or_lt_of_le hk with rfl | hlt
  · exact le_rfl
  rcases hx.eq_or_lt with rfl | hpos
  · have hnone : ∀ n, gain (0 : ℝ) n = 0 := fun n => by simp [gain, growth]
    rw [hnone, hnone]
  have hfall : gain x 2 < gain x 1 := by
    rw [gain_one, gain_two]
    nlinarith [pow_pos hpos 2]
  rcases Nat.eq_or_lt_of_le (show 2 ≤ k from hlt) with rfl | htwo
  · exact hfall.le
  · exact (noValley_gain hx 1 Set.self_mem_Ici 2 (by decide) k hk (by decide) htwo hfall).trans
      hfall.le

/-- If the first part is worth more than `θ` and some part is not, no later
part is. -/
theorem gain_le (hx : 0 ≤ x) {θ : ℝ} (hstart : θ < gain x 0) {n k : ℕ} (hn : gain x n ≤ θ)
    (hnk : n ≤ k) : gain x k ≤ θ := by
  have hpos : 1 ≤ n := by
    by_contra hzero
    obtain rfl : n = 0 := by omega
    exact absurd hstart (not_lt.mpr hn)
  rcases Nat.eq_or_lt_of_le hnk with rfl | hlt
  · exact hn
  by_cases hsecond : θ < gain x 1
  · -- from the second part on there is no valley
    have hone : 1 < n := by
      by_contra hle
      obtain rfl : n = 1 := by omega
      exact absurd hsecond (not_lt.mpr hn)
    exact (noValley_gain hx 1 Set.self_mem_Ici n hpos k (hpos.trans hnk) hone hlt
      (hn.trans_lt hsecond)).trans hn
  · -- the second part is worth less than the first one, so the interest is below 4
    have hle := not_lt.mp hsecond
    rw [gain_zero] at hstart
    have hsquare : x ^ 2 / 4 < x := by
      rw [← gain_one]
      exact hle.trans_lt hstart
    have hfour : x ≤ 4 := by nlinarith
    exact (gain_le_gain_one hx hfour (hpos.trans hnk)).trans hle

/-- The gain in rationals, which can be computed, is the one in reals. -/
theorem gain_ratCast (x : ℚ) (n : ℕ) : ((gain x n : ℚ) : ℝ) = gain (x : ℝ) n := by
  unfold gain growth
  push_cast
  rfl

/-- A gain that has come down to a threshold below the first one stays there. -/
theorem gain_le_rat {x : ℚ} (hx : 0 ≤ x) {θ : ℚ} (hstart : θ < gain x 0) {n k : ℕ}
    (hn : gain x n ≤ θ) (hnk : n ≤ k) : gain x k ≤ θ := by
  have hreal : gain (x : ℝ) k ≤ (θ : ℝ) := by
    refine gain_le (by exact_mod_cast hx) ?_ (n := n) ?_ hnk
    · rw [← gain_ratCast]
      exact_mod_cast hstart
    · rw [← gain_ratCast]
      exact_mod_cast hn
  rw [← gain_ratCast] at hreal
  exact_mod_cast hreal

/-- With an interest of 400 % or less no part adds more than the first. -/
theorem gain_le_of_le_four {x : ℚ} (hx : 0 ≤ x) (hfour : x ≤ 4) (k : ℕ) : gain x k ≤ x := by
  cases k with
  | zero => rw [gain_zero]
  | succ k =>
    have hreal : gain (x : ℝ) (k + 1) ≤ (x : ℝ) := by
      have hx' : (0 : ℝ) ≤ x := by exact_mod_cast hx
      have hfour' : (x : ℝ) ≤ 4 := by exact_mod_cast hfour
      have hone := gain_le_gain_one hx' hfour' (Nat.le_add_left 1 k)
      rw [gain_one] at hone
      nlinarith
    rw [← gain_ratCast] at hreal
    exact_mod_cast hreal

end Gain

end MxExchange.Num.Compounding
