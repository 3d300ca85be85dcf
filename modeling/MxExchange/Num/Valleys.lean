import Mathlib

/-!
# Functions without a valley

A function has no valley where it never rises after it has fallen. For a
function of the reals the derivative decides: it must not become positive
after it was negative (`noValley_of_hasDerivAt`). What a function gains over
a fixed distance has no valley if its derivative has none
(`NoValley.sub_shift`), though two such distances may overlap.
-/

namespace MxExchange.Num

section Order

variable {α β γ : Type} [Preorder α] [Preorder β] [Preorder γ]

/-- Once the values have fallen they do not rise again. -/
def NoValley (f : α → β) (s : Set α) : Prop :=
  ∀ a ∈ s, ∀ b ∈ s, ∀ c ∈ s, a < b → b < c → f b < f a → f c ≤ f b

/-- The same along a sequence of places. -/
theorem NoValley.comp {f : α → β} {s : Set α} (h : NoValley f s) {u : γ → α} (hu : StrictMono u)
    {t : Set γ} (hmaps : ∀ i ∈ t, u i ∈ s) : NoValley (fun i => f (u i)) t :=
  fun a ha b hb c hc hab hbc =>
    h (u a) (hmaps a ha) (u b) (hmaps b hb) (u c) (hmaps c hc) (hu hab) (hu hbc)

end Order

variable {f f' : ℝ → ℝ} {a : ℝ}

/-- Somewhere on the way down the derivative is negative. -/
theorem exists_deriv_neg (hderiv : ∀ t ∈ Set.Ici a, HasDerivAt f (f' t) t) {b c : ℝ} (hb : a ≤ b)
    (hbc : b < c) (hfall : f c < f b) : ∃ t, b < t ∧ t < c ∧ f' t < 0 := by
  have hcont : ContinuousOn f (Set.Icc b c) := fun t ht =>
    (hderiv t (hb.trans ht.1)).continuousAt.continuousWithinAt
  obtain ⟨t, ht, hslope⟩ := exists_hasDerivAt_eq_slope f f' hbc hcont
    (fun t ht => hderiv t (hb.trans ht.1.le))
  refine ⟨t, ht.1, ht.2, ?_⟩
  rw [hslope]
  exact div_neg_of_neg_of_pos (sub_neg.mpr hfall) (sub_pos.mpr hbc)

/-- And on the way up it is positive. -/
theorem exists_deriv_pos (hderiv : ∀ t ∈ Set.Ici a, HasDerivAt f (f' t) t) {b c : ℝ} (hb : a ≤ b)
    (hbc : b < c) (hrise : f b < f c) : ∃ t, b < t ∧ t < c ∧ 0 < f' t := by
  have hmirror : ∀ t ∈ Set.Ici a, HasDerivAt (fun t => -f t) (-f' t) t :=
    fun t ht => (hderiv t ht).neg
  obtain ⟨t, hbt, htc, hneg⟩ := exists_deriv_neg hmirror hb hbc (neg_lt_neg hrise)
  exact ⟨t, hbt, htc, neg_neg_iff_pos.mp hneg⟩

/-- A derivative that stays below zero once it is. -/
theorem noValley_of_hasDerivAt (hderiv : ∀ t ∈ Set.Ici a, HasDerivAt f (f' t) t)
    (hsign : ∀ s t, a ≤ s → s < t → f' s < 0 → f' t ≤ 0) : NoValley f (Set.Ici a) := by
  intro b hb c hc d hd hbc hcd hfall
  by_contra hrise
  rw [not_le] at hrise
  obtain ⟨s, hbs, hsc, hneg⟩ := exists_deriv_neg hderiv hb hbc hfall
  obtain ⟨t, hct, -, hpos⟩ := exists_deriv_pos hderiv hc hcd hrise
  exact absurd (hsign s t (le_trans hb hbs.le) (hsc.trans hct) hneg) (not_le.mpr hpos)

/-- If a distance once leads down, it does so from any later place. -/
theorem NoValley.shift (h : NoValley f (Set.Ici a)) {s t d : ℝ} (hd : 0 < d) (hs : a ≤ s)
    (hst : s < t) (hfall : f (s + d) < f s) : f (t + d) ≤ f t := by
  by_contra hrise
  rw [not_le] at hrise
  have ht : a ≤ t := hs.trans hst.le
  have hs' : s < s + d := lt_add_of_pos_right s hd
  have ht' : t < t + d := lt_add_of_pos_right t hd
  -- the later end is no higher than the earlier one
  have hends : f (t + d) ≤ f (s + d) :=
    h s hs (s + d) (hs.trans hs'.le) (t + d) (ht.trans ht'.le) hs' (add_lt_add_left hst d) hfall
  have hstart : f t < f s := hrise.trans (hends.trans_lt hfall)
  exact absurd (h s hs t ht (t + d) (ht.trans ht'.le) hst ht' hstart) (not_le.mpr hrise)

/-- What is gained over a fixed distance. -/
theorem NoValley.sub_shift (hderiv : ∀ t ∈ Set.Ici a, HasDerivAt f (f' t) t)
    (h : NoValley f' (Set.Ici a)) {d : ℝ} (hd : 0 < d) :
    NoValley (fun t => f (t + d) - f t) (Set.Ici a) := by
  have hgain : ∀ t ∈ Set.Ici a, HasDerivAt (fun t => f (t + d) - f t) (f' (t + d) - f' t) t := by
    intro t ht
    have hlater : a ≤ t + d := le_trans ht (le_add_of_nonneg_right hd.le)
    exact ((hderiv (t + d) hlater).comp_add_const t d).sub (hderiv t ht)
  refine noValley_of_hasDerivAt hgain fun s t hs hst hneg => ?_
  exact sub_nonpos.mpr (h.shift hd hs hst (sub_neg.mp hneg))

end MxExchange.Num
