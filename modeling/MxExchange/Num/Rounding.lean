import Mathlib.Data.Rat.Floor
import Mathlib.Data.Int.Log
import Mathlib.Tactic.Linarith
import Mathlib.Tactic.Positivity
import Mathlib.Tactic.FieldSimp
import Mathlib.Tactic.NormNum

/-!
# Rounding a rational to an integer, and to a number of decimal places

Two rounding modes occur in the arithmetic this development is about.
Decimal arithmetic rounds *down*, that is towards zero: what does not fit is
cut off. Binary floating point rounds half to *even*. Both are plain
functions on `ℚ` here.

Rounding down is used as a comparison: a lower bound on the truncated value is
a lower bound on the value itself, and an upper bound is one a unit higher.
`le_truncate_iff` and `truncate_le_iff` are that translation for integers,
`le_truncatePlaces_iff` and `truncatePlaces_lt_iff` are the same at the last
decimal kept. Cutting off twice is cutting off once, at the coarser place
(`truncate_truncatePlaces`).

Half even is only needed through the fact that makes it a rounding to
nearest: no integer is closer (`roundHalfEven_nearest`).
-/

namespace MxExchange.Num

/-! ## Towards zero -/

/-- The whole part: `Math.trunc`, and `ROUND_DOWN` of the decimal library. -/
def truncate (q : ℚ) : ℤ := if 0 ≤ q then ⌊q⌋ else ⌈q⌉

/-- From zero on, towards zero is down. -/
theorem truncate_of_nonneg {q : ℚ} (h : 0 ≤ q) : truncate q = ⌊q⌋ := if_pos h

/-- The whole part does not depend on the sign. -/
theorem truncate_neg (q : ℚ) : truncate (-q) = -truncate q := by
  rcases lt_trichotomy q 0 with hneg | rfl | hpos
  · rw [truncate, truncate, if_pos (by linarith), if_neg (by linarith), Int.floor_neg]
  · simp [truncate]
  · rw [truncate, truncate, if_neg (by linarith), if_pos hpos.le, Int.ceil_neg]

/-- Integers are their own whole part. -/
@[simp] theorem truncate_intCast (z : ℤ) : truncate (z : ℚ) = z := by
  unfold truncate
  split
  · exact Int.floor_intCast z
  · exact Int.ceil_intCast z

@[simp] theorem truncate_natCast (n : ℕ) : truncate (n : ℚ) = n := by
  exact_mod_cast truncate_intCast (n : ℤ)

@[simp] theorem truncate_zero : truncate 0 = 0 := by
  exact_mod_cast truncate_intCast 0

/-- A lower bound on the whole part is one on the value. -/
theorem le_truncate_iff {q : ℚ} (h : 0 ≤ q) {z : ℤ} : z ≤ truncate q ↔ (z : ℚ) ≤ q := by
  rw [truncate_of_nonneg h, Int.le_floor]

/-- An upper bound on the whole part leaves the value a unit of room. -/
theorem truncate_le_iff {q : ℚ} (h : 0 ≤ q) {z : ℤ} : truncate q ≤ z ↔ q < z + 1 := by
  rw [truncate_of_nonneg h, ← Int.lt_add_one_iff, Int.floor_lt]
  push_cast
  exact Iff.rfl

/-- The same for a natural number, read in the rationals. -/
theorem natCast_le_truncate_iff {q : ℚ} (h : 0 ≤ q) {n : ℕ} :
    (n : ℚ) ≤ truncate q ↔ (n : ℚ) ≤ q := by
  have hle := le_truncate_iff h (z := n)
  rw [Int.cast_natCast] at hle
  rw [← Int.cast_natCast, Int.cast_le, hle, Int.cast_natCast]

/-- What is left is not above the value. -/
theorem truncate_le {q : ℚ} (h : 0 ≤ q) : (truncate q : ℚ) ≤ q :=
  (le_truncate_iff h).mp le_rfl

/-- What is cut off is less than one. -/
theorem lt_truncate_add_one {q : ℚ} (h : 0 ≤ q) : q < truncate q + 1 :=
  (truncate_le_iff h).mp le_rfl

theorem truncate_nonneg {q : ℚ} (h : 0 ≤ q) : 0 ≤ truncate q := by
  rw [le_truncate_iff h]
  exact_mod_cast h

/-- Adding less than a unit to a whole number is lost, anything else is not. -/
theorem truncate_add_eq_iff {x d : ℚ} (hx : 0 ≤ x) (hd : 0 ≤ d) :
    ((truncate (x + d) : ℤ) : ℚ) = x ↔ ∃ n : ℕ, x = n ∧ d < 1 := by
  constructor
  · intro h
    obtain ⟨n, hn⟩ := Int.eq_ofNat_of_zero_le (truncate_nonneg (add_nonneg hx hd))
    rw [hn] at h
    have hxn : x = n := by exact_mod_cast h.symm
    refine ⟨n, hxn, ?_⟩
    have hlt := (truncate_le_iff (add_nonneg hx hd)).mp hn.le
    rw [hxn] at hlt
    push_cast at hlt
    linarith
  · intro h
    obtain ⟨n, rfl, hlt⟩ := h
    have hupper : truncate ((n : ℚ) + d) ≤ n := by
      rw [truncate_le_iff (add_nonneg hx hd)]
      push_cast
      linarith
    have hlower : (n : ℤ) ≤ truncate ((n : ℚ) + d) := by
      rw [le_truncate_iff (add_nonneg hx hd)]
      push_cast
      linarith
    have := le_antisymm hupper hlower
    rw [this]
    norm_cast

/-- A power of ten is lost only where nothing is left. -/
theorem truncate_div_pow_eq_iff {q : ℚ} (h : 0 ≤ q) (k : ℕ) :
    truncate (q / 10 ^ k) = truncate q ↔ k = 0 ∨ q < 1 := by
  have hzero : ∀ {x : ℚ}, 0 ≤ x → x < 1 → truncate x = 0 := fun hx hlt =>
    le_antisymm ((truncate_le_iff hx).mpr (by push_cast; linarith)) (truncate_nonneg hx)
  have hshrunk : q / 10 ^ k ≤ q := div_le_self h (one_le_pow₀ (by norm_num))
  constructor
  · intro heq
    refine or_iff_not_imp_left.mpr fun hk => ?_
    by_contra hlarge
    have hone : (1 : ℤ) ≤ truncate q := (le_truncate_iff h).mpr (by push_cast; linarith)
    -- a tenth of the number would have to have the same whole part
    have htenth : q / 10 ^ k ≤ q / 10 :=
      div_le_div_of_nonneg_left h (by norm_num) (le_self_pow₀ (by norm_num) hk)
    have hupper := lt_truncate_add_one h
    have hlower := (le_truncate_iff (by positivity)).mp heq.ge
    have hone' : (1 : ℚ) ≤ truncate q := by exact_mod_cast hone
    linarith
  · rintro (rfl | hsmall)
    · rw [pow_zero, div_one]
    · rw [hzero h hsmall, hzero (by positivity) (hshrunk.trans_lt hsmall)]

/-- Rounding keeps the sign. -/
theorem truncate_sign_mul (z : ℤ) (q : ℚ) : truncate (z.sign * q) = z.sign * truncate q := by
  rcases lt_trichotomy z 0 with hneg | rfl | hpos
  · rw [Int.sign_eq_neg_one_of_neg hneg, Int.cast_neg, Int.cast_one, neg_one_mul, neg_one_mul,
      truncate_neg]
  · simp
  · rw [Int.sign_eq_one_of_pos hpos, Int.cast_one, one_mul, one_mul]

/-! ## At a number of decimal places -/

/-- What is left with `dp` decimals. -/
def truncatePlaces (dp : ℕ) (q : ℚ) : ℚ := (truncate (q * 10 ^ dp) : ℚ) / 10 ^ dp

section Places

variable {dp : ℕ} {p q : ℚ}

@[simp] theorem truncatePlaces_zero (dp : ℕ) : truncatePlaces dp 0 = 0 := by
  rw [truncatePlaces, zero_mul, truncate_zero, Int.cast_zero, zero_div]

/-- A bound with `dp` decimals (`m` in units of the last one kept) from below
is the same bound on the value. -/
theorem le_truncatePlaces_iff (h : 0 ≤ q) {m : ℤ} :
    m / 10 ^ dp ≤ truncatePlaces dp q ↔ m / 10 ^ dp ≤ q := by
  have hp : (0 : ℚ) < 10 ^ dp := by positivity
  rw [truncatePlaces, div_le_div_iff_of_pos_right hp, Int.cast_le, le_truncate_iff (by positivity),
    div_le_iff₀ hp]

/-- And so is a strict bound from above. -/
theorem truncatePlaces_lt_iff (h : 0 ≤ q) {m : ℤ} :
    truncatePlaces dp q < m / 10 ^ dp ↔ q < m / 10 ^ dp := by
  rw [← not_le, ← not_le, le_truncatePlaces_iff h]

theorem truncatePlaces_nonneg (h : 0 ≤ q) : 0 ≤ truncatePlaces dp q := by
  have hzero : ((0 : ℤ) : ℚ) / 10 ^ dp ≤ truncatePlaces dp q :=
    (le_truncatePlaces_iff h).mpr (by simpa using h)
  simpa using hzero

/-- The same at a number of decimals. -/
theorem truncatePlaces_le (h : 0 ≤ q) : truncatePlaces dp q ≤ q :=
  (le_truncatePlaces_iff h).mp le_rfl

/-- What is cut off is less than a unit of the last decimal. -/
theorem lt_truncatePlaces_add (h : 0 ≤ q) : q < truncatePlaces dp q + 1 / 10 ^ dp := by
  have hp : (0 : ℚ) < 10 ^ dp := by positivity
  have hlt := lt_truncate_add_one (q := q * 10 ^ dp) (by positivity)
  rwa [truncatePlaces, ← add_div, lt_div_iff₀ hp]

/-- Cutting off keeps the order. -/
theorem truncatePlaces_mono (hp : 0 ≤ p) (h : p ≤ q) :
    truncatePlaces dp p ≤ truncatePlaces dp q :=
  (le_truncatePlaces_iff (hp.trans h)).mpr ((truncatePlaces_le hp).trans h)

/-- A sign may be taken out. -/
theorem truncatePlaces_sign_mul (z : ℤ) :
    truncatePlaces dp (z.sign * q) = z.sign * truncatePlaces dp q := by
  rw [truncatePlaces, truncatePlaces, mul_assoc, truncate_sign_mul]
  push_cast
  rw [mul_div_assoc]

/-- The last place that is left of a value. -/
theorem truncatePlaces_eq_iff (h : 0 ≤ q) {k : ℤ} : truncatePlaces dp q = k / 10 ^ dp ↔
    k / 10 ^ dp ≤ q ∧ q < (k + 1) / 10 ^ dp := by
  have hp : (0 : ℚ) < 10 ^ dp := by positivity
  have hnext : q < ((k : ℚ) + 1) / 10 ^ dp ↔ truncatePlaces dp q ≤ k / 10 ^ dp := by
    have hcast : (k : ℚ) + 1 = ((k + 1 : ℤ) : ℚ) := by push_cast; rfl
    rw [hcast, ← truncatePlaces_lt_iff h, truncatePlaces, div_lt_div_iff_of_pos_right hp,
      div_le_div_iff_of_pos_right hp, Int.cast_lt, Int.cast_le, Int.lt_add_one_iff]
  rw [← le_truncatePlaces_iff h, hnext, and_comm]
  exact le_antisymm_iff

/-- What is left of a value that is not zero. -/
theorem truncatePlaces_pos_iff (h : 0 ≤ q) : 0 < truncatePlaces dp q ↔ 1 ≤ q * 10 ^ dp := by
  have hp : (0 : ℚ) < 10 ^ dp := by positivity
  have hone := le_truncate_iff (q := q * 10 ^ dp) (by positivity) (z := 1)
  rw [truncatePlaces, div_pos_iff_of_pos_right hp, Int.cast_pos, ← Int.cast_one (R := ℚ), ← hone]
  exact Iff.rfl

/-- A quotient by a power of ten that comes to the same as the value: nothing
was divided, or nothing is left. -/
theorem truncatePlaces_div_pow_eq_iff (h : 0 ≤ q) (k : ℕ) :
    truncatePlaces dp (q / 10 ^ k) = truncatePlaces dp q ↔ k = 0 ∨ q < 1 / 10 ^ dp := by
  have hp : (0 : ℚ) < 10 ^ dp := by positivity
  rw [truncatePlaces, truncatePlaces, div_left_inj' hp.ne', Int.cast_inj, div_mul_eq_mul_div,
    truncate_div_pow_eq_iff (by positivity), lt_div_iff₀ hp]

/-- Cutting off at a finer place first changes nothing. -/
theorem truncatePlaces_truncatePlaces {places : ℕ} (h : 0 ≤ q) (hle : dp ≤ places) :
    truncatePlaces dp (truncatePlaces places q) = truncatePlaces dp q := by
  obtain ⟨e, rfl⟩ := Nat.exists_eq_add_of_le hle
  have hfine : ∀ m : ℤ, (m : ℚ) / 10 ^ dp = ((m * 10 ^ e : ℤ) : ℚ) / 10 ^ (dp + e) := by
    intro m
    rw [div_eq_div_iff (by positivity) (by positivity), pow_add]
    push_cast
    ring
  apply le_antisymm
  · exact truncatePlaces_mono (truncatePlaces_nonneg h) (truncatePlaces_le h)
  · show (truncate (q * 10 ^ dp) : ℚ) / 10 ^ dp ≤ _
    rw [le_truncatePlaces_iff (truncatePlaces_nonneg h), hfine, le_truncatePlaces_iff h, ← hfine]
    exact truncatePlaces_le h

/-- The decimals do not matter for the whole part. -/
theorem truncate_truncatePlaces (h : 0 ≤ q) : truncate (truncatePlaces dp q) = truncate q := by
  have hwhole := truncatePlaces_truncatePlaces h (Nat.zero_le dp)
  simpa [truncatePlaces] using hwhole

end Places

/-! ## Half even -/

/-- Nearest integer, a tie moving to the even neighbour. -/
def roundHalfEven (q : ℚ) : ℤ :=
  if q - ⌊q⌋ < 1 / 2 then ⌊q⌋
  else if 1 / 2 < q - ⌊q⌋ then ⌊q⌋ + 1
  else if ⌊q⌋ % 2 = 0 then ⌊q⌋ else ⌊q⌋ + 1

/-- The rounding is one of the two neighbours, and on its own side of the
midpoint. -/
theorem roundHalfEven_cases (q : ℚ) :
    (roundHalfEven q = ⌊q⌋ ∧ q - ⌊q⌋ ≤ 1 / 2) ∨
    (roundHalfEven q = ⌊q⌋ + 1 ∧ 1 / 2 ≤ q - ⌊q⌋) := by
  unfold roundHalfEven
  split
  next hlt => exact Or.inl ⟨rfl, hlt.le⟩
  next hge =>
    split
    next hgt => exact Or.inr ⟨rfl, hgt.le⟩
    next hle =>
      split
      next => exact Or.inl ⟨rfl, not_lt.mp hle⟩
      next => exact Or.inr ⟨rfl, not_lt.mp hge⟩

/-- No integer is closer than the rounded one. -/
theorem roundHalfEven_nearest (q : ℚ) (z : ℤ) :
    |q - roundHalfEven q| ≤ |q - z| := by
  have hf := Int.floor_le q
  have hc := Int.lt_floor_add_one q
  rcases le_or_gt z ⌊q⌋ with hz | hz
  · have hz' : (z : ℚ) ≤ ⌊q⌋ := by exact_mod_cast hz
    rw [abs_of_nonneg (by linarith : 0 ≤ q - z)]
    rcases roundHalfEven_cases q with ⟨he, -⟩ | ⟨he, hh⟩
    · rw [he, abs_of_nonneg (by linarith)]
      linarith
    · rw [he]
      push_cast
      rw [abs_of_nonpos (by linarith)]
      linarith
  · have hz' : (⌊q⌋ : ℚ) + 1 ≤ z := by exact_mod_cast hz
    rw [abs_of_nonpos (by linarith : q - z ≤ 0)]
    rcases roundHalfEven_cases q with ⟨he, hh⟩ | ⟨he, -⟩
    · rw [he, abs_of_nonneg (by linarith)]
      linarith
    · rw [he]
      push_cast
      rw [abs_of_nonpos (by linarith)]
      linarith

end MxExchange.Num
