import MxExchange.Num.Rounding
import Mathlib.Algebra.BigOperators.Group.List.Basic
import Mathlib.Algebra.BigOperators.Ring.List

/-!
# Shares of an amount, in whole units

A share is a fraction `n / d` of which only the whole units are paid. Cut off
at some decimal first or not, its whole part is the integer quotient
(`truncate_truncatePlaces_div`).

Shares that are rounded down each for itself stay within what is shared: the
quotients of several numerators add up to no more than the quotient of their
sum (`sum_div_le`), and so the shares of an amount among holders of a total add
up to no more than the amount (`sum_shares_le`). What is lost on the way is a
question of the single share. It is nothing at all where the amount falls short
of the total (`share_pos_of_le`, `exists_lost_share`).
-/

namespace MxExchange.Num

variable {dp n d : ℕ}

/-! ## Quotients of whole numbers -/

/-- The whole part of a quotient of units is their quotient. -/
theorem truncate_div (n d : ℕ) : truncate ((n : ℚ) / d) = (n / d : ℕ) := by
  rw [truncate_of_nonneg (by positivity), Rat.floor_natCast_div_natCast, Int.natCast_div]

/-- So it is if the quotient has been cut off at some decimals before. -/
theorem truncate_truncatePlaces_div (dp n d : ℕ) :
    truncate (truncatePlaces dp ((n : ℚ) / d)) = (n / d : ℕ) := by
  rw [truncate_truncatePlaces (by positivity), truncate_div]

/-- A quotient with `dp` decimals, in units of the last of them. -/
theorem truncatePlaces_eq_div {q : ℚ} (h : q * 10 ^ dp = n / d) :
    truncatePlaces dp q = (n / d : ℕ) / 10 ^ dp := by
  rw [truncatePlaces, h, truncate_div, Int.cast_natCast]

/-- Ten thousandths have four decimals. -/
theorem truncatePlaces_tenThousandth (n : ℕ) :
    truncatePlaces 20 ((n : ℚ) / 10000) = n / 10000 := by
  have hwhole : (n : ℚ) / 10000 * 10 ^ 20 = ((n * 10 ^ 16 : ℕ) : ℚ) := by
    push_cast
    ring
  rw [truncatePlaces, hwhole, truncate_natCast]
  push_cast
  ring

/-- What is left of a fraction at the `dp`-th decimal. -/
theorem truncatePlaces_div_pos_iff (hd : 0 < d) :
    0 < truncatePlaces dp ((n : ℚ) / d) ↔ d ≤ 10 ^ dp * n := by
  have hdq : (0 : ℚ) < d := by exact_mod_cast hd
  have hcast : d ≤ 10 ^ dp * n ↔ (d : ℚ) ≤ n * 10 ^ dp := by
    rw [mul_comm]
    exact_mod_cast Iff.rfl
  rw [truncatePlaces_pos_iff (by positivity), hcast, div_mul_eq_mul_div, le_div_iff₀ hdq, one_mul]

/-! ## Sums of shares -/

/-- Rounding each down is rounding down at least as far. -/
theorem sum_div_le {α : Type} (f : α → ℕ) (l : List α) (d : ℕ) :
    (l.map fun x => f x / d).sum ≤ (l.map f).sum / d := by
  induction l with
  | nil => exact Nat.zero_le _
  | cons x l ih =>
    rw [List.map_cons, List.map_cons, List.sum_cons, List.sum_cons]
    calc f x / d + (l.map fun x => f x / d).sum ≤ f x / d + (l.map f).sum / d :=
          Nat.add_le_add_left ih _
      _ ≤ (f x + (l.map f).sum) / d := Nat.div_add_div_le_add_div

/-- The shares and the remainders are what is shared. -/
theorem sum_div_mod {α : Type} (f : α → ℕ) (l : List α) (d : ℕ) :
    d * (l.map fun x => f x / d).sum + (l.map fun x => f x % d).sum = (l.map f).sum := by
  rw [← List.sum_map_mul_left, ← List.sum_map_add]
  exact congrArg List.sum (List.map_congr_left fun x _ => Nat.div_add_mod (f x) d)

/-- Shares stay within a bound if what exceeds it is left in the remainders. -/
theorem sum_div_le_iff {α : Type} {f : α → ℕ} {l : List α} {d b : ℕ} (hd : 0 < d) :
    (l.map fun x => f x / d).sum ≤ b ↔
      (l.map f).sum ≤ d * b + (l.map fun x => f x % d).sum := by
  rw [← sum_div_mod f l d, Nat.add_le_add_iff_right, Nat.mul_le_mul_left_iff hd]

/-- An amount among holders of no more than a total. -/
theorem sum_shares_le {α : Type} (amount total : ℕ) {f : α → ℕ} {l : List α}
    (h : (l.map f).sum ≤ total) : (l.map fun x => amount * f x / total).sum ≤ amount := by
  have hclaims : (l.map fun x => amount * f x).sum ≤ amount * total := by
    rw [List.sum_map_mul_left]
    exact Nat.mul_le_mul_left amount h
  calc (l.map fun x => amount * f x / total).sum ≤ (l.map fun x => amount * f x).sum / total :=
        sum_div_le _ l total
    _ ≤ amount * total / total := Nat.div_le_div_right hclaims
    _ ≤ amount := Nat.div_le_of_le_mul (Nat.mul_comm _ _).le

/-! ## Single shares -/

/-- A share is nothing exactly if it is below one unit. -/
theorem share_pos_iff (hd : 0 < d) : 0 < n / d ↔ d ≤ n :=
  ⟨fun h => (Nat.div_pos_iff.mp h).2, fun h => Nat.div_pos h hd⟩

/-- Of an amount that reaches the total everyone who holds something gets
something. -/
theorem share_pos_of_le {amount total e : ℕ} (ht : 0 < total) (h : total ≤ amount) (he : 0 < e) :
    0 < amount * e / total :=
  (share_pos_iff ht).mpr (h.trans (Nat.le_mul_of_pos_right amount he))

/-- The first multiple of `c` that reaches `n`. -/
theorem exists_first_multiple {c n : ℕ} (hc : 0 < c) (hn : 0 < n) :
    ∃ k, 0 < k ∧ n ≤ c * k ∧ c * k < n + c := by
  refine ⟨(n + c - 1) / c, Nat.div_pos (by omega) hc, ?_, ?_⟩
  · have := Nat.lt_mul_div_succ (n + c - 1) hc
    rw [Nat.mul_add, Nat.mul_one] at this
    omega
  · have := Nat.mul_div_le (n + c - 1) c
    omega

/-- Of a smaller one somebody can hold so much that the share is not lost at
the `dp`-th decimal and is nothing in whole units. -/
theorem exists_lost_share {amount total : ℕ} (hdp : 0 < dp) (hpos : 0 < amount)
    (h : amount < total) :
    ∃ e, 0 < e ∧ e ≤ total ∧ total ≤ 10 ^ dp * (amount * e) ∧ amount * e < total := by
  have hp : 10 ^ 1 ≤ 10 ^ dp := Nat.pow_le_pow_right (by omega) hdp
  obtain ⟨k, hk, hreach, hbelow⟩ :=
    exists_first_multiple (Nat.mul_pos (by omega : 0 < 10 ^ dp) hpos) (by omega : 0 < total)
  have hten : 10 ^ 1 * (amount * k) ≤ 10 ^ dp * (amount * k) := Nat.mul_le_mul_right _ hp
  rw [← Nat.mul_assoc (10 ^ dp)] at hten
  have hkle : k ≤ amount * k := Nat.le_mul_of_pos_left k hpos
  -- One unit held is less than the total; of more, the last one decides.
  have hlost : amount * k < total := by
    rcases Nat.lt_or_ge k 2 with hone | hmany
    · obtain rfl : k = 1 := by omega
      rwa [Nat.mul_one]
    · have hdouble : 10 ^ dp * amount * 2 ≤ 10 ^ dp * amount * k := Nat.mul_le_mul_left _ hmany
      omega
  refine ⟨k, hk, by omega, ?_, hlost⟩
  rwa [← Nat.mul_assoc]

end MxExchange.Num
