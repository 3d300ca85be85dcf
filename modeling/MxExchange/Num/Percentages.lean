import MxExchange.Num.Shares

/-!
# Percentages that are printed

The part of a total in percent, from a quotient that keeps a number of
decimals, printed with fewer of them. Printed percentages are steps
(`printedPercent_eq_iff`): two parts of two totals are printed alike exactly
if they lie in the same step (`printedPercent_eq_printedPercent_iff`). A step
is one unit of the last printed decimal wide and starts at what is printed, so
a percentage is never above the part it stands for, and the percentages of all
parts miss a hundred by less than a unit for each of them
(`sum_printedPercent`).
-/

namespace MxExchange.Num

/-- `places` decimals of the quotient, `dp` of the percentage. -/
def printedPercent (places dp : ℕ) (part total : ℚ) : ℚ :=
  truncatePlaces dp (truncatePlaces places (part / total) * 100)

/-- The fractions that are printed as `k` units of the last decimal. -/
def InStep (dp : ℕ) (k : ℤ) (q : ℚ) : Prop :=
  k / 10 ^ (dp + 2) ≤ q ∧ q < (k + 1) / 10 ^ (dp + 2)

section Step

variable {places dp : ℕ} {k : ℤ} {q part total : ℚ}

/-- Percent of a value with `dp` decimals more than two. -/
theorem truncatePlaces_mul_hundred (dp : ℕ) (q : ℚ) :
    truncatePlaces dp (q * 100) = truncatePlaces (dp + 2) q * 100 := by
  have hscale : q * 100 * 10 ^ dp = q * 10 ^ (dp + 2) := by
    rw [pow_add]
    ring
  rw [truncatePlaces, truncatePlaces, hscale, div_mul_eq_mul_div,
    div_eq_div_iff (by positivity) (by positivity)]
  ring

/-- The decimals of the quotient that are not printed do not matter. -/
theorem printedPercent_eq (h : dp + 2 ≤ places) (hq : 0 ≤ part / total) :
    printedPercent places dp part total = truncatePlaces (dp + 2) (part / total) * 100 := by
  rw [printedPercent, truncatePlaces_mul_hundred, truncatePlaces_truncatePlaces hq h]

/-- Which percentage is printed: the step that the quotient falls in. -/
theorem printedPercent_eq_iff (h : dp + 2 ≤ places) (hq : 0 ≤ part / total) :
    printedPercent places dp part total = k / 10 ^ dp ↔ InStep dp k (part / total) := by
  have hhundred : truncatePlaces (dp + 2) (part / total) * 100 = k / 10 ^ dp ↔
      truncatePlaces (dp + 2) (part / total) = k / 10 ^ (dp + 2) := by
    rw [← eq_div_iff (by norm_num), div_div, pow_add]
    norm_num
  rw [printedPercent_eq h hq, hhundred, truncatePlaces_eq_iff hq]
  exact Iff.rfl

/-- Every percentage is printed as some number of units. -/
theorem exists_inStep (h : dp + 2 ≤ places) (hq : 0 ≤ part / total) :
    ∃ k : ℤ, printedPercent places dp part total = k / 10 ^ dp ∧ InStep dp k (part / total) :=
  ⟨_, rfl, (printedPercent_eq_iff h hq).mp rfl⟩

/-- Two quotients print alike if they fall in the same step. -/
theorem printedPercent_eq_printedPercent_iff {part' total' : ℚ} (h : dp + 2 ≤ places)
    (hq : 0 ≤ part / total) (hq' : 0 ≤ part' / total') :
    printedPercent places dp part total = printedPercent places dp part' total' ↔
      ∃ k : ℤ, InStep dp k (part / total) ∧ InStep dp k (part' / total') := by
  constructor
  · intro heq
    obtain ⟨k, hk, hstep⟩ := exists_inStep h hq
    exact ⟨k, hstep, (printedPercent_eq_iff h hq').mp (heq ▸ hk)⟩
  · rintro ⟨k, hstep, hstep'⟩
    rw [(printedPercent_eq_iff h hq).mpr hstep, (printedPercent_eq_iff h hq').mpr hstep']

theorem printedPercent_nonneg (hq : 0 ≤ part / total) :
    0 ≤ printedPercent places dp part total :=
  truncatePlaces_nonneg (mul_nonneg (truncatePlaces_nonneg hq) (by norm_num))

/-- A printed percentage is not above the exact one. -/
theorem printedPercent_le_mul (h : dp + 2 ≤ places) (hq : 0 ≤ part / total) :
    printedPercent places dp part total ≤ 100 * (part / total) := by
  have hle : truncatePlaces (dp + 2) (part / total) ≤ part / total := truncatePlaces_le hq
  rw [printedPercent_eq h hq]
  linarith

/-- It is less than a step below the exact one. -/
theorem mul_lt_printedPercent_add (h : dp + 2 ≤ places) (hq : 0 ≤ part / total) :
    100 * (part / total) < printedPercent places dp part total + 1 / 10 ^ dp := by
  have hlt : part / total < truncatePlaces (dp + 2) (part / total) + 1 / 10 ^ (dp + 2) :=
    lt_truncatePlaces_add hq
  have hstep : (1 : ℚ) / 10 ^ (dp + 2) * 100 = 1 / 10 ^ dp := by
    rw [pow_add]
    field_simp
    norm_num
  rw [printedPercent_eq h hq, ← hstep]
  linarith

/-- A part prints as no more than 100 %. -/
theorem printedPercent_le (h : dp + 2 ≤ places) (hq : 0 ≤ part / total)
    (hone : part / total ≤ 1) : printedPercent places dp part total ≤ 100 := by
  have hle := printedPercent_le_mul h hq
  linarith

end Step

/-! ## All parts -/

/-- What each value misses another by adds up. -/
theorem sum_le_sum_and_le_add {α : Type} {f g : α → ℚ} {c : ℚ} (l : List α)
    (h : ∀ x ∈ l, f x ≤ g x ∧ g x ≤ f x + c) :
    (l.map f).sum ≤ (l.map g).sum ∧ (l.map g).sum ≤ (l.map f).sum + l.length * c := by
  induction l with
  | nil => simp
  | cons x l ih =>
    obtain ⟨hlower, hupper⟩ := ih fun y hy => h y (List.mem_cons_of_mem _ hy)
    obtain ⟨hle, hge⟩ := h x List.mem_cons_self
    rw [List.map_cons, List.map_cons, List.sum_cons, List.sum_cons, List.length_cons]
    push_cast
    constructor
    · linarith
    · linarith

/-- The printed percentages of all parts of a total. -/
theorem sum_printedPercent {places dp : ℕ} (h : dp + 2 ≤ places) {parts : List ℚ}
    (hparts : ∀ part ∈ parts, 0 ≤ part) (htotal : 0 < parts.sum) :
    (parts.map fun part => printedPercent places dp part parts.sum).sum ≤ 100 ∧
      100 ≤ (parts.map fun part => printedPercent places dp part parts.sum).sum +
        parts.length * (1 / 10 ^ dp) := by
  have hhundred : (parts.map fun part => 100 * (part / parts.sum)).sum = 100 := by
    rw [List.sum_map_mul_left]
    have hone : (parts.map fun part => part / parts.sum).sum = 1 := by
      simp only [div_eq_mul_inv]
      rw [List.sum_map_mul_right, List.map_id', mul_inv_cancel₀ htotal.ne']
    rw [hone, mul_one]
  have hclose := sum_le_sum_and_le_add (f := fun part => printedPercent places dp part parts.sum)
    (g := fun part => 100 * (part / parts.sum)) (c := 1 / 10 ^ dp) parts fun part hpart =>
      have hq := div_nonneg (hparts part hpart) htotal.le
      ⟨printedPercent_le_mul h hq, (mul_lt_printedPercent_add h hq).le⟩
  rwa [hhundred] at hclose

end MxExchange.Num
