import MxExchange.Collections.HillClimb
import MxExchange.Num.Compounding

/-!
# `staking.compute.service.ts`: how often to compound

Compounding more often earns more, but each time costs a fee. The search goes
through the numbers of times from 1 on and stops at the first that is not
better than the one before, or, at the start, than nothing.

Once the profit has stopped rising it never rises again, so a search that
starts with a profit finds the first of the best numbers. One that does not
start with a profit finds nothing at all, and goes wrong where the profit is
below zero at first and above it later (`optimal_iff`). That takes more than
fourfold interest (`optimal_of_interest_le`).

Numbers are exact.
-/

namespace MxExchange.Staking

open MxExchange.Collections MxExchange.Num.Compounding

def COMPOUND_TRANSACTION_FEE : ℚ := 365144 / 1000000000

/-- Compound iterations in hours. -/
def compoundIterations : ℕ := 365 * 24

/-- The best number of times, and how long it is between them. -/
structure OptimalCompoundModel where
  optimalProfit : ℚ
  interval : ℕ
  days : ℤ
  hours : ℤ
  minutes : ℤ
  deriving DecidableEq

/-- What the search depends on. -/
structure CompoundTerms where
  denominatedAmount : ℚ
  apr : ℚ
  timeHorizon : ℚ
  transactionFeesInFarmingToken : ℚ
  amount_pos : 0 < denominatedAmount
  apr_nonneg : 0 ≤ apr
  horizon_pos : 0 < timeHorizon
  fees_nonneg : 0 ≤ transactionFeesInFarmingToken

namespace CompoundTerms

variable (terms : CompoundTerms)

/-- What compounding so many times earns, less the fees. -/
def profit (iterator : ℕ) : ℚ :=
  let rewards := (1 + (terms.apr * terms.timeHorizon) / (365 * iterator)) ^ iterator
  let finalAmount := terms.denominatedAmount * rewards
  finalAmount - terms.denominatedAmount - terms.transactionFeesInFarmingToken * iterator

/-- The greatest profit found and the number of times it takes. -/
def search : ℚ × ℕ := climb terms.profit (compoundIterations - 1) 1 (0, 0)

/-- What the search ends with. -/
def optimalCompound : OptimalCompoundModel :=
  let (optimalProfit, optimalCompoundIterations) := terms.search
  if optimalCompoundIterations = 0 then
    { optimalProfit := 0, interval := 0, days := 0, hours := 0, minutes := 0 }
  else
    let freqDays := terms.timeHorizon / optimalCompoundIterations
    let frequencyHours := (freqDays - ⌊freqDays⌋) * 24
    let frequencyMinutes := (frequencyHours - ⌊frequencyHours⌋) * 60
    { optimalProfit := optimalProfit
      interval := optimalCompoundIterations
      days := ⌊freqDays⌋
      hours := ⌊frequencyHours⌋
      minutes := ⌊frequencyMinutes⌋ }

end CompoundTerms

/-! ## The service -/

structure FarmingToken where
  identifier : String
  decimals : ℕ

/-- What the service asks others. -/
structure CompoundSources where
  stakeFarmAPR : String → ℚ
  getFarmingToken : String → FarmingToken
  tokenPriceDerivedEGLD : String → ℚ
  stakeFarmAPR_nonneg : ∀ stakeAddress, 0 ≤ stakeFarmAPR stakeAddress
  price_pos : ∀ tokenID, 0 < tokenPriceDerivedEGLD tokenID

namespace CompoundSources

variable (sources : CompoundSources)

/-- The terms as the services give them. -/
def terms (stakeAddress : String) (positionAmount : ℕ+) (timeHorizon : {days : ℚ // 0 < days}) :
    CompoundTerms where
  denominatedAmount :=
    positionAmount.val * (1 / 10 ^ (sources.getFarmingToken stakeAddress).decimals)
  apr := sources.stakeFarmAPR stakeAddress
  timeHorizon := timeHorizon.val
  transactionFeesInFarmingToken :=
    COMPOUND_TRANSACTION_FEE *
      (1 / sources.tokenPriceDerivedEGLD (sources.getFarmingToken stakeAddress).identifier)
  amount_pos := mul_pos (Nat.cast_pos.mpr positionAmount.pos) (by positivity)
  apr_nonneg := sources.stakeFarmAPR_nonneg stakeAddress
  horizon_pos := timeHorizon.property
  fees_nonneg := mul_nonneg (by norm_num [COMPOUND_TRANSACTION_FEE])
    (one_div_nonneg.mpr (sources.price_pos _).le)

def computeOptimalCompoundFrequency (stakeAddress : String) (positionAmount : ℕ+)
    (timeHorizon : {days : ℚ // 0 < days}) : OptimalCompoundModel :=
  (sources.terms stakeAddress positionAmount timeHorizon).optimalCompound

end CompoundSources

namespace CompoundTerms

/-! ## The search -/

section Search

variable (terms : CompoundTerms)

/-- The interest of the whole time, if it is paid once. -/
def interest : ℚ := terms.apr * terms.timeHorizon / 365

theorem interest_nonneg : 0 ≤ terms.interest :=
  div_nonneg (mul_nonneg terms.apr_nonneg terms.horizon_pos.le) (by norm_num)

/-- The profit through compound growth. -/
theorem profit_eq (n : ℕ) : terms.profit n =
    terms.denominatedAmount * (growth terms.interest n - 1) -
      terms.transactionFeesInFarmingToken * n := by
  unfold profit growth interest
  rw [div_div]
  ring

theorem profit_zero : terms.profit 0 = 0 := by
  rw [profit_eq]
  simp [growth]

/-- Once more is worth no more than its fee. -/
theorem profit_succ_le_iff (n : ℕ) : terms.profit (n + 1) ≤ terms.profit n ↔
    gain terms.interest n ≤ terms.transactionFeesInFarmingToken / terms.denominatedAmount := by
  rw [le_div_iff₀ terms.amount_pos, profit_eq, profit_eq, Nat.cast_succ]
  unfold gain
  constructor <;> intro h <;> linarith

/-- Once is worth its fee if the interest is. -/
theorem profit_one_pos_iff : 0 < terms.profit 1 ↔
    terms.transactionFeesInFarmingToken < terms.denominatedAmount * terms.interest := by
  rw [profit_eq]
  simp [growth]

/-- The search ends at the first peak. -/
theorem exists_search : ∃ peak, terms.search = (terms.profit peak, peak) ∧
    IsFirstPeak terms.profit 0 (compoundIterations - 1) peak := by
  have hclimb := @climb_spec _ _ terms.profit (compoundIterations - 1) 0
  rw [Nat.zero_add, Nat.zero_add, profit_zero] at hclimb
  exact hclimb

theorem interval_eq : terms.optimalCompound.interval = terms.search.2 := by
  unfold optimalCompound
  dsimp only
  split
  next hzero => exact hzero.symm
  next => rfl

theorem exists_firstPeak : ∃ peak, terms.optimalCompound.interval = peak ∧
    IsFirstPeak terms.profit 0 (compoundIterations - 1) peak := by
  obtain ⟨peak, hsearch, hpeak⟩ := terms.exists_search
  exact ⟨peak, by rw [interval_eq, hsearch], hpeak⟩

end Search

/-! ## The best number of times -/

/-- The smallest of the numbers of times with the greatest profit. -/
structure IsFirstOptimum (terms : CompoundTerms) (n : ℕ) : Prop where
  pos : 1 ≤ n
  lt : n < compoundIterations
  best : ∀ m, 1 ≤ m → m < compoundIterations → terms.profit m ≤ terms.profit n
  first : ∀ m, 1 ≤ m → m < n → terms.profit m < terms.profit n

/-- The number found is the best one, and nothing is found just in case there
is no profit. -/
def Optimal (terms : CompoundTerms) : Prop :=
  (terms.optimalCompound.interval = 0 ↔
    ∀ m, 1 ≤ m → m < compoundIterations → terms.profit m ≤ 0) ∧
  (terms.optimalCompound.interval ≠ 0 → terms.IsFirstOptimum terms.optimalCompound.interval)

variable {terms : CompoundTerms}

/-- Where nothing is worth its fee, not compounding is the best. -/
theorem optimal_of_no_profit
    (h : ∀ m, 1 ≤ m → m < compoundIterations → terms.profit m ≤ 0) : terms.Optimal := by
  obtain ⟨peak, hinterval, hpeak⟩ := terms.exists_firstPeak
  have hzero : terms.optimalCompound.interval = 0 := by
    rw [hinterval, hpeak.eq_start_iff (by decide), profit_zero]
    exact h 1 le_rfl (by decide)
  exact ⟨iff_of_true hzero h, fun hne => absurd hzero hne⟩

/-- A search that starts with a profit ends where no more is worth its fee. -/
theorem optimal_of_first_profit (h : 0 < terms.profit 1) : terms.Optimal := by
  obtain ⟨peak, hinterval, hpeak⟩ := terms.exists_firstPeak
  have hne : peak ≠ 0 := by
    intro hzero
    rw [hpeak.eq_start_iff (by decide), profit_zero] at hzero
    exact absurd h (not_lt.mpr hzero)
  have hstart : terms.transactionFeesInFarmingToken / terms.denominatedAmount <
      gain terms.interest 0 := by
    rw [← not_le, ← profit_succ_le_iff, profit_zero]
    exact not_le.mpr h
  -- the part after the peak is not worth its fee, so no later part is
  have hfalls : ∀ n, peak ≤ n → n < compoundIterations - 1 →
      terms.profit (n + 1) ≤ terms.profit n := by
    intro n hn hlast
    have hstops := hpeak.stops (hn.trans_lt hlast)
    rw [profit_succ_le_iff] at hstops ⊢
    exact gain_le_rat terms.interest_nonneg hstart hstops hn
  have hlast := hpeak.le_last
  have hbound : 0 < compoundIterations := by decide
  refine ⟨iff_of_false (hinterval ▸ hne) fun hnone => ?_, fun _ => ?_⟩
  · exact absurd h (not_lt.mpr (hnone 1 le_rfl (by decide)))
  · rw [hinterval]
    exact {
      pos := Nat.one_le_iff_ne_zero.mpr hne
      lt := by omega
      best := fun m _ hm => hpeak.best_of_falls hfalls (Nat.zero_le m) (by omega)
      first := fun m _ hm => hpeak.lt_peak (Nat.zero_le m) hm }

/-- The search is right just in case it starts with a profit or there is none. -/
theorem optimal_iff (terms : CompoundTerms) : terms.Optimal ↔
    terms.transactionFeesInFarmingToken < terms.denominatedAmount * terms.interest ∨
      ∀ m, 1 ≤ m → m < compoundIterations → terms.profit m ≤ 0 := by
  constructor
  · intro hoptimal
    by_cases hfirst : 0 < terms.profit 1
    · exact Or.inl (terms.profit_one_pos_iff.mp hfirst)
    · right
      obtain ⟨peak, hinterval, hpeak⟩ := terms.exists_firstPeak
      refine hoptimal.1.mp ?_
      rw [hinterval, hpeak.eq_start_iff (by decide), profit_zero]
      exact not_lt.mp hfirst
  · rintro (hfees | hnone)
    · exact optimal_of_first_profit (terms.profit_one_pos_iff.mpr hfees)
    · exact optimal_of_no_profit hnone

/-- Up to fourfold interest, compounding more often is not worth its fees if
once is not. -/
theorem optimal_of_interest_le (h : terms.interest ≤ 4) : terms.Optimal := by
  by_cases hfirst : 0 < terms.profit 1
  · exact optimal_of_first_profit hfirst
  · have hfees : terms.interest ≤
        terms.transactionFeesInFarmingToken / terms.denominatedAmount := by
      rw [← gain_zero terms.interest, ← profit_succ_le_iff, profit_zero]
      exact not_lt.mp hfirst
    -- no part is worth more than the first one
    have hnone : ∀ m, terms.profit m ≤ 0 := by
      intro m
      induction m with
      | zero => exact (profit_zero terms).le
      | succ m ih =>
        refine le_trans ?_ ih
        rw [profit_succ_le_iff]
        exact (gain_le_of_le_four terms.interest_nonneg h m).trans hfees
    exact optimal_of_no_profit fun m _ _ => hnone m

/-! ## A profit that comes late -/

/-- A fee of one token, and an annual percentage of 500. -/
def lateSources : CompoundSources where
  stakeFarmAPR _ := 5
  getFarmingToken _ := { identifier := "MEX-455c57", decimals := 18 }
  tokenPriceDerivedEGLD _ := COMPOUND_TRANSACTION_FEE
  stakeFarmAPR_nonneg _ := by norm_num
  price_pos _ := by norm_num [COMPOUND_TRANSACTION_FEE]

/-- 0.19 tokens for a year. -/
def late : CompoundTerms := lateSources.terms "stake" 190000000000000000 ⟨365, by norm_num⟩

/-- Once is a loss, twice would be a profit, and nothing is found. -/
theorem not_optimal_late : ¬late.Optimal := by
  have hnothing : late.optimalCompound.interval = 0 := by decide +kernel
  have hprofit : 0 < late.profit 2 := by decide +kernel
  intro hoptimal
  exact absurd hprofit (not_lt.mpr (hoptimal.1.mp hnothing 2 (by decide) (by decide)))

/-! ## Days, hours and minutes -/

/-- What is left over in the smaller unit, of which `k` make one. -/
theorem rest_bounds (q : ℚ) {k : ℕ} (hk : 0 < k) :
    0 ≤ ⌊(q - ⌊q⌋) * k⌋ ∧ ⌊(q - ⌊q⌋) * k⌋ < k := by
  have hpos : (0 : ℚ) < k := Nat.cast_pos.mpr hk
  constructor
  · exact Int.floor_nonneg.mpr (mul_nonneg (Int.fract_nonneg q) hpos.le)
  · rw [Int.floor_lt]
    have hlt := mul_lt_mul_of_pos_right (Int.fract_lt_one q) hpos
    rw [one_mul] at hlt
    exact hlt

/-- The time between two compounds, down to the minute. -/
theorem optimalCompound_time (terms : CompoundTerms) (h : terms.optimalCompound.interval ≠ 0) :
    let model := terms.optimalCompound
    let time : ℚ := model.days + (model.hours + (model.minutes : ℚ) / 60) / 24
    0 ≤ model.days ∧ (0 ≤ model.hours ∧ model.hours < 24) ∧
      (0 ≤ model.minutes ∧ model.minutes < 60) ∧
      time ≤ terms.timeHorizon / model.interval ∧
      terms.timeHorizon / model.interval < time + 1 / 60 / 24 := by
  have hne : terms.search.2 ≠ 0 := by rwa [← interval_eq]
  unfold optimalCompound
  dsimp only
  rw [if_neg hne]
  dsimp only
  have hfreq : 0 ≤ terms.timeHorizon / terms.search.2 :=
    div_nonneg terms.horizon_pos.le (Nat.cast_nonneg _)
  generalize terms.timeHorizon / terms.search.2 = freqDays at hfreq ⊢
  have hhours := rest_bounds freqDays (show 0 < 24 by decide)
  have hminutes := rest_bounds ((freqDays - ⌊freqDays⌋) * 24) (show 0 < 60 by decide)
  refine ⟨Int.floor_nonneg.mpr hfreq, hhours, hminutes, ?_, ?_⟩
  · have hle := Int.floor_le (((freqDays - ⌊freqDays⌋) * 24 - ⌊(freqDays - ⌊freqDays⌋) * 24⌋) * 60)
    linarith
  · have hlt := Int.lt_floor_add_one
      (((freqDays - ⌊freqDays⌋) * 24 - ⌊(freqDays - ⌊freqDays⌋) * 24⌋) * 60)
    linarith

/-- The position of the test, with 0.1 tokens for a fee. -/
def tested : CompoundTerms where
  denominatedAmount := 1000
  apr := 1 / 10
  timeHorizon := 365
  transactionFeesInFarmingToken := 1 / 10
  amount_pos := by norm_num
  apr_nonneg := by norm_num
  horizon_pos := by norm_num
  fees_nonneg := by norm_num

example : tested.optimalCompound.interval = 7 ∧ tested.optimalCompound.days = 52 ∧
    tested.optimalCompound.hours = 3 ∧ tested.optimalCompound.minutes = 25 := by
  decide +kernel

end CompoundTerms

end MxExchange.Staking
