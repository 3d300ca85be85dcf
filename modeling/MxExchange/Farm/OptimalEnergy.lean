import Mathlib.Data.Int.ConditionallyCompleteOrder
import MxExchange.Farm.BoostedRewards
import MxExchange.Staking.StakingCompute

/-!
# `farm.v2.compute.service.ts`: the optimal energy

A boosted payment grows with the user's energy up to a cap. `optimalEnergyPerLP`
tells how much energy a unit of liquidity needs to reach it, by a formula of its
own: the energy at which both sides of the minimum are equal.

The two agree where all divisions are exact (`boosted_sub_cap`). The program's
divisions keep twenty decimals, and the optimum that it returns is a whole
number: either moves the point where the cap is reached (`not_saturates_samples`).
Neither makes a payment shrink as the energy grows (`nonDecreasing`).
-/

namespace MxExchange.Farm

open MxExchange.Num WeeklyRewards
open Staking (Division)

/-- The service, with its divisions as a parameter. -/
structure FarmComputeServiceV2 where
  division : Division
  farmAbi : FarmAbiServiceV2
  weeklyRewardsSplittingAbi : WeeklyRewardsSplittingAbiService

namespace FarmComputeServiceV2

variable (service : FarmComputeServiceV2) (scAddress : String)

/-- `computeUserMaxRewards`: the most a user can be paid for some blocks. -/
def userMaxRewards (liquidity : BigNumber) (blocks : ℕ) : BigNumber :=
  let userMaxBoostedRewardsPerBlock :=
    service.division.dividedBy
      ((service.division.dividedBy
        ((BigNumber.ofNat (service.farmAbi.rewardsPerBlock scAddress)).multipliedBy
          (.ofNat (service.farmAbi.boostedYieldsRewardsPercenatage scAddress)))
        (.ofNat MAX_PERCENT)).multipliedBy liquidity)
      (.ofNat (service.farmAbi.farmTokenSupply scAddress))
  ((BigNumber.ofNat (service.farmAbi.boostedYieldsFactors scAddress).maxRewardsFactor).multipliedBy
    userMaxBoostedRewardsPerBlock).multipliedBy (.ofNat blocks)

/-- `computeBoostedRewardAmount`: the part by energy and the part by liquidity,
weighted by the factors. -/
def boostedRewardAmount (totalRewards : ℕ) (userEnergy : ℤ) (totalEnergy : ℕ)
    (liquidity : BigNumber) : BigNumber :=
  let boostedYieldsFactors := service.farmAbi.boostedYieldsFactors scAddress
  let boostedRewardsByEnergy :=
    service.division.dividedBy
      (((BigNumber.ofNat totalRewards).multipliedBy
        (.ofNat boostedYieldsFactors.userRewardsEnergy)).multipliedBy (.fin userEnergy))
      (.ofNat totalEnergy)
  let boostedRewardsByTokens :=
    service.division.dividedBy
      (((BigNumber.ofNat totalRewards).multipliedBy
        (.ofNat boostedYieldsFactors.userRewardsFarm)).multipliedBy liquidity)
      (.ofNat (service.farmAbi.farmTokenSupply scAddress))
  let constantsBase :=
    (BigNumber.ofNat boostedYieldsFactors.userRewardsEnergy).plus
      (.ofNat boostedYieldsFactors.userRewardsFarm)
  service.division.dividedBy (boostedRewardsByEnergy.plus boostedRewardsByTokens) constantsBase

/-- `userHasMinEnergy` and `userMinFarmAmount`. -/
def HasMinimums (userEnergy : ℤ) (liquidity : BigNumber) : Prop :=
  (BigNumber.fin userEnergy).isGreaterThan
      (.ofNat (service.farmAbi.boostedYieldsFactors scAddress).minEnergyAmount) = true ∧
    liquidity.isGreaterThan
      (.ofNat (service.farmAbi.boostedYieldsFactors scAddress).minFarmAmount) = true

instance (userEnergy : ℤ) (liquidity : BigNumber) :
    Decidable (service.HasMinimums scAddress userEnergy liquidity) :=
  inferInstanceAs (Decidable (_ ∧ _))

/-- What is paid of a week's reward, before it is made a whole number. -/
def payment (week totalRewards : ℕ) (userEnergy : ℤ) (liquidity : BigNumber) : BigNumber :=
  if service.HasMinimums scAddress userEnergy liquidity then
    paymentAmount
      (service.boostedRewardAmount scAddress totalRewards userEnergy
        (service.weeklyRewardsSplittingAbi.totalEnergyForWeek scAddress week) liquidity)
      (service.userMaxRewards scAddress liquidity BLOCKS_PER_WEEK)
  else .ofNat 0

/-- The optimum before it is made a whole number. -/
def optimalEnergy (week : ℕ) : BigNumber :=
  let factors := service.farmAbi.boostedYieldsFactors scAddress
  let optimisationConstant :=
    service.division.dividedBy
      (((BigNumber.ofNat factors.maxRewardsFactor).multipliedBy
        ((BigNumber.ofNat factors.userRewardsFarm).plus
          (.ofNat factors.userRewardsEnergy))).minus (.ofNat factors.userRewardsFarm))
      (.ofNat factors.userRewardsEnergy)
  service.division.dividedBy
    (optimisationConstant.multipliedBy
      (.ofNat (service.weeklyRewardsSplittingAbi.totalEnergyForWeek scAddress week)))
    (.ofNat (service.farmAbi.farmTokenSupply scAddress))

/-- `optimalEnergyPerLP`, made a whole number. -/
def computeOptimalEnergyPerLP (week : ℕ) : BigNumber :=
  (service.optimalEnergy scAddress week).integerValue

end FarmComputeServiceV2

/-- What a user gets of a week's rewards, in whole units. -/
def FarmComputeServiceV2.wholePayments (service : FarmComputeServiceV2) (scAddress : String)
    (week : ℕ) (userEnergy : ℤ) (liquidity : BigNumber) (rewards : List (EsdtTokenPayment ℕ)) :
    List (EsdtTokenPayment BigNumber) :=
  if service.HasMinimums scAddress userEnergy liquidity then
    rewards.filterMap fun weeklyRewards =>
      let amount := service.payment scAddress week weeklyRewards.amount userEnergy liquidity
      if amount.isPositive then
        some ⟨weeklyRewards.tokenType, weeklyRewards.tokenID, 0, amount.integerValue⟩
      else none
  else []

/-- With the divisions of the library these are the payments that
`computeUserRewardsForWeek` emits. -/
theorem computeUserRewardsForWeek_eq_wholePayments (farmAbi : FarmAbiServiceV2)
    (abi : WeeklyRewardsSplittingAbiService) (scAddress userAddress : String) (week : ℕ)
    (liquidity : BigNumber) :
    computeUserRewardsForWeek farmAbi abi scAddress userAddress week liquidity =
      FarmComputeServiceV2.wholePayments ⟨.library, farmAbi, abi⟩ scAddress week
        (abi.userEnergyForWeek scAddress userAddress week).amount liquidity
        (abi.totalRewardsForWeek scAddress week) := by
  rw [FarmComputeServiceV2.wholePayments]
  by_cases h : FarmComputeServiceV2.HasMinimums ⟨.library, farmAbi, abi⟩ scAddress
      (abi.userEnergyForWeek scAddress userAddress week).amount liquidity
  · rw [if_pos h, computeUserRewardsForWeek, if_neg (not_not.mpr h.1), if_neg (not_not.mpr h.2)]
    -- with the minimums reached both run over the same rewards
    have hpayment : ∀ amount, FarmComputeServiceV2.payment ⟨.library, farmAbi, abi⟩ scAddress week
        amount (abi.userEnergyForWeek scAddress userAddress week).amount liquidity =
        paymentAmount
          (boostedRewardAmount farmAbi scAddress amount
            (abi.userEnergyForWeek scAddress userAddress week).amount
            (abi.totalEnergyForWeek scAddress week) liquidity)
          (userMaxRewards farmAbi scAddress liquidity BLOCKS_PER_WEEK) := fun _ => if_pos h
    split
    next hnone => rw [List.eq_nil_of_length_eq_zero hnone, List.filterMap_nil]
    next =>
      simp only [hpayment]
      rfl
  · -- below one of the minimums the source returns before it looks at the rewards
    rw [if_neg h, computeUserRewardsForWeek]
    split
    next => rfl
    next henergy =>
      split
      next => rfl
      next hfarm => exact absurd ⟨not_not.mp henergy, not_not.mp hfarm⟩ h

/-! ## A week with the optimum's rewards -/

/-- A week's reward that is what the farm yields in its blocks, for a user's
liquidity. Factors and totals are positive. -/
structure OptimalWeek where
  farmAbi : FarmAbiServiceV2
  abi : WeeklyRewardsSplittingAbiService
  scAddress : String
  week : ℕ
  totalRewards : ℕ
  liquidity : ℕ
  rewardsFarm_pos : 0 < (farmAbi.boostedYieldsFactors scAddress).userRewardsFarm
  rewardsEnergy_pos : 0 < (farmAbi.boostedYieldsFactors scAddress).userRewardsEnergy
  totalEnergy_pos : 0 < abi.totalEnergyForWeek scAddress week
  farmTokenSupply_pos : 0 < farmAbi.farmTokenSupply scAddress
  totalRewards_pos : 0 < totalRewards
  totalRewards_eq : totalRewards * MAX_PERCENT =
    farmAbi.rewardsPerBlock scAddress * farmAbi.boostedYieldsRewardsPercenatage scAddress *
      BLOCKS_PER_WEEK

namespace OptimalWeek

variable (week : OptimalWeek) (division : Division)

def service : FarmComputeServiceV2 := ⟨division, week.farmAbi, week.abi⟩

def payment (userEnergy : ℤ) : BigNumber :=
  (week.service division).payment week.scAddress week.week week.totalRewards userEnergy
    (.ofNat week.liquidity)

def HasMinimums (userEnergy : ℤ) : Prop :=
  (week.service division).HasMinimums week.scAddress userEnergy (.ofNat week.liquidity)

/-- More energy, no smaller payment. -/
def NonDecreasing : Prop := ∃ payment : ℤ → ℚ,
  (∀ userEnergy, week.payment division userEnergy = .fin (payment userEnergy)) ∧ Monotone payment

/-- The payments that the source emits for this week and liquidity are these. -/
def IsSource : Prop := ∀ userAddress,
  computeUserRewardsForWeek week.farmAbi week.abi week.scAddress userAddress week.week
      (.ofNat week.liquidity) =
    (week.service division).wholePayments week.scAddress week.week
      (week.abi.userEnergyForWeek week.scAddress userAddress week.week).amount
      (.ofNat week.liquidity) (week.abi.totalRewardsForWeek week.scAddress week.week)

/-- Below so much energy for a unit of liquidity a payment is below the cap,
and from there on it is the cap. -/
def SaturatesAt (energyPerLP : ℚ) : Prop := ∃ cap : ℚ,
  (week.service division).userMaxRewards week.scAddress (.ofNat week.liquidity) BLOCKS_PER_WEEK =
      .fin cap ∧
    ∀ userEnergy : ℤ, week.HasMinimums division userEnergy →
      ((userEnergy : ℚ) < energyPerLP * week.liquidity →
        ∃ amount, week.payment division userEnergy = .fin amount ∧ amount < cap) ∧
      (energyPerLP * week.liquidity ≤ userEnergy → week.payment division userEnergy = .fin cap)

/-! In rationals. -/

/-- The factors and totals, as rationals. -/
def userRewardsFarm : ℚ := (week.farmAbi.boostedYieldsFactors week.scAddress).userRewardsFarm

def userRewardsEnergy : ℚ := (week.farmAbi.boostedYieldsFactors week.scAddress).userRewardsEnergy

def maxRewardsFactor : ℚ := (week.farmAbi.boostedYieldsFactors week.scAddress).maxRewardsFactor

def totalEnergy : ℚ := week.abi.totalEnergyForWeek week.scAddress week.week

def farmTokenSupply : ℚ := week.farmAbi.farmTokenSupply week.scAddress

def rewardsPerBlock : ℚ :=
  week.farmAbi.rewardsPerBlock week.scAddress *
    week.farmAbi.boostedYieldsRewardsPercenatage week.scAddress

/-- The right-hand side of the minimum. -/
def cap : ℚ :=
  week.maxRewardsFactor *
    division.quotient (division.quotient week.rewardsPerBlock MAX_PERCENT * week.liquidity)
      week.farmTokenSupply * BLOCKS_PER_WEEK

/-- The left-hand side, for an energy that need not be whole. -/
def boosted (userEnergy : ℚ) : ℚ :=
  division.quotient
    (division.quotient (week.totalRewards * week.userRewardsEnergy * userEnergy) week.totalEnergy +
      division.quotient (week.totalRewards * week.userRewardsFarm * week.liquidity)
        week.farmTokenSupply)
    (week.userRewardsEnergy + week.userRewardsFarm)

/-- Where the formula has the two sides equal. -/
def optimum : ℚ :=
  division.quotient
    (division.quotient
      (week.maxRewardsFactor * (week.userRewardsFarm + week.userRewardsEnergy) -
        week.userRewardsFarm) week.userRewardsEnergy * week.totalEnergy)
    week.farmTokenSupply

theorem userRewardsFarm_pos : 0 < week.userRewardsFarm := Nat.cast_pos.mpr week.rewardsFarm_pos

theorem userRewardsEnergy_pos : 0 < week.userRewardsEnergy :=
  Nat.cast_pos.mpr week.rewardsEnergy_pos

theorem totalEnergy_cast_pos : 0 < week.totalEnergy := Nat.cast_pos.mpr week.totalEnergy_pos

theorem supply_pos : 0 < week.farmTokenSupply := Nat.cast_pos.mpr week.farmTokenSupply_pos

theorem maxPercent_ne_zero : (MAX_PERCENT : ℚ) ≠ 0 := Nat.cast_ne_zero.mpr (by decide)

/-- The most a user can be paid does not depend on the energy. -/
theorem userMaxRewards_eq :
    (week.service division).userMaxRewards week.scAddress (.ofNat week.liquidity)
      BLOCKS_PER_WEEK = .fin (week.cap division) := by
  have hsupply : ((week.farmAbi.farmTokenSupply week.scAddress : ℕ) : ℚ) ≠ 0 := week.supply_pos.ne'
  simp only [FarmComputeServiceV2.userMaxRewards, service, BigNumber.ofNat,
    BigNumber.multipliedBy_fin, division.dividedBy_fin _ maxPercent_ne_zero,
    division.dividedBy_fin _ hsupply]
  rfl

/-- The weighted parts, in rationals. -/
theorem boostedRewardAmount_eq (userEnergy : ℤ) :
    (week.service division).boostedRewardAmount week.scAddress week.totalRewards userEnergy
      (week.abi.totalEnergyForWeek week.scAddress week.week) (.ofNat week.liquidity) =
        .fin (week.boosted division userEnergy) := by
  have hsupply : ((week.farmAbi.farmTokenSupply week.scAddress : ℕ) : ℚ) ≠ 0 := week.supply_pos.ne'
  have henergy : ((week.abi.totalEnergyForWeek week.scAddress week.week : ℕ) : ℚ) ≠ 0 :=
    week.totalEnergy_cast_pos.ne'
  have hbase : (((week.farmAbi.boostedYieldsFactors week.scAddress).userRewardsEnergy : ℕ) : ℚ) +
      ((week.farmAbi.boostedYieldsFactors week.scAddress).userRewardsFarm : ℕ) ≠ 0 :=
    (add_pos week.userRewardsEnergy_pos week.userRewardsFarm_pos).ne'
  simp only [FarmComputeServiceV2.boostedRewardAmount, service, BigNumber.ofNat,
    BigNumber.multipliedBy_fin, division.dividedBy_fin _ hsupply,
    division.dividedBy_fin _ henergy, BigNumber.plus_fin, division.dividedBy_fin _ hbase]
  rfl

/-- The formula of the optimum, in rationals. -/
theorem optimalEnergy_eq :
    (week.service division).optimalEnergy week.scAddress week.week =
      .fin (week.optimum division) := by
  have hsupply : ((week.farmAbi.farmTokenSupply week.scAddress : ℕ) : ℚ) ≠ 0 := week.supply_pos.ne'
  have henergy : (((week.farmAbi.boostedYieldsFactors week.scAddress).userRewardsEnergy : ℕ) : ℚ) ≠
      0 := week.userRewardsEnergy_pos.ne'
  simp only [FarmComputeServiceV2.optimalEnergy, service, BigNumber.ofNat,
    BigNumber.multipliedBy_fin, BigNumber.plus_fin, BigNumber.minus_fin,
    division.dividedBy_fin _ henergy, division.dividedBy_fin _ hsupply]
  rfl

/-- The payment is the smaller of the two sides. -/
theorem paymentAmount_fin (a b : ℚ) : paymentAmount (.fin a) (.fin b) = .fin (min a b) := by
  unfold paymentAmount
  split
  next hle => rw [min_eq_left ((BigNumber.comparedTo_fin_lt_one a b).mp hle)]
  next hgt =>
    rw [min_eq_right (le_of_not_ge fun hle => hgt ((BigNumber.comparedTo_fin_lt_one a b).mpr hle))]

/-- With enough energy and liquidity the payment is the minimum. -/
theorem payment_of_hasMinimums {userEnergy : ℤ} (h : week.HasMinimums division userEnergy) :
    week.payment division userEnergy =
      .fin (min (week.boosted division userEnergy) (week.cap division)) := by
  have hpayment : week.payment division userEnergy = paymentAmount _ _ := if_pos h
  -- both sides of the minimum are finite, as no total is zero
  rw [hpayment, week.userMaxRewards_eq]
  exact (congrArg (paymentAmount · _) (week.boostedRewardAmount_eq division userEnergy)).trans
    (paymentAmount_fin _ _)

/-- The minimums are strict, and compared without rounding. -/
theorem hasMinimums_iff (userEnergy : ℤ) : week.HasMinimums division userEnergy ↔
    (((week.farmAbi.boostedYieldsFactors week.scAddress).minEnergyAmount : ℕ) : ℚ) < userEnergy ∧
      (((week.farmAbi.boostedYieldsFactors week.scAddress).minFarmAmount : ℕ) : ℚ) <
        week.liquidity := by
  unfold HasMinimums FarmComputeServiceV2.HasMinimums BigNumber.ofNat
  rw [BigNumber.isGreaterThan_fin, BigNumber.isGreaterThan_fin, decide_eq_true_iff,
    decide_eq_true_iff]
  exact Iff.rfl

/-! ## More energy -/

/-- The quotients do not decrease with what is divided. -/
def MonoDivision : Prop := ∀ ⦃a b c : ℚ⦄, 0 ≤ a → a ≤ b → 0 < c →
  division.quotient a c ≤ division.quotient b c

/-- Cutting off decimals keeps the order of quotients. -/
theorem monoDivision_library : MonoDivision .library := fun _ _ _ ha hab hc =>
  truncatePlaces_mono (div_nonneg ha hc.le) (div_le_div_of_nonneg_right hab hc.le)

/-- Exact quotients are in the order of what is divided. -/
theorem monoDivision_exact : MonoDivision .exact := fun _ _ _ _ hab hc =>
  div_le_div_of_nonneg_right hab hc.le

theorem cap_nonneg : 0 ≤ week.cap division := by
  unfold cap maxRewardsFactor
  have hblock : 0 ≤ week.rewardsPerBlock := by
    unfold rewardsPerBlock
    positivity
  have hpercent := division.quotient_nonneg hblock (Nat.cast_nonneg MAX_PERCENT)
  have hpart := division.quotient_nonneg
    (mul_nonneg hpercent (Nat.cast_nonneg week.liquidity)) week.supply_pos.le
  positivity

variable {division}

theorem boosted_nonneg {userEnergy : ℚ} (h : 0 ≤ userEnergy) :
    0 ≤ week.boosted division userEnergy := by
  have hrewards : (0 : ℚ) ≤ week.totalRewards := Nat.cast_nonneg _
  have hliquidity : (0 : ℚ) ≤ week.liquidity := Nat.cast_nonneg _
  have hbyEnergy := division.quotient_nonneg
    (mul_nonneg (mul_nonneg hrewards week.userRewardsEnergy_pos.le) h) week.totalEnergy_cast_pos.le
  have hbyTokens := division.quotient_nonneg
    (mul_nonneg (mul_nonneg hrewards week.userRewardsFarm_pos.le) hliquidity) week.supply_pos.le
  exact division.quotient_nonneg (add_nonneg hbyEnergy hbyTokens)
    (add_pos week.userRewardsEnergy_pos week.userRewardsFarm_pos).le

/-- More energy, no smaller left-hand side. -/
theorem boosted_mono (hmono : MonoDivision division) {p q : ℚ} (hp : 0 ≤ p) (h : p ≤ q) :
    week.boosted division p ≤ week.boosted division q := by
  have hrewards : (0 : ℚ) ≤ week.totalRewards := Nat.cast_nonneg _
  -- only the part by energy changes, and every quotient keeps the order
  have hliquidity : (0 : ℚ) ≤ week.liquidity := Nat.cast_nonneg _
  have hfactor := mul_nonneg hrewards week.userRewardsEnergy_pos.le
  have hbyEnergy := hmono (mul_nonneg hfactor hp) (mul_le_mul_of_nonneg_left h hfactor)
    week.totalEnergy_cast_pos
  have hbyTokens := division.quotient_nonneg
    (mul_nonneg (mul_nonneg hrewards week.userRewardsFarm_pos.le) hliquidity) week.supply_pos.le
  refine hmono ?_ (add_le_add_left hbyEnergy _)
    (add_pos week.userRewardsEnergy_pos week.userRewardsFarm_pos)
  exact add_nonneg (division.quotient_nonneg (mul_nonneg hfactor hp)
    week.totalEnergy_cast_pos.le) hbyTokens

/-- Energy above the minimum is not negative. -/
theorem energy_nonneg_of_hasMinimums {userEnergy : ℤ} (h : week.HasMinimums division userEnergy) :
    (0 : ℚ) ≤ userEnergy :=
  (Nat.cast_nonneg _).trans ((week.hasMinimums_iff division userEnergy).mp h).1.le

/-- The payment never shrinks as the energy grows, with either division. -/
theorem nonDecreasing (hmono : MonoDivision division) : week.NonDecreasing division := by
  classical
  refine ⟨fun userEnergy => if week.HasMinimums division userEnergy then
    min (week.boosted division userEnergy) (week.cap division) else 0, ?_, ?_⟩
  · intro userEnergy
    dsimp only
    split
    next h => exact week.payment_of_hasMinimums division h
    next h => exact if_neg h
  · intro less more hle
    -- with less energy the user may be below the minimum, and is paid nothing then
    have hcast : (less : ℚ) ≤ more := Int.cast_le.mpr hle
    dsimp only
    split
    next hless =>
      obtain ⟨henergy, hfarm⟩ := (week.hasMinimums_iff division less).mp hless
      have hmore : week.HasMinimums division more :=
        (week.hasMinimums_iff division more).mpr ⟨henergy.trans_le hcast, hfarm⟩
      rw [if_pos hmore]
      exact min_le_min_right _
        (week.boosted_mono hmono (week.energy_nonneg_of_hasMinimums hless) hcast)
    next =>
      split
      next hmore =>
        exact le_min (week.boosted_nonneg (week.energy_nonneg_of_hasMinimums hmore))
          (week.cap_nonneg division)
      next => exact le_rfl

/-! ## Up to the cap -/

/-- What an exact payment is short of the cap is proportional to what the
energy is short of the optimum, also where the optimum is zero or negative. -/
theorem boosted_sub_cap (userEnergy : ℚ) :
    week.boosted .exact userEnergy - week.cap .exact =
      week.totalRewards * week.userRewardsEnergy /
          (week.totalEnergy * (week.userRewardsEnergy + week.userRewardsFarm)) *
        (userEnergy - week.optimum .exact * week.liquidity) := by
  have hA := week.userRewardsFarm_pos
  have hB := week.userRewardsEnergy_pos
  have hE := week.totalEnergy_cast_pos
  have hF := week.supply_pos
  have hbase : week.userRewardsEnergy + week.userRewardsFarm ≠ 0 := (add_pos hB hA).ne'
  have hyield : week.rewardsPerBlock / MAX_PERCENT * BLOCKS_PER_WEEK = week.totalRewards := by
    rw [div_mul_eq_mul_div, div_eq_iff maxPercent_ne_zero, rewardsPerBlock]
    exact_mod_cast week.totalRewards_eq.symm
  have hcap : week.cap .exact =
      week.maxRewardsFactor * week.totalRewards * week.liquidity / week.farmTokenSupply := by
    rw [← hyield]
    show week.maxRewardsFactor * (week.rewardsPerBlock / MAX_PERCENT * week.liquidity /
      week.farmTokenSupply) * BLOCKS_PER_WEEK = _
    ring
  rw [hcap]
  show (week.totalRewards * week.userRewardsEnergy * userEnergy / week.totalEnergy +
      week.totalRewards * week.userRewardsFarm * week.liquidity / week.farmTokenSupply) /
        (week.userRewardsEnergy + week.userRewardsFarm) - _ =
    _ * (userEnergy - (week.maxRewardsFactor * (week.userRewardsFarm + week.userRewardsEnergy) -
      week.userRewardsFarm) / week.userRewardsEnergy * week.totalEnergy / week.farmTokenSupply *
        week.liquidity)
  -- multiplied out, both sides are the same polynomial
  field_simp
  ring

/-- Energy counts: the left-hand side grows by a positive rate. -/
theorem slope_pos : 0 < week.totalRewards * week.userRewardsEnergy /
    (week.totalEnergy * (week.userRewardsEnergy + week.userRewardsFarm)) := by
  have hrewards : (0 : ℚ) < week.totalRewards := Nat.cast_pos.mpr week.totalRewards_pos
  have hbase := add_pos week.userRewardsEnergy_pos week.userRewardsFarm_pos
  exact div_pos (mul_pos hrewards week.userRewardsEnergy_pos)
    (mul_pos week.totalEnergy_cast_pos hbase)

/-- With exact divisions the cap is reached at the optimum and not before. -/
theorem saturatesAt_optimum : week.SaturatesAt .exact (week.optimum .exact) := by
  refine ⟨_, week.userMaxRewards_eq .exact, fun userEnergy hminimums => ⟨?_, ?_⟩⟩
  · intro hbelow
    have hshort := mul_neg_of_pos_of_neg week.slope_pos (sub_neg.mpr hbelow)
    rw [← week.boosted_sub_cap] at hshort
    exact ⟨_, week.payment_of_hasMinimums .exact hminimums,
      (min_le_left _ _).trans_lt (sub_neg.mp hshort)⟩
  · intro habove
    have hover := mul_nonneg week.slope_pos.le (sub_nonneg.mpr habove)
    rw [← week.boosted_sub_cap] at hover
    rw [week.payment_of_hasMinimums .exact hminimums, min_eq_right (sub_nonneg.mp hover)]

/-- **The optimum is where the cap is reached.** The program's payments do not
decrease either; its optimum is this one, made a whole number. -/
theorem payment_saturates :
    week.IsSource .library ∧ week.NonDecreasing .library ∧ week.NonDecreasing .exact ∧
      ∃ energyPerLP : ℚ, week.SaturatesAt .exact energyPerLP ∧
        (week.service .exact).optimalEnergy week.scAddress week.week = .fin energyPerLP ∧
        (week.service .exact).computeOptimalEnergyPerLP week.scAddress week.week =
          .fin (truncate energyPerLP) := by
  refine ⟨fun _ => computeUserRewardsForWeek_eq_wholePayments .., ?_⟩
  refine ⟨week.nonDecreasing monoDivision_library, week.nonDecreasing monoDivision_exact,
    week.optimum .exact, week.saturatesAt_optimum, week.optimalEnergy_eq .exact, ?_⟩
  rw [FarmComputeServiceV2.computeOptimalEnergyPerLP, week.optimalEnergy_eq]
  rfl

/-- A payment that is the cap too early. -/
theorem not_saturatesAt_of_early (userEnergy : ℤ) {energyPerLP cap : ℚ}
    (hminimums : week.HasMinimums division userEnergy)
    (hbelow : (userEnergy : ℚ) < energyPerLP * week.liquidity)
    (hcap : (week.service division).userMaxRewards week.scAddress (.ofNat week.liquidity)
      BLOCKS_PER_WEEK = .fin cap)
    (hpayment : week.payment division userEnergy = .fin cap) :
    ¬week.SaturatesAt division energyPerLP := by
  rintro ⟨cap', hcap', hsaturates⟩
  obtain ⟨amount, hamount, hlt⟩ := (hsaturates userEnergy hminimums).1 hbelow
  rw [hcap] at hcap'
  rw [hpayment] at hamount
  cases hcap'
  cases hamount
  exact lt_irrefl _ hlt

/-- A payment that is not the cap yet. -/
theorem not_saturatesAt_of_late (userEnergy : ℤ) {energyPerLP : ℚ}
    (hminimums : week.HasMinimums division userEnergy)
    (habove : energyPerLP * week.liquidity ≤ userEnergy)
    (hpayment : week.payment division userEnergy ≠
      (week.service division).userMaxRewards week.scAddress (.ofNat week.liquidity)
        BLOCKS_PER_WEEK) :
    ¬week.SaturatesAt division energyPerLP := by
  rintro ⟨cap, hcap, hsaturates⟩
  exact hpayment (((hsaturates userEnergy hminimums).2 habove).trans hcap.symm)

end OptimalWeek

/-! ## Where whole numbers and decimals move it -/

/-- All factors one, a hundred tokens a block, all of them for boosted rewards. -/
def sampleWeek (farmTokenSupply totalEnergy liquidity : ℕ) (hsupply : 0 < farmTokenSupply)
    (henergy : 0 < totalEnergy) : OptimalWeek where
  farmAbi :=
    { boostedYieldsFactors := fun _ => ⟨1, 1, 1, 0, 0⟩
      boostedYieldsRewardsPercenatage := fun _ => MAX_PERCENT
      rewardsPerBlock := fun _ => 100
      farmTokenSupply := fun _ => farmTokenSupply
      accumulatedRewardsForWeek := fun _ _ => 0 }
  abi :=
    { totalRewardsForWeek := fun _ _ => []
      userEnergyForWeek := fun _ _ _ => ⟨0, 0, 0⟩
      totalEnergyForWeek := fun _ _ => totalEnergy
      getCurrentClaimProgress := fun _ _ => ⟨false, "", none⟩ }
  scAddress := "farm"
  week := 1
  totalRewards := 100 * BLOCKS_PER_WEEK
  liquidity := liquidity
  rewardsFarm_pos := Nat.one_pos
  rewardsEnergy_pos := Nat.one_pos
  totalEnergy_pos := henergy
  farmTokenSupply_pos := hsupply
  totalRewards_pos := by decide
  totalRewards_eq := Nat.mul_right_comm _ _ _

/-- Half a unit of energy for a unit of liquidity: none, as it is returned. -/
def halfWeek : OptimalWeek := sampleWeek 8 4 4 (Nat.succ_pos 7) (Nat.succ_pos 3)

/-- A third of the rewards, of which the cap loses more decimals than the average,
and so much energy that one unit of it does not matter. -/
def thirdWeek : OptimalWeek :=
  sampleWeek 3 (3 * 10 ^ 30) 1 (Nat.succ_pos 2)
    (Nat.mul_pos (Nat.succ_pos 2) (Nat.pow_pos (Nat.succ_pos 9)))

/-- In the first week the user with one unit of energy for four of liquidity is
under the cap, though the optimum is returned as zero; in the second one the
program's payment is the cap below the optimum. -/
theorem not_saturates_samples :
    ((halfWeek.service .library).computeOptimalEnergyPerLP "farm" 1 = .fin 0 ∧
      ¬halfWeek.SaturatesAt .exact 0 ∧ ¬halfWeek.SaturatesAt .library 0) ∧
    ((thirdWeek.service .library).computeOptimalEnergyPerLP "farm" 1 = .fin (10 ^ 30) ∧
      ¬thirdWeek.SaturatesAt .library (10 ^ 30)) := by
  have hhalf : ∀ division, halfWeek.HasMinimums division 1 := fun _ => ⟨rfl, rfl⟩
  have habove : 0 * (halfWeek.liquidity : ℚ) ≤ ((1 : ℤ) : ℚ) := by
    rw [zero_mul]
    norm_num
  refine ⟨⟨by decide +kernel, ?_, ?_⟩, by decide +kernel, ?_⟩
  · exact halfWeek.not_saturatesAt_of_late 1 (hhalf .exact) habove (by decide +kernel)
  · exact halfWeek.not_saturatesAt_of_late 1 (hhalf .library) habove (by decide +kernel)
  · refine thirdWeek.not_saturatesAt_of_early (10 ^ 30 - 1) ⟨by decide +kernel, rfl⟩ ?_
      (thirdWeek.userMaxRewards_eq .library) (by decide +kernel)
    norm_num [thirdWeek, sampleWeek]

end MxExchange.Farm
