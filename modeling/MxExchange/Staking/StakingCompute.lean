import MxExchange.Num.BigNumber
import MxExchange.Num.RewardIndex
import Mathlib.Algebra.BigOperators.Ring.Finset
import Mathlib.Algebra.Order.Group.MinMax

/-!
# `staking.compute.service.ts`: rewards between three bounds

A staking farm produces so much a block, but no more than its annual
percentage of what is staked, and no more than what its owner has put in.
The three bounds are applied one after the other, the last one by taking off
what is over the capacity; what comes out is the least of them
(`extraRewards_eq`), in whichever order they stand.

The divisions are a parameter (`Division`): those of the decimal library,
which is what the program runs, and exact ones, with which a position is paid
its part of the extra rewards and nothing is lost or gained on the way
(`distributed_eq`).
-/

namespace MxExchange.Staking

open MxExchange.Num

def MAX_PERCENT : ℕ := 10000

def BLOCKS_IN_YEAR : ℕ := 5256000

/-- The views of the contract. -/
structure StakingAbiService where
  accumulatedRewards : String → ℕ
  rewardCapacity : String → ℕ
  rewardPerShare : String → ℕ
  farmTokenSupply : String → ℕ
  divisionSafetyConstant : String → ℕ
  lastRewardBlockNonce : String → ℕ
  perBlockRewardsAmount : String → ℕ
  produceRewardsEnabled : String → Bool
  annualPercentageRewards : String → ℕ

/-- What is decoded of a position's attributes. -/
structure StakingTokenAttributesModel where
  rewardPerShare : BigNumber

/-- A division of decimals: on finite values a quotient that keeps the
sign. -/
structure Division where
  dividedBy : BigNumber → BigNumber → BigNumber
  quotient : ℚ → ℚ → ℚ
  dividedBy_fin : ∀ (a : ℚ) {b : ℚ}, b ≠ 0 →
    dividedBy (.fin a) (.fin b) = .fin (quotient a b)
  quotient_nonneg : ∀ {a b : ℚ}, 0 ≤ a → 0 ≤ b → 0 ≤ quotient a b
  quotient_zero : ∀ b : ℚ, quotient 0 b = 0

/-- The division of the decimal library. -/
def Division.library : Division where
  dividedBy := BigNumber.dividedBy
  quotient a b := truncatePlaces BigNumber.DECIMAL_PLACES (a / b)
  dividedBy_fin a _ h := BigNumber.dividedBy_fin a h
  quotient_nonneg ha hb := truncatePlaces_nonneg (div_nonneg ha hb)
  quotient_zero b := by rw [zero_div, truncatePlaces_zero]

/-- The same, with the quotients of finite values taken exactly. -/
def Division.exact : Division where
  dividedBy
    | .fin a, .fin b => if b = 0 then (BigNumber.fin a).dividedBy (.fin b) else .fin (a / b)
    | x, y => x.dividedBy y
  quotient a b := a / b
  dividedBy_fin _ _ h := if_neg h
  quotient_nonneg ha hb := div_nonneg ha hb
  quotient_zero b := zero_div b

/-- The service at a block of shard 1. -/
structure StakingComputeService where
  division : Division
  stakingAbi : StakingAbiService
  currentNonce : ℕ

namespace StakingComputeService

variable (service : StakingComputeService) (stakeAddress : String)

/-- The rewards of some blocks at the maximum rate. -/
def computeExtraRewardsBounded (blockDifferenceBig : BigNumber) : BigNumber :=
  let extraRewardsAPRBoundedPerBlock :=
    service.division.dividedBy
      (service.division.dividedBy
        ((BigNumber.ofNat (service.stakingAbi.farmTokenSupply stakeAddress)).multipliedBy
          (.ofNat (service.stakingAbi.annualPercentageRewards stakeAddress)))
        (.ofNat MAX_PERCENT))
      (.ofNat BLOCKS_IN_YEAR)
  extraRewardsAPRBoundedPerBlock.multipliedBy blockDifferenceBig

/-- The rewards since the last update, within the maximum rate and what is left.
-/
def computeExtraRewardsSinceLastAllocation : BigNumber :=
  let lastRewardBlockNonce := service.stakingAbi.lastRewardBlockNonce stakeAddress
  let blockDifferenceBig :=
    (BigNumber.ofNat service.currentNonce).minus (.ofNat lastRewardBlockNonce)
  if lastRewardBlockNonce < service.currentNonce ∧
      service.stakingAbi.produceRewardsEnabled stakeAddress then
    let extraRewardsUnbounded :=
      (BigNumber.ofNat (service.stakingAbi.perBlockRewardsAmount stakeAddress)).multipliedBy
        blockDifferenceBig
    let extraRewardsBounded := service.computeExtraRewardsBounded stakeAddress blockDifferenceBig
    if extraRewardsUnbounded.isLessThan extraRewardsBounded then extraRewardsUnbounded
    else extraRewardsBounded
  else .ofNat 0

/-- Positive extra rewards without what is over the capacity. -/
def capExtraRewards (extraRewards : BigNumber) : BigNumber :=
  let rewardsCapacity := BigNumber.ofNat (service.stakingAbi.rewardCapacity stakeAddress)
  let totalRewards :=
    extraRewards.plus (.ofNat (service.stakingAbi.accumulatedRewards stakeAddress))
  if totalRewards.isGreaterThan rewardsCapacity then
    let amountOverCapacity := totalRewards.minus rewardsCapacity
    extraRewards.minus amountOverCapacity
  else extraRewards

/-- The index with these rewards. -/
def computeFutureRewardsPerShare : BigNumber :=
  let extraRewards := service.computeExtraRewardsSinceLastAllocation stakeAddress
  let farmRewardPerShareBig := BigNumber.ofNat (service.stakingAbi.rewardPerShare stakeAddress)
  if extraRewards.isGreaterThan (.ofNat 0) then
    let extraRewards := service.capExtraRewards stakeAddress extraRewards
    farmRewardPerShareBig.plus
      (service.division.dividedBy
        (extraRewards.multipliedBy
          (.ofNat (service.stakingAbi.divisionSafetyConstant stakeAddress)))
        (.ofNat (service.stakingAbi.farmTokenSupply stakeAddress)))
  else farmRewardPerShareBig

/-- What the index has grown by, for the position's liquidity. -/
def computeStakeRewardsForPosition (liquidity : BigNumber)
    (decodedAttributes : StakingTokenAttributesModel) : BigNumber :=
  let futureRewardsPerShareBig := service.computeFutureRewardsPerShare stakeAddress
  let rewardPerShareDiff := futureRewardsPerShareBig.minus decodedAttributes.rewardPerShare
  service.division.dividedBy (liquidity.multipliedBy rewardPerShareDiff)
    (.ofNat (service.stakingAbi.divisionSafetyConstant stakeAddress))

/-! ## The extra rewards -/

/-- Blocks since the last update, none before it. -/
def blockDifference : ℕ :=
  service.currentNonce - service.stakingAbi.lastRewardBlockNonce stakeAddress

/-- The bound of a block by the annual percentage. -/
def aprBoundPerBlock : ℚ :=
  service.division.quotient
    (service.division.quotient
      ((service.stakingAbi.farmTokenSupply stakeAddress : ℚ) *
        service.stakingAbi.annualPercentageRewards stakeAddress) MAX_PERCENT) BLOCKS_IN_YEAR

/-- What has been put in and not been given out. -/
def remainingCapacity : ℚ :=
  (service.stakingAbi.rewardCapacity stakeAddress : ℚ) -
    service.stakingAbi.accumulatedRewards stakeAddress

/-- The least of the three bounds. -/
def extraRewards : ℚ :=
  if service.stakingAbi.produceRewardsEnabled stakeAddress then
    min (min ((service.stakingAbi.perBlockRewardsAmount stakeAddress : ℚ) *
        service.blockDifference stakeAddress)
      (service.aprBoundPerBlock stakeAddress * service.blockDifference stakeAddress))
    (service.remainingCapacity stakeAddress)
  else 0

variable {service} {stakeAddress}

theorem maxPercent_ne_zero : ((MAX_PERCENT : ℕ) : ℚ) ≠ 0 := by simp [MAX_PERCENT]

theorem blocksInYear_ne_zero : ((BLOCKS_IN_YEAR : ℕ) : ℚ) ≠ 0 := by simp [BLOCKS_IN_YEAR]

theorem aprBoundPerBlock_nonneg (service : StakingComputeService) (stakeAddress : String) :
    0 ≤ service.aprBoundPerBlock stakeAddress := by
  apply service.division.quotient_nonneg
  · exact service.division.quotient_nonneg (by positivity) (Nat.cast_nonneg _)
  · exact Nat.cast_nonneg _

theorem computeExtraRewardsBounded_eq (blocks : ℚ) :
    service.computeExtraRewardsBounded stakeAddress (.fin blocks) =
      .fin (service.aprBoundPerBlock stakeAddress * blocks) := by
  unfold computeExtraRewardsBounded
  simp only [BigNumber.ofNat, BigNumber.multipliedBy_fin,
    service.division.dividedBy_fin _ maxPercent_ne_zero,
    service.division.dividedBy_fin _ blocksInYear_ne_zero]
  rfl

/-- The first two bounds. -/
theorem computeExtraRewardsSinceLastAllocation_eq :
    service.computeExtraRewardsSinceLastAllocation stakeAddress =
      .fin (if service.stakingAbi.produceRewardsEnabled stakeAddress then
        min ((service.stakingAbi.perBlockRewardsAmount stakeAddress : ℚ) *
            service.blockDifference stakeAddress)
          (service.aprBoundPerBlock stakeAddress * service.blockDifference stakeAddress)
      else 0) := by
  unfold computeExtraRewardsSinceLastAllocation blockDifference
  dsimp only
  by_cases hproduce : service.stakingAbi.produceRewardsEnabled stakeAddress = true
  · rw [if_pos hproduce]
    split
    next h =>
      rw [BigNumber.ofNat, BigNumber.ofNat, BigNumber.ofNat, BigNumber.minus_fin,
        BigNumber.multipliedBy_fin, computeExtraRewardsBounded_eq, BigNumber.isLessThan_fin,
        ← Nat.cast_sub h.1.le]
      split
      next hlt => rw [min_eq_left (decide_eq_true_eq.mp hlt).le]
      next hge =>
        rw [min_eq_right (not_lt.mp fun hlt => hge (decide_eq_true_eq.mpr hlt))]
    next h =>
      have hle : service.currentNonce ≤ service.stakingAbi.lastRewardBlockNonce stakeAddress :=
        not_lt.mp fun hlt => h ⟨hlt, hproduce⟩
      rw [Nat.sub_eq_zero_of_le hle, Nat.cast_zero, mul_zero, mul_zero, min_self]
      rfl
  · rw [if_neg fun h => hproduce h.2, if_neg hproduce]
    rfl

/-- The third bound: what is over the capacity is taken off. -/
theorem capExtraRewards_eq (extra : ℚ) :
    service.capExtraRewards stakeAddress (.fin extra) =
      .fin (min extra (service.remainingCapacity stakeAddress)) := by
  unfold capExtraRewards remainingCapacity
  simp only [BigNumber.ofNat, BigNumber.plus_fin, BigNumber.isGreaterThan_fin,
    BigNumber.minus_fin, decide_eq_true_eq]
  split
  next hover =>
    rw [min_eq_right (by linarith)]
    congr 1
    ring
  next hwithin => rw [min_eq_left (by linarith)]

section State

variable (hcapacity : service.stakingAbi.accumulatedRewards stakeAddress ≤
  service.stakingAbi.rewardCapacity stakeAddress)
include hcapacity

theorem remainingCapacity_nonneg : 0 ≤ service.remainingCapacity stakeAddress := by
  have h : (service.stakingAbi.accumulatedRewards stakeAddress : ℚ) ≤
      service.stakingAbi.rewardCapacity stakeAddress := by exact_mod_cast hcapacity
  exact sub_nonneg.mpr h

/-- Rewards are not negative. -/
theorem extraRewards_nonneg : 0 ≤ service.extraRewards stakeAddress := by
  have hapr := aprBoundPerBlock_nonneg service stakeAddress
  unfold extraRewards
  split
  next =>
    exact le_min (le_min (by positivity) (by positivity)) (remainingCapacity_nonneg hcapacity)
  next => exact le_rfl

/-- The index moves by the least of the bounds, whichever that is. -/
theorem computeFutureRewardsPerShare_eq
    (hsupply : 0 < service.stakingAbi.farmTokenSupply stakeAddress) :
    service.computeFutureRewardsPerShare stakeAddress =
      .fin (service.stakingAbi.rewardPerShare stakeAddress +
        service.division.quotient (service.extraRewards stakeAddress *
          service.stakingAbi.divisionSafetyConstant stakeAddress)
          (service.stakingAbi.farmTokenSupply stakeAddress)) := by
  have hne : (service.stakingAbi.farmTokenSupply stakeAddress : ℚ) ≠ 0 := by
    exact_mod_cast hsupply.ne'
  have hremaining := remainingCapacity_nonneg hcapacity
  have hapr := aprBoundPerBlock_nonneg service stakeAddress
  unfold computeFutureRewardsPerShare extraRewards
  rw [computeExtraRewardsSinceLastAllocation_eq]
  dsimp only
  split
  next hproduce =>
    rw [BigNumber.ofNat, BigNumber.isGreaterThan_fin, Nat.cast_zero]
    split
    next hpositive =>
      rw [capExtraRewards_eq]
      simp only [BigNumber.ofNat, BigNumber.multipliedBy_fin,
        service.division.dividedBy_fin _ hne, BigNumber.plus_fin]
    next hnot =>
      -- nothing is produced, and nothing is the least of the bounds
      have hnone : min ((service.stakingAbi.perBlockRewardsAmount stakeAddress : ℚ) *
          service.blockDifference stakeAddress)
          (service.aprBoundPerBlock stakeAddress * service.blockDifference stakeAddress) = 0 :=
        le_antisymm (not_lt.mp fun hlt => hnot (decide_eq_true hlt))
          (le_min (by positivity) (by positivity))
      rw [hnone, min_eq_left hremaining, zero_mul,
        service.division.quotient_zero, add_zero, BigNumber.ofNat]
  next =>
    rw [zero_mul, service.division.quotient_zero, add_zero]
    rfl

end State

/-! ## Exact divisions -/

variable (service stakeAddress)

/-- What the index hands out on the whole supply. -/
def distributedRewards : BigNumber :=
  service.division.dividedBy
    (((service.computeFutureRewardsPerShare stakeAddress).minus
      (.ofNat (service.stakingAbi.rewardPerShare stakeAddress))).multipliedBy
        (.ofNat (service.stakingAbi.farmTokenSupply stakeAddress)))
    (.ofNat (service.stakingAbi.divisionSafetyConstant stakeAddress))

/-- The rewards of positions that entered at the current index, together. -/
def totalRewards (liquidities : List ℕ) : BigNumber :=
  (liquidities.map fun liquidity =>
    service.computeStakeRewardsForPosition stakeAddress (.ofNat liquidity)
      ⟨.ofNat (service.stakingAbi.rewardPerShare stakeAddress)⟩).foldr BigNumber.plus (.ofNat 0)

/-- The bounds for so many blocks: what is handed out is at most what is
produced, what the annual percentage allows, and what is left of the
capacity, and the positions do not get more than that either. -/
structure Bounded (blocks : ℚ) : Prop where
  distributed : ∃ rewards : ℚ, service.distributedRewards stakeAddress = .fin rewards ∧
    0 ≤ rewards ∧
    rewards ≤ (service.stakingAbi.perBlockRewardsAmount stakeAddress : ℚ) * blocks ∧
    rewards ≤ (service.stakingAbi.farmTokenSupply stakeAddress : ℚ) *
      service.stakingAbi.annualPercentageRewards stakeAddress / MAX_PERCENT / BLOCKS_IN_YEAR *
        blocks ∧
    rewards ≤ service.remainingCapacity stakeAddress
  positions : ∀ liquidities : List ℕ,
    liquidities.sum ≤ service.stakingAbi.farmTokenSupply stakeAddress →
    ∃ rewards : ℚ, service.totalRewards stakeAddress liquidities = .fin rewards ∧
      rewards ≤ service.remainingCapacity stakeAddress

/-- The divisions are exact and the contract's state is in order. -/
structure ExactFarm : Prop where
  exact : service.division = .exact
  safety : 0 < service.stakingAbi.divisionSafetyConstant stakeAddress
  supply : 0 < service.stakingAbi.farmTokenSupply stakeAddress
  capacity : service.stakingAbi.accumulatedRewards stakeAddress ≤
    service.stakingAbi.rewardCapacity stakeAddress

variable {service stakeAddress}

/-- They are within what the blocks produce. -/
theorem extraRewards_le (service : StakingComputeService) (stakeAddress : String) :
    service.extraRewards stakeAddress ≤
        (service.stakingAbi.perBlockRewardsAmount stakeAddress : ℚ) *
          service.blockDifference stakeAddress ∧
      service.extraRewards stakeAddress ≤
        service.aprBoundPerBlock stakeAddress * service.blockDifference stakeAddress := by
  have hapr := aprBoundPerBlock_nonneg service stakeAddress
  unfold extraRewards
  split
  next =>
    exact ⟨(min_le_left _ _).trans (min_le_left _ _), (min_le_left _ _).trans (min_le_right _ _)⟩
  next => exact ⟨by positivity, by positivity⟩

section Exact

variable (h : ExactFarm service stakeAddress)
include h

/-- And within what is left. -/
theorem extraRewards_le_remainingCapacity :
    service.extraRewards stakeAddress ≤ service.remainingCapacity stakeAddress := by
  unfold extraRewards
  split
  next => exact min_le_right _ _
  next => exact remainingCapacity_nonneg h.capacity

theorem quotient_eq (a b : ℚ) : service.division.quotient a b = a / b := by
  rw [h.exact]
  rfl

/-- The future index less the current one. -/
theorem rewardPerShareDiff_eq :
    (service.computeFutureRewardsPerShare stakeAddress).minus
        (.ofNat (service.stakingAbi.rewardPerShare stakeAddress)) =
      .fin (service.extraRewards stakeAddress *
        service.stakingAbi.divisionSafetyConstant stakeAddress /
          service.stakingAbi.farmTokenSupply stakeAddress) := by
  rw [computeFutureRewardsPerShare_eq h.capacity h.supply, BigNumber.ofNat, BigNumber.minus_fin,
    add_sub_cancel_left, quotient_eq h]

/-- With exact divisions all of them are distributed. -/
theorem distributed_eq : service.distributedRewards stakeAddress =
    .fin (service.extraRewards stakeAddress) := by
  have hsafety : (service.stakingAbi.divisionSafetyConstant stakeAddress : ℚ) ≠ 0 := by
    exact_mod_cast h.safety.ne'
  have hsupply : (service.stakingAbi.farmTokenSupply stakeAddress : ℚ) ≠ 0 := by
    exact_mod_cast h.supply.ne'
  rw [distributedRewards, rewardPerShareDiff_eq h, BigNumber.ofNat, BigNumber.ofNat,
    BigNumber.multipliedBy_fin, service.division.dividedBy_fin _ hsafety, quotient_eq h]
  congr 1
  field_simp

theorem computeStakeRewardsForPosition_eq (liquidity : ℕ) :
    service.computeStakeRewardsForPosition stakeAddress (.ofNat liquidity)
        ⟨.ofNat (service.stakingAbi.rewardPerShare stakeAddress)⟩ =
      .fin (liquidity * (service.extraRewards stakeAddress *
        service.stakingAbi.divisionSafetyConstant stakeAddress /
          service.stakingAbi.farmTokenSupply stakeAddress) /
            service.stakingAbi.divisionSafetyConstant stakeAddress) := by
  have hsafety : (service.stakingAbi.divisionSafetyConstant stakeAddress : ℚ) ≠ 0 := by
    exact_mod_cast h.safety.ne'
  unfold computeStakeRewardsForPosition
  dsimp only
  rw [rewardPerShareDiff_eq h, BigNumber.ofNat, BigNumber.ofNat, BigNumber.multipliedBy_fin,
    service.division.dividedBy_fin _ hsafety, quotient_eq h]

/-- All positions together: their part of the extra rewards. -/
theorem totalRewards_eq (liquidities : List ℕ) :
    service.totalRewards stakeAddress liquidities =
      .fin (service.extraRewards stakeAddress *
        (liquidities.sum / service.stakingAbi.farmTokenSupply stakeAddress)) := by
  have hsafety : (service.stakingAbi.divisionSafetyConstant stakeAddress : ℚ) ≠ 0 := by
    exact_mod_cast h.safety.ne'
  have hlist : service.totalRewards stakeAddress liquidities =
      .fin ((liquidities.map Nat.cast).map fun liquidity : ℚ =>
        liquidity * (service.extraRewards stakeAddress *
          service.stakingAbi.divisionSafetyConstant stakeAddress /
            service.stakingAbi.farmTokenSupply stakeAddress) /
              service.stakingAbi.divisionSafetyConstant stakeAddress).sum := by
    unfold totalRewards
    induction liquidities with
    | nil => rfl
    | cons liquidity liquidities ih =>
      rw [List.map_cons, List.foldr_cons, ih, computeStakeRewardsForPosition_eq h,
        BigNumber.plus_fin, List.map_cons, List.map_cons, List.sum_cons]
  rw [hlist, sum_exactPayouts, Nat.cast_list_sum]
  congr 1
  field_simp

/-- **Three bounds and a sum.** Each bound holds, in whichever order they
stand; before the last update no block counts. -/
theorem bounded_of_exact :
    Bounded service stakeAddress (service.blockDifference stakeAddress) where
  distributed := by
    refine ⟨_, distributed_eq h, extraRewards_nonneg h.capacity,
      (extraRewards_le service stakeAddress).1, ?_,
      extraRewards_le_remainingCapacity h⟩
    have hapr := (extraRewards_le service stakeAddress).2
    rwa [aprBoundPerBlock, quotient_eq h, quotient_eq h] at hapr
  positions := by
    intro liquidities hsum
    refine ⟨_, totalRewards_eq h liquidities, ?_⟩
    have hsupply : (0 : ℚ) < service.stakingAbi.farmTokenSupply stakeAddress := by
      exact_mod_cast h.supply
    have hpart : (liquidities.sum : ℚ) / service.stakingAbi.farmTokenSupply stakeAddress ≤ 1 := by
      rw [div_le_one hsupply]
      exact_mod_cast hsum
    calc service.extraRewards stakeAddress *
          (liquidities.sum / service.stakingAbi.farmTokenSupply stakeAddress)
        ≤ service.extraRewards stakeAddress * 1 :=
          mul_le_mul_of_nonneg_left hpart (extraRewards_nonneg h.capacity)
      _ = service.extraRewards stakeAddress := mul_one _
      _ ≤ service.remainingCapacity stakeAddress := extraRewards_le_remainingCapacity h

end Exact

end StakingComputeService

/-! ## A farm before its last update -/

section Sample

/-- One unit a block, a hundred put in. -/
def sampleStaking (currentNonce : ℕ) : StakingComputeService where
  division := .exact
  stakingAbi :=
    { accumulatedRewards := fun _ => 0
      rewardCapacity := fun _ => 100
      rewardPerShare := fun _ => 0
      farmTokenSupply := fun _ => 10
      divisionSafetyConstant := fun _ => 1000000000000
      lastRewardBlockNonce := fun _ => 10
      perBlockRewardsAmount := fun _ => 1
      produceRewardsEnabled := fun _ => true
      annualPercentageRewards := fun _ => 2500 }
  currentNonce := currentNonce

theorem exactFarm_sampleStaking (currentNonce : ℕ) :
    (sampleStaking currentNonce).ExactFarm "stake" where
  exact := rfl
  safety := by norm_num [sampleStaking]
  supply := by norm_num [sampleStaking]
  capacity := by norm_num [sampleStaking]

/-- What the program computes, with the bound by the annual percentage cut off
at the twentieth decimal: 95129.375951292. -/
example : ({ sampleStaking 12 with division := .library } :
    StakingComputeService).computeFutureRewardsPerShare "stake" =
      .fin (23782343987823 / 250000000) := by decide +kernel

theorem bounded_at_twelve :
    (sampleStaking 12).Bounded "stake" ((sampleStaking 12).blockDifference "stake") :=
  StakingComputeService.bounded_of_exact (exactFarm_sampleStaking 12)

/-- One block before the last update the difference is negative, and what is
handed out is zero. -/
theorem not_bounded_before_update : (sampleStaking 9).ExactFarm "stake" ∧
    ¬(sampleStaking 9).Bounded "stake" ((9 : ℚ) - 10) := by
  refine ⟨exactFarm_sampleStaking 9, fun h => ?_⟩
  obtain ⟨rewards, -, hnonneg, hproduced, -⟩ := h.distributed
  norm_num [sampleStaking] at hproduced
  linarith

end Sample

end MxExchange.Staking
