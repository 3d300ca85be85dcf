import MxExchange.Farm.BoostedRewards
import MxExchange.Num.RewardIndex

/-!
# `farm.compute.service.ts`: a farm's base rewards

A farm mints so much a block and keeps an index, the reward per share. The
index as the contract has it is of the last reward block; what has been
minted since is added before a position's reward is computed
(`futureRewardPerShare`). A farm of version 2 mints less: a percentage is set
aside for boosted rewards, in `computeMintedRewards`, which is overridden.

Both divisions keep twenty decimals, of which `integerValue` then keeps none:
in whole numbers they are integer quotients (`increaseOf`, `rewardOf`). So a
position is never owed more than its part, and all of them together no more
than what is minted (`accrues`).
-/

namespace MxExchange.Farm

open MxExchange.Num WeeklyRewards

inductive FarmVersion where
  | V1_2
  | V1_3
  | V2
  | CUSTOM
  deriving DecidableEq

/-- The views of every version. -/
structure FarmAbiService where
  farmShard : String → ℕ
  lastRewardBlockNonce : String → ℕ
  rewardsPerBlock : String → ℕ
  produceRewardsEnabled : String → Bool
  divisionSafetyConstant : String → ℕ
  farmTokenSupply : String → ℕ
  rewardPerShare : String → ℕ

/-- What is asked about a position. -/
structure CalculateRewardsArgs where
  farmAddress : String
  user : String
  liquidity : BigNumber
  identifier : String
  attributes : String
  vmQuery : Bool
  deriving DecidableEq

/-- A compute service. The views of version 2 are only asked by that version. -/
structure FarmComputeService where
  version : FarmVersion
  farmAbi : FarmAbiService
  farmAbiV2 : FarmAbiServiceV2
  getShardCurrentBlockNonce : ℕ → ℕ

namespace FarmComputeService

variable (service : FarmComputeService)

/-- The block that rewards are computed for. -/
def currentNonce (farmAddress : String) : ℕ :=
  service.getShardCurrentBlockNonce (service.farmAbi.farmShard farmAddress)

/-- `FarmComputeService.computeMintedRewards` -/
def toBeMinted (farmAddress : String) : BigNumber :=
  let currentNonce := service.currentNonce farmAddress
  let lastRewardBlockNonce := service.farmAbi.lastRewardBlockNonce farmAddress
  if lastRewardBlockNonce < currentNonce ∧ service.farmAbi.produceRewardsEnabled farmAddress then
    (BigNumber.ofNat (service.farmAbi.rewardsPerBlock farmAddress)).multipliedBy
      ((BigNumber.ofNat currentNonce).minus (.ofNat lastRewardBlockNonce))
  else .ofNat 0

/-- Without what is set aside for boosted rewards. -/
def computeBaseRewards (totalFarmRewards : BigNumber) (boostedYieldsRewardsPercenatage : ℕ) :
    BigNumber :=
  if (BigNumber.ofNat boostedYieldsRewardsPercenatage).isPositive then
    let boosterFarmRewardsCut :=
      (totalFarmRewards.multipliedBy (.ofNat boostedYieldsRewardsPercenatage)).dividedBy
        (.ofNat MAX_PERCENT)
    totalFarmRewards.minus boosterFarmRewardsCut
  else totalFarmRewards

/-- `computeMintedRewards`, with the override of version 2. -/
def computeMintedRewards (farmAddress : String) : BigNumber :=
  match service.version with
  | .V2 =>
    computeBaseRewards (service.toBeMinted farmAddress)
      (service.farmAbiV2.boostedYieldsRewardsPercenatage farmAddress)
  | _ => service.toBeMinted farmAddress

/-- The index with what has been minted since its last update. -/
def futureRewardPerShare (farmAddress : String) : BigNumber :=
  let rewardIncrease := service.computeMintedRewards farmAddress
  let rewardPerShareIncrease :=
    ((rewardIncrease.multipliedBy
      (.ofNat (service.farmAbi.divisionSafetyConstant farmAddress))).dividedBy
        (.ofNat (service.farmAbi.farmTokenSupply farmAddress))).integerValue
  (BigNumber.ofNat (service.farmAbi.rewardPerShare farmAddress)).plus rewardPerShareIncrease

/-- What the index has grown by since the position was entered, for its
liquidity. -/
def computeFarmRewardsForPosition (positon : CalculateRewardsArgs) (rewardPerShare : BigNumber) :
    BigNumber :=
  let futureRewardPerShare := service.futureRewardPerShare positon.farmAddress
  if futureRewardPerShare.isGreaterThan rewardPerShare then
    let rewardPerShareDiff := futureRewardPerShare.minus rewardPerShare
    ((positon.liquidity.multipliedBy rewardPerShareDiff).dividedBy
      (.ofNat (service.farmAbi.divisionSafetyConstant positon.farmAddress))).integerValue
  else .ofNat 0

/-! ## In whole numbers -/

/-- What the contract of a farm promises of its views: the constant divides,
and a percentage is one. -/
structure Promises (farmAddress : String) : Prop where
  safety : 0 < service.farmAbi.divisionSafetyConstant farmAddress
  percentage : service.farmAbiV2.boostedYieldsRewardsPercenatage farmAddress ≤ MAX_PERCENT

/-- What is minted until now, in ten thousandths. -/
def mintedParts (farmAddress : String) : ℕ :=
  (if service.farmAbi.produceRewardsEnabled farmAddress then
    service.farmAbi.rewardsPerBlock farmAddress *
      (service.currentNonce farmAddress - service.farmAbi.lastRewardBlockNonce farmAddress)
  else 0) *
    match service.version with
    | .V2 => MAX_PERCENT - service.farmAbiV2.boostedYieldsRewardsPercenatage farmAddress
    | _ => MAX_PERCENT

/-- The increase of the index. -/
def increaseOf (farmAddress : String) : ℕ :=
  indexIncrease MAX_PERCENT (service.mintedParts farmAddress)
    (service.farmAbi.divisionSafetyConstant farmAddress)
    (service.farmAbi.farmTokenSupply farmAddress)

/-- The reward of a position that entered at an index. -/
def rewardOf (farmAddress : String) (liquidity rewardPerShare : ℕ) : ℕ :=
  payout (service.farmAbi.divisionSafetyConstant farmAddress)
    (service.farmAbi.rewardPerShare farmAddress + service.increaseOf farmAddress - rewardPerShare)
    liquidity

variable {service} {farmAddress : String}

/-- Rewards are minted while they are produced. -/
theorem toBeMinted_eq : service.toBeMinted farmAddress =
    .ofNat (if service.farmAbi.produceRewardsEnabled farmAddress then
      service.farmAbi.rewardsPerBlock farmAddress *
        (service.currentNonce farmAddress - service.farmAbi.lastRewardBlockNonce farmAddress)
    else 0) := by
  unfold toBeMinted
  dsimp only
  by_cases hproduce : service.farmAbi.produceRewardsEnabled farmAddress = true
  · rw [if_pos hproduce]
    split
    next h =>
      rw [BigNumber.ofNat, BigNumber.ofNat, BigNumber.ofNat, BigNumber.minus_fin,
        BigNumber.multipliedBy_fin, ← Nat.cast_sub h.1.le, ← Nat.cast_mul]
      rfl
    next h =>
      have hle : service.currentNonce farmAddress ≤
          service.farmAbi.lastRewardBlockNonce farmAddress :=
        not_lt.mp fun hlt => h ⟨hlt, hproduce⟩
      rw [Nat.sub_eq_zero_of_le hle, mul_zero]
  · rw [if_neg fun h => hproduce h.2, if_neg hproduce]

/-- A percentage of whole rewards has four decimals, which the division
keeps. -/
theorem computeBaseRewards_eq {n p : ℕ} (h : p ≤ MAX_PERCENT) :
    computeBaseRewards (.ofNat n) p = .fin ((n * (MAX_PERCENT - p) : ℕ) / 10000) := by
  have hpercent : ((MAX_PERCENT : ℕ) : ℚ) ≠ 0 := by simp [MAX_PERCENT]
  have hpositive : (BigNumber.ofNat p).isPositive = true := by simp [BigNumber.ofNat]
  have hcut : truncatePlaces 20 ((n : ℚ) * p / (MAX_PERCENT : ℕ)) = (n : ℚ) * p / 10000 := by
    rw [← Nat.cast_mul]
    exact truncatePlaces_tenThousandth _
  rw [computeBaseRewards, if_pos hpositive]
  simp only [BigNumber.ofNat, BigNumber.multipliedBy_fin, BigNumber.dividedBy_fin _ hpercent,
    BigNumber.DECIMAL_PLACES, hcut, BigNumber.minus_fin]
  rw [Nat.cast_mul, Nat.cast_sub h]
  congr 1
  simp only [MAX_PERCENT]
  push_cast
  ring

theorem computeMintedRewards_eq (h : service.Promises farmAddress) :
    service.computeMintedRewards farmAddress =
      .fin ((service.mintedParts farmAddress : ℕ) / 10000) := by
  have hwhole : ∀ n : ℕ, BigNumber.ofNat n = .fin ((n * MAX_PERCENT : ℕ) / 10000) := fun n => by
    rw [BigNumber.ofNat, Nat.cast_mul]
    simp [MAX_PERCENT]
  unfold computeMintedRewards mintedParts
  rw [toBeMinted_eq]
  cases service.version with
  | V2 => exact computeBaseRewards_eq h.percentage
  | V1_2 => exact hwhole _
  | V1_3 => exact hwhole _
  | CUSTOM => exact hwhole _

/-- The index, in whole numbers. -/
theorem futureRewardPerShare_eq (h : service.Promises farmAddress)
    (hsupply : 0 < service.farmAbi.farmTokenSupply farmAddress) :
    service.futureRewardPerShare farmAddress =
      .ofNat (service.farmAbi.rewardPerShare farmAddress + service.increaseOf farmAddress) := by
  have hne : (service.farmAbi.farmTokenSupply farmAddress : ℚ) ≠ 0 := by
    exact_mod_cast hsupply.ne'
  have hquotient : (service.mintedParts farmAddress : ℚ) / 10000 *
      service.farmAbi.divisionSafetyConstant farmAddress /
        service.farmAbi.farmTokenSupply farmAddress =
      ((service.mintedParts farmAddress *
        service.farmAbi.divisionSafetyConstant farmAddress : ℕ) : ℚ) /
          ((MAX_PERCENT * service.farmAbi.farmTokenSupply farmAddress : ℕ) : ℚ) := by
    simp only [MAX_PERCENT]
    push_cast
    ring
  unfold futureRewardPerShare
  rw [computeMintedRewards_eq h]
  simp only [BigNumber.ofNat, BigNumber.multipliedBy_fin, BigNumber.dividedBy_fin _ hne,
    BigNumber.integerValue_fin, BigNumber.DECIMAL_PLACES, BigNumber.plus_fin, hquotient]
  rw [truncate_truncatePlaces_div, Nat.cast_add]
  rfl

theorem computeFarmRewardsForPosition_eq (h : service.Promises farmAddress)
    (hsupply : 0 < service.farmAbi.farmTokenSupply farmAddress) {positon : CalculateRewardsArgs}
    (hfarm : positon.farmAddress = farmAddress) {liquidity : ℕ}
    (hliquidity : positon.liquidity = .ofNat liquidity) (rewardPerShare : ℕ) :
    service.computeFarmRewardsForPosition positon (.ofNat rewardPerShare) =
      .ofNat (service.rewardOf farmAddress liquidity rewardPerShare) := by
  subst hfarm
  have hne : (service.farmAbi.divisionSafetyConstant positon.farmAddress : ℚ) ≠ 0 := by
    exact_mod_cast h.safety.ne'
  unfold computeFarmRewardsForPosition rewardOf
  rw [futureRewardPerShare_eq h hsupply, hliquidity]
  dsimp only
  by_cases hlt : rewardPerShare <
      service.farmAbi.rewardPerShare positon.farmAddress + service.increaseOf positon.farmAddress
  · rw [if_pos (by simpa [BigNumber.ofNat] using mod_cast hlt)]
    simp only [BigNumber.ofNat, BigNumber.minus_fin, BigNumber.multipliedBy_fin,
      BigNumber.dividedBy_fin _ hne, BigNumber.integerValue_fin, BigNumber.DECIMAL_PLACES]
    rw [← Nat.cast_sub hlt.le, ← Nat.cast_mul, truncate_truncatePlaces_div]
    rfl
  · rw [if_neg (by simpa [BigNumber.ofNat] using mod_cast not_lt.mp hlt),
      Nat.sub_eq_zero_of_le (by omega), zero_payout]

/-! ## Block after block -/

/-- The same farm, at another block. -/
def atNonce (service : FarmComputeService) (nonce : ℕ) : FarmComputeService :=
  { service with getShardCurrentBlockNonce := fun _ => nonce }

/-- Blocks do not change what the contract promises. -/
theorem Promises.atNonce (h : service.Promises farmAddress) (nonce : ℕ) :
    (service.atNonce nonce).Promises farmAddress where
  safety := h.safety
  percentage := h.percentage

/-- Later, no less is minted. -/
theorem mintedParts_mono {nonce : ℕ} (h : service.currentNonce farmAddress ≤ nonce) :
    service.mintedParts farmAddress ≤ (service.atNonce nonce).mintedParts farmAddress := by
  unfold mintedParts
  apply Nat.mul_le_mul_right
  show (if service.farmAbi.produceRewardsEnabled farmAddress then _ else 0) ≤
    if service.farmAbi.produceRewardsEnabled farmAddress then _ else 0
  split
  next =>
    apply Nat.mul_le_mul_left
    show service.currentNonce farmAddress - service.farmAbi.lastRewardBlockNonce farmAddress ≤
      nonce - service.farmAbi.lastRewardBlockNonce farmAddress
    omega
  next => exact le_rfl

/-- Later, no less is paid. -/
theorem rewardOf_mono {nonce : ℕ}
    (hnonce : service.currentNonce farmAddress ≤ nonce) (liquidity rewardPerShare : ℕ) :
    service.rewardOf farmAddress liquidity rewardPerShare ≤
      (service.atNonce nonce).rewardOf farmAddress liquidity rewardPerShare := by
  have hincrease : service.increaseOf farmAddress ≤
      (service.atNonce nonce).increaseOf farmAddress :=
    indexIncrease_mono (mintedParts_mono hnonce)
  apply payout_mono
  show service.farmAbi.rewardPerShare farmAddress + _ - rewardPerShare ≤
    service.farmAbi.rewardPerShare farmAddress + _ - rewardPerShare
  omega

/-! ## What a farm accrues -/

/-- A position in a farm, with whole liquidity. -/
structure Position (farmAddress : String) where
  args : CalculateRewardsArgs
  liquidity : ℕ
  farmAddress_eq : args.farmAddress = farmAddress
  liquidity_eq : args.liquidity = .ofNat liquidity

/-- The rewards of positions that entered at the current index, together. -/
def totalRewards (service : FarmComputeService) (farmAddress : String)
    (positions : List (Position farmAddress)) : BigNumber :=
  (positions.map fun position => service.computeFarmRewardsForPosition position.args
    (.ofNat (service.farmAbi.rewardPerShare farmAddress))).foldr BigNumber.plus (.ofNat 0)

/-- What is asked of a farm's rewards: the positions that entered at the
current index do not get more than is minted, and every position has a
reward that is a whole number, does not shrink from block to block, and is
zero if its index is not below the future one. -/
structure Accrues (service : FarmComputeService) (farmAddress : String)
    (positions : List (Position farmAddress)) : Prop where
  conserved : (service.totalRewards farmAddress positions).isLessThanOrEqualTo
    (service.computeMintedRewards farmAddress) = true
  whole : ∀ (position : Position farmAddress) (rewardPerShare : ℕ), ∃ reward : ℕ,
    service.computeFarmRewardsForPosition position.args (.ofNat rewardPerShare) = .ofNat reward
  grows : ∀ (position : Position farmAddress) (rewardPerShare nonce : ℕ),
    service.currentNonce farmAddress ≤ nonce →
    (service.computeFarmRewardsForPosition position.args
      (.ofNat rewardPerShare)).isLessThanOrEqualTo
        ((service.atNonce nonce).computeFarmRewardsForPosition position.args
          (.ofNat rewardPerShare)) = true
  nothing : ∀ (position : Position farmAddress) (rewardPerShare : ℕ),
    (service.futureRewardPerShare farmAddress).isLessThanOrEqualTo (.ofNat rewardPerShare) = true →
    service.computeFarmRewardsForPosition position.args (.ofNat rewardPerShare) = .ofNat 0

section Accrual

variable {positions : List (Position farmAddress)} (h : service.Promises farmAddress)
  (hsupply : 0 < service.farmAbi.farmTokenSupply farmAddress)
include h hsupply

theorem totalRewards_eq : service.totalRewards farmAddress positions =
    .ofNat ((positions.map Position.liquidity).map
      (payout (service.farmAbi.divisionSafetyConstant farmAddress)
        (service.increaseOf farmAddress))).sum := by
  induction positions with
  | nil => rfl
  | cons position positions ih =>
    have hreward := computeFarmRewardsForPosition_eq h hsupply position.farmAddress_eq
      position.liquidity_eq (service.farmAbi.rewardPerShare farmAddress)
    rw [rewardOf, Nat.add_sub_cancel_left] at hreward
    unfold totalRewards at ih ⊢
    rw [List.map_cons, List.foldr_cons, ih, hreward, BigNumber.plus_ofNat]
    rfl

/-- The positions' rewards are no more than what is minted. -/
theorem conserved_of_sum_le
    (hsum : (positions.map Position.liquidity).sum ≤
      service.farmAbi.farmTokenSupply farmAddress) :
    (service.totalRewards farmAddress positions).isLessThanOrEqualTo
      (service.computeMintedRewards farmAddress) = true := by
  have hpayouts : MAX_PERCENT * ((positions.map Position.liquidity).map
      (payout (service.farmAbi.divisionSafetyConstant farmAddress)
        (service.increaseOf farmAddress))).sum ≤ service.mintedParts farmAddress :=
    sum_payouts_le h.safety hsum
  rw [totalRewards_eq h hsupply, computeMintedRewards_eq h, BigNumber.ofNat,
    BigNumber.isLessThanOrEqualTo_fin, decide_eq_true_eq, le_div_iff₀ (by norm_num), mul_comm]
  exact_mod_cast hpayouts

/-- **A farm's accrual.** Each reward is as it should be, and all of them stay
within what is minted. -/
theorem accrues
    (hsum : (positions.map Position.liquidity).sum ≤
      service.farmAbi.farmTokenSupply farmAddress) :
    Accrues service farmAddress positions := by
  have hreward := fun (position : Position farmAddress) (rewardPerShare : ℕ) =>
    computeFarmRewardsForPosition_eq h hsupply position.farmAddress_eq position.liquidity_eq
      rewardPerShare
  refine
    { conserved := conserved_of_sum_le h hsupply hsum
      whole := fun position rewardPerShare => ⟨_, hreward position rewardPerShare⟩
      grows := ?_
      nothing := ?_ }
  · intro position rewardPerShare nonce hnonce
    have hlater : (service.atNonce nonce).computeFarmRewardsForPosition position.args
        (.ofNat rewardPerShare) =
          .ofNat ((service.atNonce nonce).rewardOf farmAddress position.liquidity
            rewardPerShare) :=
      computeFarmRewardsForPosition_eq (h.atNonce nonce) hsupply position.farmAddress_eq
        position.liquidity_eq rewardPerShare
    rw [hreward, hlater, BigNumber.isLessThanOrEqualTo_ofNat, decide_eq_true_eq]
    exact rewardOf_mono hnonce _ _
  · intro position rewardPerShare hle
    rw [futureRewardPerShare_eq h hsupply, BigNumber.isLessThanOrEqualTo_ofNat,
      decide_eq_true_eq] at hle
    rw [hreward, rewardOf, Nat.sub_eq_zero_of_le hle, zero_payout]

end Accrual

end FarmComputeService

/-! ## Two positions -/

section Sample

/-- A farm of version 1.3 that mints one unit a block. -/
def sampleFarm (farmTokenSupply : ℕ) : FarmComputeService where
  version := .V1_3
  farmAbi :=
    { farmShard := fun _ => 1
      lastRewardBlockNonce := fun _ => 10
      rewardsPerBlock := fun _ => 1
      produceRewardsEnabled := fun _ => true
      divisionSafetyConstant := fun _ => 1000000000000
      farmTokenSupply := fun _ => farmTokenSupply
      rewardPerShare := fun _ => 0 }
  farmAbiV2 :=
    { boostedYieldsFactors := fun _ => ⟨0, 0, 0, 0, 0⟩
      boostedYieldsRewardsPercenatage := fun _ => 0
      rewardsPerBlock := fun _ => 1
      farmTokenSupply := fun _ => farmTokenSupply
      accumulatedRewardsForWeek := fun _ _ => 0 }
  getShardCurrentBlockNonce := fun _ => 11

/-- A farm of version 2 that sets a quarter aside, thirty blocks after the last
reward. -/
def quarterFarm : FarmComputeService :=
  { sampleFarm 8 with
    version := .V2
    farmAbiV2 :=
      { boostedYieldsFactors := fun _ => ⟨0, 0, 0, 0, 0⟩
        boostedYieldsRewardsPercenatage := fun _ => 2500
        rewardsPerBlock := fun _ => 1
        farmTokenSupply := fun _ => 8
        accumulatedRewardsForWeek := fun _ _ => 0 }
    getShardCurrentBlockNonce := fun _ => 40 }

def samplePosition (liquidity : ℕ) : FarmComputeService.Position "farm" where
  args :=
    { farmAddress := "farm"
      user := "user"
      liquidity := .ofNat liquidity
      identifier := "LKFARM-abcdef-01"
      attributes := ""
      vmQuery := false }
  liquidity := liquidity
  farmAddress_eq := rfl
  liquidity_eq := rfl

theorem quarterFarm_promises : quarterFarm.Promises "farm" where
  safety := by norm_num [quarterFarm, sampleFarm]
  percentage := by norm_num [quarterFarm, MAX_PERCENT]

/-- Three and four of eight units are owed 8 and 11 of 22.5. -/
theorem accrues_quarterFarm :
    FarmComputeService.Accrues quarterFarm "farm" [samplePosition 3, samplePosition 4] :=
  FarmComputeService.accrues quarterFarm_promises (by decide) (by decide)

end Sample

end MxExchange.Farm
