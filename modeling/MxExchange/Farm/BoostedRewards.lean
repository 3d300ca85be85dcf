import MxExchange.WeeklyRewards.Payments

/-!
# `farm.v2.compute.service.ts`: boosted rewards

A week's rewards of a farm are split by energy and by liquidity, in the
proportion of two constants, and no user gets more than a multiple of what
the farm yields on the user's liquidity in a week. Four quotients are cut off
at the twentieth decimal on the way to a payment, and the payment keeps none of
its decimals. In units of the twentieth decimal they are quotients of integers
(`rewardPart`), and so is the payment.

As everything is rounded down, no payment is above the cap and the payments of
a reward are never above it (`capped_of_holders`, `total_of_holders`). But what
is less than one unit is paid as well, as nothing: `boosted_iff` says for which
users this does not happen.
-/

namespace MxExchange.Farm

open MxExchange.Num WeeklyRewards

/-- The factors of the boost, as the contract has them. -/
structure BoostedYieldsFactors where
  maxRewardsFactor : ℕ
  userRewardsEnergy : ℕ
  userRewardsFarm : ℕ
  minEnergyAmount : ℕ
  minFarmAmount : ℕ

/-- The farm's views. -/
structure FarmAbiServiceV2 where
  boostedYieldsFactors : String → BoostedYieldsFactors
  boostedYieldsRewardsPercenatage : String → ℕ
  rewardsPerBlock : String → ℕ
  farmTokenSupply : String → ℕ
  accumulatedRewardsForWeek : String → ℕ → ℕ

def MAX_PERCENT : ℕ := 10000

def BLOCKS_PER_WEEK : ℕ := 100800

/-- What the farm yields on the user's liquidity in so many blocks, times the factor. -/
def userMaxRewards (farmAbi : FarmAbiServiceV2) (scAddress : String) (liquidity : BigNumber)
    (blocks : ℕ) : BigNumber :=
  let userMaxBoostedRewardsPerBlock :=
    ((((BigNumber.ofNat (farmAbi.rewardsPerBlock scAddress)).multipliedBy
      (.ofNat (farmAbi.boostedYieldsRewardsPercenatage scAddress))).dividedBy
        (.ofNat MAX_PERCENT)).multipliedBy liquidity).dividedBy
          (.ofNat (farmAbi.farmTokenSupply scAddress))
  ((BigNumber.ofNat (farmAbi.boostedYieldsFactors scAddress).maxRewardsFactor).multipliedBy
    userMaxBoostedRewardsPerBlock).multipliedBy (.ofNat blocks)

/-- The average of the user's part by energy and the user's part by tokens. -/
def boostedRewardAmount (farmAbi : FarmAbiServiceV2) (scAddress : String) (totalRewards : ℕ)
    (userEnergy : ℤ) (totalEnergy : ℕ) (liquidity : BigNumber) : BigNumber :=
  let boostedYieldsFactors := farmAbi.boostedYieldsFactors scAddress
  let boostedRewardsByEnergy :=
    (((BigNumber.ofNat totalRewards).multipliedBy
      (.ofNat boostedYieldsFactors.userRewardsEnergy)).multipliedBy (.fin userEnergy)).dividedBy
        (.ofNat totalEnergy)
  let boostedRewardsByTokens :=
    (((BigNumber.ofNat totalRewards).multipliedBy
      (.ofNat boostedYieldsFactors.userRewardsFarm)).multipliedBy liquidity).dividedBy
        (.ofNat (farmAbi.farmTokenSupply scAddress))
  let constantsBase :=
    (BigNumber.ofNat boostedYieldsFactors.userRewardsEnergy).plus
      (.ofNat boostedYieldsFactors.userRewardsFarm)
  (boostedRewardsByEnergy.plus boostedRewardsByTokens).dividedBy constantsBase

/-- The smaller of the two, as `comparedTo` sees it. -/
def paymentAmount (boostedRewardAmount userRewardsForWeek : BigNumber) : BigNumber :=
  if (boostedRewardAmount.comparedTo userRewardsForWeek).getD 0 < 1 then boostedRewardAmount
  else userRewardsForWeek

/-- The body of the loop over the week's rewards. -/
def paymentOf (farmAbi : FarmAbiServiceV2) (scAddress : String) (userEnergy : ℤ)
    (totalEnergyForWeek : ℕ) (liquidity : BigNumber) (weeklyRewards : EsdtTokenPayment ℕ) :
    Option (EsdtTokenPayment BigNumber) :=
  let amount :=
    paymentAmount
      (boostedRewardAmount farmAbi scAddress weeklyRewards.amount userEnergy totalEnergyForWeek
        liquidity)
      (userMaxRewards farmAbi scAddress liquidity BLOCKS_PER_WEEK)
  if amount.isPositive then
    some
      { amount := amount.integerValue
        nonce := 0
        tokenID := weeklyRewards.tokenID
        tokenType := weeklyRewards.tokenType }
  else none

/-- What a user is paid of a week's rewards, if above both minimums. -/
def computeUserRewardsForWeek (farmAbi : FarmAbiServiceV2)
    (abi : WeeklyRewardsSplittingAbiService) (scAddress userAddress : String) (week : ℕ)
    (liquidity : BigNumber) : List (EsdtTokenPayment BigNumber) :=
  let totalRewardsForWeek := abi.totalRewardsForWeek scAddress week
  let userEnergyForWeek := abi.userEnergyForWeek scAddress userAddress week
  let totalEnergyForWeek := abi.totalEnergyForWeek scAddress week
  let boostedYieldsFactors := farmAbi.boostedYieldsFactors scAddress
  let userHasMinEnergy :=
    (BigNumber.fin userEnergyForWeek.amount).isGreaterThan
      (.ofNat boostedYieldsFactors.minEnergyAmount)
  let userMinFarmAmount := liquidity.isGreaterThan (.ofNat boostedYieldsFactors.minFarmAmount)
  if ¬userHasMinEnergy then []
  else if ¬userMinFarmAmount then []
  else if totalRewardsForWeek.length = 0 then []
  else
    totalRewardsForWeek.filterMap
      (paymentOf farmAbi scAddress userEnergyForWeek.amount totalEnergyForWeek liquidity)

/-- The same for the running week: its rewards until now, over its blocks
until now. `totalRewards.length` is the length of a printed number here and
never zero. -/
def computeUserAccumulatedRewards (farmAbi : FarmAbiServiceV2)
    (abi : WeeklyRewardsSplittingAbiService) (context : ContextGetterService)
    (scAddress userAddress : String) (week : ℕ) (liquidity : BigNumber) :
    Except String BigNumber := do
  let boostedYieldsFactors := farmAbi.boostedYieldsFactors scAddress
  let userEnergy := abi.userEnergyForWeek scAddress userAddress week
  let blocksInWeek ← computeBlocksInWeek context scAddress week
  let userHasMinEnergy :=
    (BigNumber.fin userEnergy.amount).isGreaterThan (.ofNat boostedYieldsFactors.minEnergyAmount)
  let userMinFarmAmount := liquidity.isGreaterThan (.ofNat boostedYieldsFactors.minFarmAmount)
  if ¬userHasMinEnergy then return .ofNat 0
  else if ¬userMinFarmAmount then return .ofNat 0
  else
    return (paymentAmount
      (boostedRewardAmount farmAbi scAddress (farmAbi.accumulatedRewardsForWeek scAddress week)
        userEnergy.amount (abi.totalEnergyForWeek scAddress week) liquidity)
      (userMaxRewards farmAbi scAddress liquidity blocksInWeek)).integerValue

/-! ## In units of the last decimal -/

section Parts

variable (farmAbi : FarmAbiServiceV2) (scAddress : String)

/-- The cap. Only the quotient by the supply is cut off: the percentage of the
rewards of a block has four decimals. -/
def capPart (blocks liquidity : ℕ) : ℕ :=
  (farmAbi.boostedYieldsFactors scAddress).maxRewardsFactor *
    (10 ^ 16 * (farmAbi.rewardsPerBlock scAddress *
      farmAbi.boostedYieldsRewardsPercenatage scAddress * liquidity) /
        farmAbi.farmTokenSupply scAddress) * blocks

/-- The parts in units of the twentieth decimal, each cut off. -/
def energyPart (totalRewards energy totalEnergy : ℕ) : ℕ :=
  10 ^ 20 * (totalRewards * (farmAbi.boostedYieldsFactors scAddress).userRewardsEnergy) * energy /
    totalEnergy

def tokensPart (totalRewards liquidity : ℕ) : ℕ :=
  10 ^ 20 * (totalRewards * (farmAbi.boostedYieldsFactors scAddress).userRewardsFarm) * liquidity /
    farmAbi.farmTokenSupply scAddress

/-- The two constants together. -/
def constantsBase : ℕ :=
  (farmAbi.boostedYieldsFactors scAddress).userRewardsEnergy +
    (farmAbi.boostedYieldsFactors scAddress).userRewardsFarm

def averagePart (totalRewards energy totalEnergy liquidity : ℕ) : ℕ :=
  (energyPart farmAbi scAddress totalRewards energy totalEnergy +
    tokensPart farmAbi scAddress totalRewards liquidity) / constantsBase farmAbi scAddress

/-- A payment with its decimals: the average, or the cap if that is less. -/
def rewardPart (totalRewards energy totalEnergy liquidity : ℕ) : ℕ :=
  min (averagePart farmAbi scAddress totalRewards energy totalEnergy liquidity)
    (capPart farmAbi scAddress BLOCKS_PER_WEEK liquidity)

variable {farmAbi} {scAddress} {energy totalEnergy liquidity : ℕ}

/-- The cap in these units. -/
theorem userMaxRewards_eq (hs : 0 < farmAbi.farmTokenSupply scAddress) (blocks : ℕ) :
    userMaxRewards farmAbi scAddress (.ofNat liquidity) blocks =
      .fin ((capPart farmAbi scAddress blocks liquidity : ℕ) / 10 ^ 20) := by
  have hne : (farmAbi.farmTokenSupply scAddress : ℚ) ≠ 0 := by exact_mod_cast hs.ne'
  have hpercent : ((MAX_PERCENT : ℕ) : ℚ) ≠ 0 := by simp [MAX_PERCENT]
  have hblock : truncatePlaces 20 ((farmAbi.rewardsPerBlock scAddress : ℚ) *
      farmAbi.boostedYieldsRewardsPercenatage scAddress / (MAX_PERCENT : ℕ)) =
        (farmAbi.rewardsPerBlock scAddress : ℚ) *
          farmAbi.boostedYieldsRewardsPercenatage scAddress / 10000 := by
    rw [← Nat.cast_mul]
    exact truncatePlaces_tenThousandth _
  unfold userMaxRewards
  simp only [BigNumber.ofNat, BigNumber.multipliedBy_fin, BigNumber.dividedBy_fin _ hpercent,
    BigNumber.dividedBy_fin _ hne, BigNumber.DECIMAL_PLACES, hblock]
  rw [truncatePlaces_eq_div (n := 10 ^ 16 * (farmAbi.rewardsPerBlock scAddress *
    farmAbi.boostedYieldsRewardsPercenatage scAddress * liquidity))
      (d := farmAbi.farmTokenSupply scAddress)]
  · unfold capPart
    push_cast
    ring_nf
  · push_cast
    ring

/-- The average of the parts in these units. -/
theorem boostedRewardAmount_eq (hs : 0 < farmAbi.farmTokenSupply scAddress)
    (he : 0 < totalEnergy) (hc : 0 < constantsBase farmAbi scAddress) (totalRewards : ℕ) :
    boostedRewardAmount farmAbi scAddress totalRewards energy totalEnergy (.ofNat liquidity) =
      .fin ((averagePart farmAbi scAddress totalRewards energy totalEnergy liquidity : ℕ) /
        10 ^ 20) := by
  have hsupply : (farmAbi.farmTokenSupply scAddress : ℚ) ≠ 0 := by exact_mod_cast hs.ne'
  have henergy : (totalEnergy : ℚ) ≠ 0 := by exact_mod_cast he.ne'
  have hbase : ((farmAbi.boostedYieldsFactors scAddress).userRewardsEnergy : ℚ) +
      (farmAbi.boostedYieldsFactors scAddress).userRewardsFarm =
        (constantsBase farmAbi scAddress : ℕ) := by
    rw [constantsBase, Nat.cast_add]
  have hne : ((constantsBase farmAbi scAddress : ℕ) : ℚ) ≠ 0 := by exact_mod_cast hc.ne'
  have hbyEnergy : truncatePlaces 20 ((totalRewards : ℚ) *
      (farmAbi.boostedYieldsFactors scAddress).userRewardsEnergy * energy / totalEnergy) =
        (energyPart farmAbi scAddress totalRewards energy totalEnergy : ℕ) / 10 ^ 20 := by
    refine truncatePlaces_eq_div ?_
    push_cast
    ring
  have hbyTokens : truncatePlaces 20 ((totalRewards : ℚ) *
      (farmAbi.boostedYieldsFactors scAddress).userRewardsFarm * liquidity /
        farmAbi.farmTokenSupply scAddress) =
          (tokensPart farmAbi scAddress totalRewards liquidity : ℕ) / 10 ^ 20 := by
    refine truncatePlaces_eq_div ?_
    push_cast
    ring
  unfold boostedRewardAmount
  simp only [BigNumber.ofNat, BigNumber.multipliedBy_fin, Int.cast_natCast,
    BigNumber.dividedBy_fin _ henergy, BigNumber.dividedBy_fin _ hsupply, BigNumber.plus_fin,
    BigNumber.DECIMAL_PLACES, hbyEnergy, hbyTokens, hbase, BigNumber.dividedBy_fin _ hne]
  refine congrArg BigNumber.fin (truncatePlaces_eq_div ?_)
  push_cast
  ring

/-- The smaller of the two, in these units. -/
theorem paymentAmount_eq (average cap : ℕ) :
    paymentAmount (.fin ((average : ℚ) / 10 ^ 20)) (.fin ((cap : ℚ) / 10 ^ 20)) =
      .fin ((min average cap : ℕ) / 10 ^ 20) := by
  have hle : (average : ℚ) / 10 ^ 20 ≤ cap / 10 ^ 20 ↔ average ≤ cap := by
    rw [div_le_div_iff_of_pos_right (by positivity), Nat.cast_le]
  unfold paymentAmount
  simp only [BigNumber.comparedTo_fin_lt_one, hle]
  split
  next h => rw [min_eq_left h]
  next h => rw [min_eq_right (by omega)]

/-- Whatever the smaller of the two is, it is paid: a payment of zero as well. -/
theorem paymentOf_eq (hs : 0 < farmAbi.farmTokenSupply scAddress) (he : 0 < totalEnergy)
    (hc : 0 < constantsBase farmAbi scAddress) (reward : EsdtTokenPayment ℕ) :
    paymentOf farmAbi scAddress energy totalEnergy (.ofNat liquidity) reward =
      some
        { amount := .ofNat
            (rewardPart farmAbi scAddress reward.amount energy totalEnergy liquidity / 10 ^ 20)
          nonce := 0
          tokenID := reward.tokenID
          tokenType := reward.tokenType } := by
  have hpositive : (0 : ℚ) ≤
      (rewardPart farmAbi scAddress reward.amount energy totalEnergy liquidity : ℕ) / 10 ^ 20 := by
    positivity
  have hround : truncate
      ((rewardPart farmAbi scAddress reward.amount energy totalEnergy liquidity : ℕ) / 10 ^ 20) =
        (rewardPart farmAbi scAddress reward.amount energy totalEnergy liquidity /
          10 ^ 20 : ℕ) := by
    rw [← truncate_div]
    push_cast
    rfl
  have hamount : paymentAmount
      (boostedRewardAmount farmAbi scAddress reward.amount energy totalEnergy (.ofNat liquidity))
      (userMaxRewards farmAbi scAddress (.ofNat liquidity) BLOCKS_PER_WEEK) =
        .fin ((rewardPart farmAbi scAddress reward.amount energy totalEnergy liquidity : ℕ) /
          10 ^ 20) := by
    rw [boostedRewardAmount_eq hs he hc, userMaxRewards_eq hs, paymentAmount_eq]
    rfl
  unfold paymentOf
  dsimp only
  rw [hamount, if_pos (by simpa using hpositive), BigNumber.integerValue_fin, hround]
  rfl

end Parts

/-! ## All users of a week -/

section Users

variable {farmAbi : FarmAbiServiceV2} {abi : WeeklyRewardsSplittingAbiService}
  {scAddress : String} {week : ℕ} {liquidityOf : String → ℕ} {users : List String} {user : String}

/-- Users with no more energy and liquidity than there is, of a farm with
something to divide by. -/
structure Holders (farmAbi : FarmAbiServiceV2) (abi : WeeklyRewardsSplittingAbiService)
    (scAddress : String) (week : ℕ) (liquidityOf : String → ℕ) (users : List String) : Prop where
  nodup : users.Nodup
  nonneg : ∀ user ∈ users, 0 ≤ (abi.userEnergyForWeek scAddress user week).amount
  energy_le : (users.map (energyOf abi scAddress week)).sum ≤ abi.totalEnergyForWeek scAddress week
  liquidity_le : (users.map liquidityOf).sum ≤ farmAbi.farmTokenSupply scAddress
  energy_pos : 0 < abi.totalEnergyForWeek scAddress week
  supply_pos : 0 < farmAbi.farmTokenSupply scAddress
  base_pos : 0 < constantsBase farmAbi scAddress

/-- The user's cap, with all its decimals. -/
def cap (farmAbi : FarmAbiServiceV2) (scAddress : String) (liquidity : ℕ) : ℚ :=
  (farmAbi.boostedYieldsFactors scAddress).maxRewardsFactor *
    ((farmAbi.rewardsPerBlock scAddress * farmAbi.boostedYieldsRewardsPercenatage scAddress : ℕ) /
      (MAX_PERCENT : ℕ)) * (BLOCKS_PER_WEEK : ℕ) * liquidity / farmAbi.farmTokenSupply scAddress

/-- The cap in whole units. -/
def wholeCap (farmAbi : FarmAbiServiceV2) (scAddress : String) (liquidity : ℕ) : ℕ :=
  (farmAbi.boostedYieldsFactors scAddress).maxRewardsFactor *
    (farmAbi.rewardsPerBlock scAddress * farmAbi.boostedYieldsRewardsPercenatage scAddress) *
      BLOCKS_PER_WEEK * liquidity / (MAX_PERCENT * farmAbi.farmTokenSupply scAddress)

/-- What is asked of the boosted payments. -/
structure Sound (farmAbi : FarmAbiServiceV2) (abi : WeeklyRewardsSplittingAbiService)
    (scAddress : String) (week : ℕ) (liquidityOf : String → ℕ) (users : List String) : Prop where
  capped : ∀ user ∈ users, ∀ payment ∈ computeUserRewardsForWeek farmAbi abi scAddress user week
    (.ofNat (liquidityOf user)),
      payment.amount.isLessThanOrEqualTo (.fin (cap farmAbi scAddress (liquidityOf user))) = true
  total : ∀ tokenID, (sumAmounts (ofToken tokenID (users.flatMap fun user =>
    computeUserRewardsForWeek farmAbi abi scAddress user week
      (.ofNat (liquidityOf user))))).isLessThanOrEqualTo
        (.ofNat (totalOf tokenID (abi.totalRewardsForWeek scAddress week))) = true
  positive : ∀ user ∈ users, ∀ payment ∈ computeUserRewardsForWeek farmAbi abi scAddress user week
    (.ofNat (liquidityOf user)), payment.amount.isGreaterThan (.ofNat 0) = true
  minimum : ∀ user ∈ users,
    energyOf abi scAddress week user < (farmAbi.boostedYieldsFactors scAddress).minEnergyAmount ∨
        liquidityOf user < (farmAbi.boostedYieldsFactors scAddress).minFarmAmount →
      computeUserRewardsForWeek farmAbi abi scAddress user week (.ofNat (liquidityOf user)) = []

/-- Above both minimums. -/
def Qualified (farmAbi : FarmAbiServiceV2) (abi : WeeklyRewardsSplittingAbiService)
    (scAddress : String) (week : ℕ) (liquidityOf : String → ℕ) (user : String) : Prop :=
  (farmAbi.boostedYieldsFactors scAddress).minEnergyAmount < energyOf abi scAddress week user ∧
    (farmAbi.boostedYieldsFactors scAddress).minFarmAmount < liquidityOf user

instance : Decidable (Qualified farmAbi abi scAddress week liquidityOf user) :=
  inferInstanceAs (Decidable (_ ∧ _))

/-- A user's part of a reward, in units of the twentieth decimal. -/
def partOf (farmAbi : FarmAbiServiceV2) (abi : WeeklyRewardsSplittingAbiService)
    (scAddress : String) (week : ℕ) (liquidityOf : String → ℕ) (user : String)
    (reward : EsdtTokenPayment ℕ) : ℕ :=
  rewardPart farmAbi scAddress reward.amount (energyOf abi scAddress week user)
    (abi.totalEnergyForWeek scAddress week) (liquidityOf user)

theorem computeUserRewardsForWeek_eq
    (h : 0 ≤ (abi.userEnergyForWeek scAddress user week).amount) :
    computeUserRewardsForWeek farmAbi abi scAddress user week (.ofNat (liquidityOf user)) =
      if Qualified farmAbi abi scAddress week liquidityOf user then
        (abi.totalRewardsForWeek scAddress week).filterMap
          (paymentOf farmAbi scAddress (energyOf abi scAddress week user)
            (abi.totalEnergyForWeek scAddress week) (.ofNat (liquidityOf user)))
      else [] := by
  have hamount : ((energyOf abi scAddress week user : ℕ) : ℤ) =
      (abi.userEnergyForWeek scAddress user week).amount :=
    Int.toNat_of_nonneg h
  unfold computeUserRewardsForWeek
  dsimp only
  rw [← hamount]
  simp only [BigNumber.ofNat, BigNumber.isGreaterThan_fin, Int.cast_natCast, Nat.cast_lt,
    decide_eq_true_eq]
  by_cases hqualified : Qualified farmAbi abi scAddress week liquidityOf user
  · rw [if_neg (not_not.mpr hqualified.1), if_neg (not_not.mpr hqualified.2), if_pos hqualified]
    by_cases hnone : abi.totalRewardsForWeek scAddress week = []
    · simp [hnone]
    · rw [if_neg (by simpa using hnone)]
  · rw [if_neg hqualified]
    by_cases henergy : (farmAbi.boostedYieldsFactors scAddress).minEnergyAmount <
        energyOf abi scAddress week user
    · rw [if_neg (not_not.mpr henergy), if_pos fun hfarm => hqualified ⟨henergy, hfarm⟩]
    · rw [if_pos henergy]

/-- What holds of all amounts that are paid holds of the shares of those who
are qualified. -/
theorem forall_amount_iff (h : Holders farmAbi abi scAddress week liquidityOf users)
    (P : String → BigNumber → Prop) :
    (∀ user ∈ users, ∀ payment ∈ computeUserRewardsForWeek farmAbi abi scAddress user week
        (.ofNat (liquidityOf user)), P user payment.amount) ↔
      ∀ user ∈ users, Qualified farmAbi abi scAddress week liquidityOf user →
        ∀ reward ∈ abi.totalRewardsForWeek scAddress week,
          P user
            (.ofNat (partOf farmAbi abi scAddress week liquidityOf user reward / 10 ^ 20)) := by
  refine forall₂_congr fun user hu => ?_
  rw [computeUserRewardsForWeek_eq (h.nonneg user hu)]
  split
  next hqualified =>
    simp only [List.mem_filterMap, paymentOf_eq h.supply_pos h.energy_pos h.base_pos]
    constructor
    · exact fun hall _ reward hr => hall _ ⟨reward, hr, rfl⟩
    · rintro hall payment ⟨reward, hr, hpayment⟩
      cases hpayment
      exact hall hqualified reward hr
  next hnot =>
    refine iff_of_true (fun payment hpayment => ?_) fun hqualified => absurd hqualified hnot
    cases hpayment

/-- An amount of units is within the cap if it is within its whole part. -/
theorem le_cap_iff (hs : 0 < farmAbi.farmTokenSupply scAddress) (n liquidity : ℕ) :
    (BigNumber.ofNat n).isLessThanOrEqualTo (.fin (cap farmAbi scAddress liquidity)) = true ↔
      n ≤ wholeCap farmAbi scAddress liquidity := by
  have hsupply : (0 : ℚ) < farmAbi.farmTokenSupply scAddress := by exact_mod_cast hs
  have hdenominator : (0 : ℚ) < (MAX_PERCENT * farmAbi.farmTokenSupply scAddress : ℕ) := by
    rw [Nat.cast_pos]
    exact Nat.mul_pos (by decide) hs
  have hcap : cap farmAbi scAddress liquidity =
      ((farmAbi.boostedYieldsFactors scAddress).maxRewardsFactor *
        (farmAbi.rewardsPerBlock scAddress * farmAbi.boostedYieldsRewardsPercenatage scAddress) *
          BLOCKS_PER_WEEK * liquidity : ℕ) /
            ((MAX_PERCENT * farmAbi.farmTokenSupply scAddress : ℕ) : ℚ) := by
    unfold cap
    push_cast
    have hpercent : ((MAX_PERCENT : ℕ) : ℚ) ≠ 0 := by simp [MAX_PERCENT]
    field_simp
  rw [BigNumber.ofNat, BigNumber.isLessThanOrEqualTo_fin, decide_eq_true_eq, hcap,
    le_div_iff₀ hdenominator, ← Nat.cast_mul, Nat.cast_le, wholeCap,
    Nat.le_div_iff_mul_le (Nat.mul_pos (by decide) hs)]

/-- A payment is at most the cap before it is cut off, and so at most the whole cap. -/
theorem part_le_wholeCap (hs : 0 < farmAbi.farmTokenSupply scAddress)
    (reward : EsdtTokenPayment ℕ) :
    partOf farmAbi abi scAddress week liquidityOf user reward / 10 ^ 20 ≤
      wholeCap farmAbi scAddress (liquidityOf user) := by
  rw [wholeCap, Nat.le_div_iff_mul_le (Nat.mul_pos (by decide) hs)]
  have hpart : partOf farmAbi abi scAddress week liquidityOf user reward / 10 ^ 20 * 10 ^ 20 ≤
      capPart farmAbi scAddress BLOCKS_PER_WEEK (liquidityOf user) :=
    (Nat.div_mul_le_self _ _).trans (Nat.min_le_right _ _)
  have hcut := Nat.div_mul_le_self (10 ^ 16 * (farmAbi.rewardsPerBlock scAddress *
    farmAbi.boostedYieldsRewardsPercenatage scAddress * liquidityOf user))
      (farmAbi.farmTokenSupply scAddress)
  unfold capPart at hpart
  unfold MAX_PERCENT
  generalize partOf farmAbi abi scAddress week liquidityOf user reward / 10 ^ 20 = n at hpart ⊢
  generalize 10 ^ 16 * (farmAbi.rewardsPerBlock scAddress *
    farmAbi.boostedYieldsRewardsPercenatage scAddress * liquidityOf user) /
      farmAbi.farmTokenSupply scAddress = perBlock at hpart hcut
  refine Nat.le_of_mul_le_mul_left ?_ (show 0 < 10 ^ 16 by omega)
  calc 10 ^ 16 * (n * (10000 * farmAbi.farmTokenSupply scAddress))
      = n * 10 ^ 20 * farmAbi.farmTokenSupply scAddress := by ring
    _ ≤ (farmAbi.boostedYieldsFactors scAddress).maxRewardsFactor * perBlock * BLOCKS_PER_WEEK *
        farmAbi.farmTokenSupply scAddress := Nat.mul_le_mul_right _ hpart
    _ = (farmAbi.boostedYieldsFactors scAddress).maxRewardsFactor * BLOCKS_PER_WEEK *
        (perBlock * farmAbi.farmTokenSupply scAddress) := by ring
    _ ≤ (farmAbi.boostedYieldsFactors scAddress).maxRewardsFactor * BLOCKS_PER_WEEK *
        (10 ^ 16 * (farmAbi.rewardsPerBlock scAddress *
          farmAbi.boostedYieldsRewardsPercenatage scAddress * liquidityOf user)) :=
      Nat.mul_le_mul_left _ hcut
    _ = _ := by ring

/-- No payment is above the user's cap. -/
theorem capped_of_holders (h : Holders farmAbi abi scAddress week liquidityOf users) :
    ∀ user ∈ users, ∀ payment ∈ computeUserRewardsForWeek farmAbi abi scAddress user week
      (.ofNat (liquidityOf user)),
        payment.amount.isLessThanOrEqualTo (.fin (cap farmAbi scAddress (liquidityOf user))) =
          true := by
  apply (forall_amount_iff h fun user amount =>
    amount.isLessThanOrEqualTo (.fin (cap farmAbi scAddress (liquidityOf user))) = true).mpr
  intro user _ _ reward _
  exact (le_cap_iff h.supply_pos _ _).mpr (part_le_wholeCap h.supply_pos reward)

/-- The averages of a reward are no more than the reward: the constants that
weigh the two parts cancel. -/
theorem sum_averagePart_le (h : Holders farmAbi abi scAddress week liquidityOf users)
    (amount : ℕ) :
    (users.map fun user => averagePart farmAbi scAddress amount (energyOf abi scAddress week user)
      (abi.totalEnergyForWeek scAddress week) (liquidityOf user)).sum ≤ 10 ^ 20 * amount := by
  have henergy : (users.map fun user => energyPart farmAbi scAddress amount
      (energyOf abi scAddress week user) (abi.totalEnergyForWeek scAddress week)).sum ≤
        10 ^ 20 * (amount * (farmAbi.boostedYieldsFactors scAddress).userRewardsEnergy) :=
    sum_shares_le _ _ h.energy_le
  have htokens : (users.map fun user => tokensPart farmAbi scAddress amount
      (liquidityOf user)).sum ≤
        10 ^ 20 * (amount * (farmAbi.boostedYieldsFactors scAddress).userRewardsFarm) :=
    sum_shares_le _ _ h.liquidity_le
  refine (sum_div_le _ users (constantsBase farmAbi scAddress)).trans ?_
  refine Nat.div_le_of_le_mul ?_
  rw [List.sum_map_add]
  refine (Nat.add_le_add henergy htokens).trans (le_of_eq ?_)
  rw [constantsBase]
  ring

/-- The parts of all holders do not exceed the reward. -/
theorem sum_part_le (h : Holders farmAbi abi scAddress week liquidityOf users)
    (reward : EsdtTokenPayment ℕ) :
    (users.map fun user => partOf farmAbi abi scAddress week liquidityOf user reward /
      10 ^ 20).sum ≤ reward.amount := by
  have hparts : (users.map fun user => partOf farmAbi abi scAddress week liquidityOf user
      reward).sum ≤ 10 ^ 20 * reward.amount :=
    (List.sum_le_sum fun user _ => Nat.min_le_left _ _).trans (sum_averagePart_le h reward.amount)
  exact (sum_div_le _ users (10 ^ 20)).trans (Nat.div_le_of_le_mul hparts)

/-- What the users are paid of a token stays within it. -/
theorem total_of_holders (h : Holders farmAbi abi scAddress week liquidityOf users)
    (tokenID : String) :
    (sumAmounts (ofToken tokenID (users.flatMap fun user =>
      computeUserRewardsForWeek farmAbi abi scAddress user week
        (.ofNat (liquidityOf user))))).isLessThanOrEqualTo
          (.ofNat (totalOf tokenID (abi.totalRewardsForWeek scAddress week))) = true := by
  have huser : ∀ user ∈ users, sumAmounts (ofToken tokenID
      (computeUserRewardsForWeek farmAbi abi scAddress user week (.ofNat (liquidityOf user)))) =
        .ofNat ((ofToken tokenID (abi.totalRewardsForWeek scAddress week)).map fun reward =>
          if Qualified farmAbi abi scAddress week liquidityOf user then
            partOf farmAbi abi scAddress week liquidityOf user reward / 10 ^ 20
          else 0).sum := by
    intro user hu
    rw [computeUserRewardsForWeek_eq (h.nonneg user hu)]
    split
    next =>
      refine sumAmounts_filterMap fun reward _ =>
        { paid := fun payment hp => ?_
          unpaid := fun hp => ?_ }
      · rw [paymentOf_eq h.supply_pos h.energy_pos h.base_pos] at hp
        cases hp
        exact ⟨rfl, rfl⟩
      · rw [paymentOf_eq h.supply_pos h.energy_pos h.base_pos] at hp
        cases hp
    next => simp [ofToken, sumAmounts]
  refine sumAmounts_users_le huser fun reward _ => ?_
  refine (List.sum_le_sum fun user _ => ?_).trans (sum_part_le h reward)
  show (if _ then _ else 0) ≤ _
  split
  next => exact le_rfl
  next => exact Nat.zero_le _

/-- The minimums are kept without any condition. -/
theorem minimum_of_holders (h : Holders farmAbi abi scAddress week liquidityOf users)
    (user : String) (hu : user ∈ users)
    (hbelow : energyOf abi scAddress week user <
        (farmAbi.boostedYieldsFactors scAddress).minEnergyAmount ∨
      liquidityOf user < (farmAbi.boostedYieldsFactors scAddress).minFarmAmount) :
    computeUserRewardsForWeek farmAbi abi scAddress user week (.ofNat (liquidityOf user)) = [] := by
  rw [computeUserRewardsForWeek_eq (h.nonneg user hu), if_neg]
  rintro ⟨henergy, hfarm⟩
  omega

/-- A user's parts of a reward make a whole unit, and so does the cap. -/
structure WholePart (farmAbi : FarmAbiServiceV2) (abi : WeeklyRewardsSplittingAbiService)
    (scAddress : String) (week : ℕ) (liquidity : ℕ) (user : String)
    (reward : EsdtTokenPayment ℕ) : Prop where
  average : 10 ^ 20 * constantsBase farmAbi scAddress ≤
    energyPart farmAbi scAddress reward.amount (energyOf abi scAddress week user)
        (abi.totalEnergyForWeek scAddress week) +
      tokensPart farmAbi scAddress reward.amount liquidity
  capped : 10 ^ 20 ≤ capPart farmAbi scAddress BLOCKS_PER_WEEK liquidity

/-- A part that is cut off to nothing is less than one unit. -/
theorem part_pos_iff (hc : 0 < constantsBase farmAbi scAddress) (reward : EsdtTokenPayment ℕ) :
    0 < partOf farmAbi abi scAddress week liquidityOf user reward / 10 ^ 20 ↔
      WholePart farmAbi abi scAddress week (liquidityOf user) user reward := by
  rw [share_pos_iff (by omega), partOf, rewardPart, Nat.le_min, averagePart,
    Nat.le_div_iff_mul_le hc]
  constructor
  · intro hparts
    exact { average := hparts.1, capped := hparts.2 }
  · intro hwhole
    exact ⟨hwhole.average, hwhole.capped⟩

/-- **Boosted rewards.** The payments are bounded by cap and rewards and kept
from those below a minimum in any case. They are positive exactly if the parts
of every qualified user, and the cap, make a whole unit. -/
theorem boosted_iff (h : Holders farmAbi abi scAddress week liquidityOf users) :
    Sound farmAbi abi scAddress week liquidityOf users ↔
      ∀ user ∈ users, Qualified farmAbi abi scAddress week liquidityOf user →
        ∀ reward ∈ abi.totalRewardsForWeek scAddress week,
          WholePart farmAbi abi scAddress week (liquidityOf user) user reward := by
  have hpositives := forall_amount_iff h fun _ amount => amount.isGreaterThan (.ofNat 0) = true
  simp only [BigNumber.isGreaterThan_zero_iff, part_pos_iff h.base_pos] at hpositives
  constructor
  · intro hsound
    exact hpositives.mp hsound.positive
  · intro hwhole
    exact
      { capped := capped_of_holders h
        total := total_of_holders h
        positive := hpositives.mpr hwhole
        minimum := minimum_of_holders h }

/-! ## Two equal users -/

private def equalFarm : FarmAbiServiceV2 where
  boostedYieldsFactors := fun _ =>
    { maxRewardsFactor := 10
      userRewardsEnergy := 3
      userRewardsFarm := 2
      minEnergyAmount := 1
      minFarmAmount := 1 }
  boostedYieldsRewardsPercenatage := fun _ => 2500
  rewardsPerBlock := fun _ => 100
  farmTokenSupply := fun _ => 10
  accumulatedRewardsForWeek := fun _ _ => 0

private def equalWeek (reward : ℕ) : WeeklyRewardsSplittingAbiService where
  totalRewardsForWeek := fun _ _ =>
    [{ tokenType := 3
       tokenID := "LKMEX-aab910"
       nonce := 0
       amount := reward }]
  userEnergyForWeek := fun _ _ _ =>
    { amount := 5
      lastUpdateEpoch := 0
      totalLockedTokens := 0 }
  totalEnergyForWeek := fun _ _ => 10
  getCurrentClaimProgress := fun _ _ =>
    { userError := false
      returnMessage := ""
      firstValue := none }

private theorem holders_equalFarm (reward : ℕ) :
    Holders equalFarm (equalWeek reward) "farm" 1 (fun _ => 5) ["alice", "bob"] where
  nodup := by decide
  nonneg := fun _ _ => Int.natCast_nonneg 5
  energy_le := Nat.le_refl 10
  liquidity_le := Nat.le_refl 10
  energy_pos := Nat.succ_pos 9
  supply_pos := Nat.succ_pos 9
  base_pos := Nat.succ_pos 4

/-- A thousand is split into halves. -/
theorem boosted_two_halves :
    Sound equalFarm (equalWeek 1000) "farm" 1 (fun _ => 5) ["alice", "bob"] := by
  refine (boosted_iff (holders_equalFarm 1000)).mpr fun user _ _ reward hr => ?_
  obtain rfl := List.mem_singleton.mp hr
  have henergy : energyOf (equalWeek 1000) "farm" 1 user = 5 := rfl
  exact
    { average := by
        rw [henergy]
        decide
      capped := by decide }

/-- One is not: both users are paid nothing. -/
theorem boosted_reward_unpaid :
    Holders equalFarm (equalWeek 1) "farm" 1 (fun _ => 5) ["alice", "bob"] ∧
      ¬Sound equalFarm (equalWeek 1) "farm" 1 (fun _ => 5) ["alice", "bob"] := by
  refine ⟨holders_equalFarm 1, fun h => ?_⟩
  have hpositive := h.positive "alice" (List.mem_cons_self ..)
    { amount := .ofNat 0
      nonce := 0
      tokenID := "LKMEX-aab910"
      tokenType := 3 }
  exact absurd (hpositive (by decide +kernel)) (by decide)

end Users

end MxExchange.Farm
