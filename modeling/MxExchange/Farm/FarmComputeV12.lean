import MxExchange.Pair.LiquidityPositions
import MxExchange.Staking.StakingCompute

/-!
# `farm.v1.2.compute.service.ts`: locked and unlocked rewards

Who lets a farm of version 1.2 lock the rewards gets farm tokens for a multiple
of the farming tokens entered with. The contract keeps the supply of farm tokens
and the reserve of farming tokens; the service finds from them how much of the
reserve has been entered with either choice, as the solution of two linear
equations (`farmingTokenReserves_eq`). The two annual rates follow from these
reserves' values, and distribute exactly the rewards of a year
(`rewardsAPR_weighted`).
-/

namespace MxExchange.Farm

open MxExchange.Num
open AutoRouter (computeValueUSD)
open Pair (Address TokenID EsdtToken PairService)
open Staking (Division BLOCKS_IN_YEAR)

/-- The views of the contract. -/
structure FarmAbiServiceV1_2 where
  farmedTokenID : String → TokenID
  farmingTokenID : String → TokenID
  farmingTokenReserve : String → ℕ
  farmTokenSupply : String → ℕ
  lockedRewardAprMuliplier : String → ℕ
  rewardsPerBlock : String → ℕ

/-- The service, with its divisions as a parameter. -/
structure FarmComputeServiceV1_2 where
  division : Division
  farmAbi : FarmAbiServiceV1_2
  /-- `farmService`: the tokens with their decimals. -/
  getFarmedToken : String → EsdtToken
  getFarmingToken : String → EsdtToken
  /-- The tokens of the configuration, among them none of a pair's. -/
  scAddressHas : TokenID → Bool
  pairService : PairService
  /-- `pairCompute` and `tokenCompute`, which both price a token alone. -/
  tokenPriceUSD : TokenID → BigNumber
  feesAPR : Option Address → BigNumber

namespace FarmComputeServiceV1_2

variable (service : FarmComputeServiceV1_2) (farmAddress : String)

/-! ## The reserves -/

/-- The reserve is split by solving for the part that earns no more for being
locked. -/
def computeUnlockedFarmingTokenReserve : BigNumber :=
  let farmingTokenReserve := service.farmAbi.farmingTokenReserve farmAddress
  let aprMultiplier := service.farmAbi.lockedRewardAprMuliplier farmAddress
  service.division.dividedBy
    (((BigNumber.ofNat farmingTokenReserve).multipliedBy (.ofNat aprMultiplier)).minus
      (.ofNat (service.farmAbi.farmTokenSupply farmAddress)))
    (.fin ((aprMultiplier : ℚ) - 1))

/-- The rest of the reserve. -/
def computeLockedFarmingTokenReserve : BigNumber :=
  (BigNumber.ofNat (service.farmAbi.farmingTokenReserve farmAddress)).minus
    (service.computeUnlockedFarmingTokenReserve farmAddress)

/-- A reserve as a value: of tokens that have a price, or of liquidity. -/
def reserveUSD (reserve : BigNumber) : BigNumber :=
  let farmingToken := service.getFarmingToken farmAddress
  if service.scAddressHas farmingToken.identifier then
    computeValueUSD reserve farmingToken.decimals (service.tokenPriceUSD farmingToken.identifier)
  else
    service.pairService.getLiquidityPositionUSD
      (service.pairService.getPairAddressByLpTokenID farmingToken.identifier) reserve

/-- What the farm has locked, in dollars. -/
def computeFarmLockedValueUSD : BigNumber :=
  service.reserveUSD farmAddress (.ofNat (service.farmAbi.farmingTokenReserve farmAddress))

def computeLockedFarmingTokenReserveUSD : BigNumber :=
  service.reserveUSD farmAddress (service.computeLockedFarmingTokenReserve farmAddress)

def computeUnlockedFarmingTokenReserveUSD : BigNumber :=
  service.reserveUSD farmAddress (service.computeUnlockedFarmingTokenReserve farmAddress)

/-- The value of both parts, the locked one as often as its multiplier says. -/
def computeVirtualValueLockedUSD : BigNumber :=
  ((service.computeLockedFarmingTokenReserveUSD farmAddress).multipliedBy
      (.ofNat (service.farmAbi.lockedRewardAprMuliplier farmAddress))).plus
    (service.computeUnlockedFarmingTokenReserveUSD farmAddress)

/-! ## The rates -/

/-- The rewards of a year in dollars. -/
def computeAnualRewardsUSD : BigNumber :=
  let farmedToken := service.getFarmedToken farmAddress
  let totalRewardsPerYear :=
    (BigNumber.ofNat (service.farmAbi.rewardsPerBlock farmAddress)).multipliedBy
      (.ofNat BLOCKS_IN_YEAR)
  computeValueUSD totalRewardsPerYear farmedToken.decimals
    (service.tokenPriceUSD farmedToken.identifier)

/-- What a rate is before the fees: the rewards of a year, the part of them
that a reserve gets by its weight, by the value of the reserve. -/
def rewardsAPR (weightUSD reserveUSD : BigNumber) : BigNumber :=
  let reservePercent :=
    service.division.dividedBy weightUSD (service.computeVirtualValueLockedUSD farmAddress)
  let distributedRewardsUSD :=
    (service.computeAnualRewardsUSD farmAddress).multipliedBy reservePercent
  service.division.dividedBy distributedRewardsUSD reserveUSD

def unlockedRewardsAPR : BigNumber :=
  let unlockedFarmingTokenReserveUSD := service.computeUnlockedFarmingTokenReserveUSD farmAddress
  service.rewardsAPR farmAddress unlockedFarmingTokenReserveUSD unlockedFarmingTokenReserveUSD

def lockedRewardsAPR : BigNumber :=
  let lockedFarmingTokenReserveUSD := service.computeLockedFarmingTokenReserveUSD farmAddress
  service.rewardsAPR farmAddress
    (lockedFarmingTokenReserveUSD.multipliedBy
      (.ofNat (service.farmAbi.lockedRewardAprMuliplier farmAddress)))
    lockedFarmingTokenReserveUSD

/-- With the fees of the pair behind the farming token, where there are any. -/
def withFeesAPR (rewardsAPR : BigNumber) : BigNumber :=
  let farmedTokenID := service.farmAbi.farmedTokenID farmAddress
  let farmingTokenID := service.farmAbi.farmingTokenID farmAddress
  let feesAPR :=
    if farmedTokenID = farmingTokenID then BigNumber.ofNat 0
    else service.feesAPR (service.pairService.getPairAddressByLpTokenID farmingTokenID)
  if feesAPR = .nan then rewardsAPR else rewardsAPR.plus feesAPR

/-- The rate of the unlocked part, with that of the fees. -/
def computeUnlockedRewardsAPR : BigNumber :=
  service.withFeesAPR farmAddress (service.unlockedRewardsAPR farmAddress)

def computeLockedRewardsAPR : BigNumber :=
  service.withFeesAPR farmAddress (service.lockedRewardsAPR farmAddress)

end FarmComputeServiceV1_2

/-! ## Exact divisions -/

/-- A farm whose locked rewards count for more, and a state its contract can
be in, seen by a service that divides exactly. -/
structure LockedRewardsFarm where
  service : FarmComputeServiceV1_2
  farmAddress : String
  exact : service.division = .exact
  aprMultiplier_gt : 1 < service.farmAbi.lockedRewardAprMuliplier farmAddress
  reserve_le : service.farmAbi.farmingTokenReserve farmAddress ≤
    service.farmAbi.farmTokenSupply farmAddress
  supply_le : service.farmAbi.farmTokenSupply farmAddress ≤
    service.farmAbi.lockedRewardAprMuliplier farmAddress *
      service.farmAbi.farmingTokenReserve farmAddress

namespace LockedRewardsFarm

variable (farm : LockedRewardsFarm)

/-- The views of the contract, in rationals. -/
def aprMultiplier : ℚ := farm.service.farmAbi.lockedRewardAprMuliplier farm.farmAddress

def reserve : ℚ := farm.service.farmAbi.farmingTokenReserve farm.farmAddress

def supply : ℚ := farm.service.farmAbi.farmTokenSupply farm.farmAddress

/-- What has been entered with for unlocked rewards. -/
def unlocked : ℚ := (farm.reserve * farm.aprMultiplier - farm.supply) / (farm.aprMultiplier - 1)

/-- Locking earns more. -/
theorem aprMultiplier_sub_one_pos : 0 < farm.aprMultiplier - 1 := by
  have : (1 : ℚ) < farm.aprMultiplier := Nat.one_lt_cast.mpr farm.aprMultiplier_gt
  linarith

/-- Divisions are exact here. -/
theorem dividedBy_eq (a : ℚ) {b : ℚ} (h : b ≠ 0) :
    farm.service.division.dividedBy (.fin a) (.fin b) = .fin (a / b) := by
  rw [farm.exact]
  exact Division.exact.dividedBy_fin a h

/-- A positive divisor is as good as a factor. -/
theorem multipliedBy_dividedBy (x : BigNumber) {p d : ℚ} (hp : 0 < p) (hd : 0 < d) :
    farm.service.division.dividedBy (x.multipliedBy (.fin p)) (.fin d) =
      x.multipliedBy (.fin (p / d)) := by
  rw [BigNumber.multipliedBy_of_pos x hp, BigNumber.multipliedBy_of_pos x (div_pos hp hd)]
  cases x with
  | fin q => exact (farm.dividedBy_eq _ hd.ne').trans (congrArg _ (mul_div_assoc q p d))
  | nan =>
    rw [farm.exact]
    rfl
  | infinity =>
    rw [farm.exact]
    show BigNumber.infinityOfSign (1 * if d < 0 then -1 else 1) = _
    rw [if_neg hd.le.not_gt]
    rfl
  | negInfinity =>
    rw [farm.exact]
    show BigNumber.infinityOfSign (-1 * if d < 0 then -1 else 1) = _
    rw [if_neg hd.le.not_gt]
    rfl

theorem computeUnlockedFarmingTokenReserve_eq :
    farm.service.computeUnlockedFarmingTokenReserve farm.farmAddress = .fin farm.unlocked := by
  unfold FarmComputeServiceV1_2.computeUnlockedFarmingTokenReserve
  simp only [BigNumber.ofNat, BigNumber.multipliedBy_fin, BigNumber.minus_fin]
  exact farm.dividedBy_eq _ farm.aprMultiplier_sub_one_pos.ne'

theorem computeLockedFarmingTokenReserve_eq :
    farm.service.computeLockedFarmingTokenReserve farm.farmAddress =
      .fin (farm.reserve - farm.unlocked) := by
  rw [FarmComputeServiceV1_2.computeLockedFarmingTokenReserve,
    computeUnlockedFarmingTokenReserve_eq]
  exact BigNumber.minus_fin _ _

/-- Neither part of the reserve is negative. -/
theorem unlocked_nonneg : 0 ≤ farm.unlocked := by
  have hsupply : farm.supply ≤ farm.aprMultiplier * farm.reserve := by
    unfold supply aprMultiplier reserve
    exact_mod_cast farm.supply_le
  refine div_nonneg ?_ farm.aprMultiplier_sub_one_pos.le
  linarith

/-- The two equations, solved. -/
theorem unlocked_mul :
    farm.unlocked * (farm.aprMultiplier - 1) = farm.reserve * farm.aprMultiplier - farm.supply :=
  div_mul_cancel₀ _ farm.aprMultiplier_sub_one_pos.ne'

theorem unlocked_le : farm.unlocked ≤ farm.reserve := by
  have hreserve : farm.reserve ≤ farm.supply := Nat.cast_le.mpr farm.reserve_le
  refine (div_le_iff₀ farm.aprMultiplier_sub_one_pos).mpr ?_
  linarith

/-- The reserves belong to what the contract keeps. -/
structure Reserves (locked unlocked : ℚ) : Prop where
  locked_eq : farm.service.computeLockedFarmingTokenReserve farm.farmAddress = .fin locked
  unlocked_eq : farm.service.computeUnlockedFarmingTokenReserve farm.farmAddress = .fin unlocked
  locked_nonneg : 0 ≤ locked
  unlocked_nonneg : 0 ≤ unlocked
  reserve_eq : locked + unlocked = farm.reserve
  supply_eq : farm.aprMultiplier * locked + unlocked = farm.supply

/-- Both parts are what they are to be. -/
theorem reserves : farm.Reserves (farm.reserve - farm.unlocked) farm.unlocked where
  locked_eq := farm.computeLockedFarmingTokenReserve_eq
  unlocked_eq := farm.computeUnlockedFarmingTokenReserve_eq
  locked_nonneg := sub_nonneg.mpr farm.unlocked_le
  unlocked_nonneg := farm.unlocked_nonneg
  reserve_eq := sub_add_cancel _ _
  supply_eq := by
    have := farm.unlocked_mul
    linarith

/-- What the rates distribute. -/
structure Rates (lockedUSD unlockedUSD : ℚ) : Prop where
  ratio : farm.service.lockedRewardsAPR farm.farmAddress =
    (farm.service.unlockedRewardsAPR farm.farmAddress).multipliedBy (.fin farm.aprMultiplier)
  weighted :
    ((farm.service.lockedRewardsAPR farm.farmAddress).multipliedBy (.fin lockedUSD)).plus
        ((farm.service.unlockedRewardsAPR farm.farmAddress).multipliedBy (.fin unlockedUSD)) =
      farm.service.computeAnualRewardsUSD farm.farmAddress

section Values

variable {lockedUSD unlockedUSD : ℚ}
  (hlocked : farm.service.computeLockedFarmingTokenReserveUSD farm.farmAddress = .fin lockedUSD)
  (hunlocked : farm.service.computeUnlockedFarmingTokenReserveUSD farm.farmAddress =
    .fin unlockedUSD)
include hlocked hunlocked

/-- The virtual value, in rationals. -/
theorem computeVirtualValueLockedUSD_eq :
    farm.service.computeVirtualValueLockedUSD farm.farmAddress =
      .fin (lockedUSD * farm.aprMultiplier + unlockedUSD) := by
  rw [FarmComputeServiceV1_2.computeVirtualValueLockedUSD, hlocked, hunlocked]
  rfl

/-- A rate of the rewards, in rationals. -/
theorem rewardsAPR_eq (hL : 0 < lockedUSD) (hU : 0 < unlockedUSD) {weight reserve : ℚ}
    (hweight : 0 < weight) (hreserve : 0 < reserve) :
    farm.service.rewardsAPR farm.farmAddress (.fin weight) (.fin reserve) =
      (farm.service.computeAnualRewardsUSD farm.farmAddress).multipliedBy
        (.fin (weight / (lockedUSD * farm.aprMultiplier + unlockedUSD) / reserve)) := by
  have hm := farm.aprMultiplier_sub_one_pos
  have hvirtual : 0 < lockedUSD * farm.aprMultiplier + unlockedUSD :=
    add_pos (mul_pos hL (by linarith)) hU
  unfold FarmComputeServiceV1_2.rewardsAPR
  dsimp only
  rw [computeVirtualValueLockedUSD_eq farm hlocked hunlocked, dividedBy_eq farm _ hvirtual.ne',
    multipliedBy_dividedBy farm _ (div_pos hweight hvirtual) hreserve]

/-- Both rates are what they are to be. -/
theorem rates (hL : 0 < lockedUSD) (hU : 0 < unlockedUSD) : farm.Rates lockedUSD unlockedUSD := by
  have hm : 0 < farm.aprMultiplier := by linarith [farm.aprMultiplier_sub_one_pos]
  have hvirtual : 0 < lockedUSD * farm.aprMultiplier + unlockedUSD :=
    add_pos (mul_pos hL hm) hU
  have hl : farm.service.lockedRewardsAPR farm.farmAddress =
      (farm.service.computeAnualRewardsUSD farm.farmAddress).multipliedBy
        (.fin (farm.aprMultiplier / (lockedUSD * farm.aprMultiplier + unlockedUSD))) := by
    have h := farm.rewardsAPR_eq hlocked hunlocked hL hU (mul_pos hL hm) hL
    rw [div_right_comm, mul_div_cancel_left₀ _ hL.ne'] at h
    rw [← h, FarmComputeServiceV1_2.lockedRewardsAPR, hlocked]
    rfl
  have hu : farm.service.unlockedRewardsAPR farm.farmAddress =
      (farm.service.computeAnualRewardsUSD farm.farmAddress).multipliedBy
        (.fin (1 / (lockedUSD * farm.aprMultiplier + unlockedUSD))) := by
    have h := farm.rewardsAPR_eq hlocked hunlocked hL hU hU hU
    rw [div_right_comm, div_self hU.ne'] at h
    rw [← h, FarmComputeServiceV1_2.unlockedRewardsAPR, hunlocked]
  constructor
  · rw [hl, hu, BigNumber.multipliedBy_multipliedBy _ (one_div_pos.mpr hvirtual) hm,
      one_div_mul_eq_div]
  · have hpart : 0 < farm.aprMultiplier / (lockedUSD * farm.aprMultiplier + unlockedUSD) :=
      div_pos hm hvirtual
    have hunit : farm.aprMultiplier / (lockedUSD * farm.aprMultiplier + unlockedUSD) * lockedUSD +
        1 / (lockedUSD * farm.aprMultiplier + unlockedUSD) * unlockedUSD = 1 := by
      field_simp
    rw [hl, hu, BigNumber.multipliedBy_multipliedBy _ hpart hL,
      BigNumber.multipliedBy_multipliedBy _ (one_div_pos.mpr hvirtual) hU,
      BigNumber.multipliedBy_plus _ (mul_pos hpart hL) (mul_pos (one_div_pos.mpr hvirtual) hU),
      hunit, BigNumber.multipliedBy_one]

end Values

/-- **The split, and what it distributes.** Whatever the reserves are worth,
as long as both are worth something. -/
theorem reserves_and_rates :
    (∃ locked unlocked : ℚ, farm.Reserves locked unlocked) ∧
      ∀ lockedUSD unlockedUSD : ℚ,
        farm.service.computeLockedFarmingTokenReserveUSD farm.farmAddress = .fin lockedUSD →
        farm.service.computeUnlockedFarmingTokenReserveUSD farm.farmAddress = .fin unlockedUSD →
        0 < lockedUSD → 0 < unlockedUSD → farm.Rates lockedUSD unlockedUSD :=
  ⟨⟨_, _, farm.reserves⟩, fun _ _ hlocked hunlocked hL hU => farm.rates hlocked hunlocked hL hU⟩

end LockedRewardsFarm

/-- Ten tokens, five of them entered with locked rewards that count twice. -/
def sampleLockedRewards : LockedRewardsFarm where
  service :=
    { division := .exact
      farmAbi :=
        { farmedTokenID := fun _ => "MEX-455c57"
          farmingTokenID := fun _ => "MEX-455c57"
          farmingTokenReserve := fun _ => 10
          farmTokenSupply := fun _ => 15
          lockedRewardAprMuliplier := fun _ => 2
          rewardsPerBlock := fun _ => 3 }
      getFarmedToken := fun _ => ⟨"MEX-455c57", 1⟩
      getFarmingToken := fun _ => ⟨"MEX-455c57", 1⟩
      scAddressHas := fun tokenID => tokenID = "MEX-455c57"
      pairService :=
        { getPairAddressByLpTokenID := fun _ => none
          pairInfoMetadata := fun _ => ⟨0, 0, 0⟩
          getFirstToken := fun _ => ⟨"", 0⟩
          getSecondToken := fun _ => ⟨"", 0⟩
          firstTokenPriceUSD := fun _ => .nan
          secondTokenPriceUSD := fun _ => .nan }
      tokenPriceUSD := fun _ => .ofNat 4
      feesAPR := fun _ => .nan }
  farmAddress := "farm"
  exact := rfl
  aprMultiplier_gt := by decide
  reserve_le := by decide
  supply_le := by decide

theorem sampleLockedRewards_rates : sampleLockedRewards.Rates 2 2 :=
  sampleLockedRewards.reserves_and_rates.2 2 2 (by decide +kernel) (by decide +kernel)
    (by decide) (by decide)

end MxExchange.Farm
