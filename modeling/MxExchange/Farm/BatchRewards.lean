import MxExchange.Farm.FarmCompute
import MxExchange.Collections.GroupBest
import MxExchange.Collections.Outcome

/-!
# `farm.v2.service.ts`: the rewards of a batch of positions

Boosted rewards belong to a user and a farm, not to a position, so in a batch
of positions they are attached to one position of each farm. A first pass
picks it, the largest of the farm, and a second one recognises it again by
`===`. Positions are objects, kept by reference here: two of them can have
equal fields and are still two.

The first pass is the library's `groupBest`, with the positions' liquidities
compared the way the decimal library compares them. What is left to show is
which of the two kinds of result each position gets
(`getBatchRewardsForPosition_spec`).
-/

namespace MxExchange.Farm

open MxExchange.Num WeeklyRewards Collections

/-- A reference to a position of the request. -/
abbrev PositionRef := ℕ

/-- What is decoded of a position's attributes. -/
structure FarmTokenAttributesV2 where
  rewardPerShare : BigNumber
  enteringEpoch : ℤ

structure UserInfoByWeekModel where
  scAddress : String
  userAddress : String
  week : ℕ
  positionAmount : BigNumber
  deriving DecidableEq

/-- The rewards of a position; the boosted ones are of some positions only. -/
structure RewardsModel where
  identifier : String
  remainingFarmingEpochs : ℤ
  rewards : BigNumber
  boostedRewardsWeeklyInfo : Option (List UserInfoByWeekModel)
  claimProgress : Option ClaimProgress
  accumulatedRewards : Option BigNumber
  deriving DecidableEq

/-- What the service asks others. -/
structure FarmServiceV2 where
  farmCompute : FarmComputeService
  fromAttributes : String → Except String FarmTokenAttributesV2
  calculateRewardsForGivenPosition : CalculateRewardsArgs → Except String BigNumber
  currentWeek : String → ℕ
  lastActiveWeekForUser : String → String → ℕ
  currentClaimProgress : String → String → ClaimProgress
  userAccumulatedRewards : String → String → ℕ → BigNumber → Except String BigNumber
  getCurrentEpoch : ℤ
  minimumFarmingEpochs : String → ℤ

/-- Rewards of older weeks cannot be claimed any more. -/
def USER_MAX_CLAIM_WEEKS : ℕ := 4

namespace FarmServiceV2

variable (service : FarmServiceV2)

/-- Epochs until the position can be left without a penalty. -/
def getRemainingFarmingEpochs (farmAddress : String) (enteringEpoch : ℤ) : ℤ :=
  max 0 (service.minimumFarmingEpochs farmAddress - (service.getCurrentEpoch - enteringEpoch))

/-- The weeks before the current one that can still be claimed. -/
def boostedWeeks (positon : CalculateRewardsArgs) : List ℕ :=
  let currentWeek := service.currentWeek positon.farmAddress
  let lastActiveWeekUser :=
    if service.lastActiveWeekForUser positon.farmAddress positon.user = 0 then currentWeek
    else service.lastActiveWeekForUser positon.farmAddress positon.user
  let startWeek := max (currentWeek - USER_MAX_CLAIM_WEEKS) lastActiveWeekUser
  (List.range' startWeek (currentWeek - startWeek)).filter fun week => 1 ≤ week

/-- The base rewards: asked of the contract, or computed. -/
def baseRewards (positon : CalculateRewardsArgs) (farmTokenAttributes : FarmTokenAttributesV2) :
    Except String BigNumber :=
  if positon.vmQuery then service.calculateRewardsForGivenPosition positon
  else
    .ok (service.farmCompute.computeFarmRewardsForPosition positon
      farmTokenAttributes.rewardPerShare)

/-- The rewards of one position, with the boosted ones if they are asked for. -/
def getRewardsForPosition (positon : CalculateRewardsArgs) (computeBoosted : Bool) :
    Except String RewardsModel := do
  let farmTokenAttributes ← service.fromAttributes positon.attributes
  let rewards ← service.baseRewards positon farmTokenAttributes
  let model : RewardsModel :=
    { identifier := positon.identifier
      remainingFarmingEpochs :=
        service.getRemainingFarmingEpochs positon.farmAddress farmTokenAttributes.enteringEpoch
      rewards := rewards.integerValue
      boostedRewardsWeeklyInfo := none
      claimProgress := none
      accumulatedRewards := none }
  if computeBoosted then
    let userAccumulatedRewards ←
      service.userAccumulatedRewards positon.farmAddress positon.user
        (service.currentWeek positon.farmAddress) positon.liquidity
    return { model with
      boostedRewardsWeeklyInfo := some <| (service.boostedWeeks positon).map fun week =>
        { scAddress := positon.farmAddress
          userAddress := positon.user
          week := week
          positionAmount := positon.liquidity }
      claimProgress := some (service.currentClaimProgress positon.farmAddress positon.user)
      accumulatedRewards := some userAccumulatedRewards }
  else return model

variable (objects : PositionRef → CalculateRewardsArgs)

/-- The body of `positions.forEach`. -/
def trackBoosted (boostedPositions : JsMap String PositionRef) (position : PositionRef) :
    JsMap String PositionRef :=
  let boostedPosition :=
    (JsMap.get boostedPositions (objects position).farmAddress).getD position
  let boostedPosition :=
    if (objects position).liquidity.isGreaterThan (objects boostedPosition).liquidity then position
    else boostedPosition
  JsMap.set boostedPositions (objects position).farmAddress boostedPosition

/-- The position of each farm that the boosted rewards are computed for. -/
def boostedPositions (positions : List PositionRef) : JsMap String PositionRef :=
  positions.foldl (trackBoosted objects) []

/-- `boostedPositions.get(position.farmAddress) === position` -/
def isBoosted (positions : List PositionRef) (position : PositionRef) : Bool :=
  JsMap.get (boostedPositions objects positions) (objects position).farmAddress = some position

/-- All positions, in the order they were asked for. -/
def getBatchRewardsForPosition (positions : List PositionRef) :
    Except String (List RewardsModel) :=
  positions.mapM fun position =>
    service.getRewardsForPosition (objects position) (isBoosted objects positions position)

end FarmServiceV2

/-! ## With and without boosted rewards -/

/-- The boosted weekly rewards are attached. -/
def RewardsModel.Boosted (model : RewardsModel) : Prop :=
  model.boostedRewardsWeeklyInfo.isSome ∧ model.claimProgress.isSome ∧
    model.accumulatedRewards.isSome

/-- Nothing is. -/
def RewardsModel.Plain (model : RewardsModel) : Prop :=
  model.boostedRewardsWeeklyInfo = none ∧ model.claimProgress = none ∧
    model.accumulatedRewards = none

theorem RewardsModel.Plain.not_boosted {model : RewardsModel} (h : model.Plain) :
    ¬model.Boosted := by
  intro hboosted
  rw [Boosted, h.1] at hboosted
  cases hboosted.1

/-- What is asked of the results of a batch. They are those of the positions,
in their order, each with all of the boosted rewards or with none of them;
one position of each farm has them, and it has the most liquidity there. -/
structure OneBoosted (service : FarmServiceV2) (objects : PositionRef → CalculateRewardsArgs)
    (positions : List PositionRef) (results : List RewardsModel) : Prop where
  inOrder : List.Forall₂ (fun position model =>
    (service.getRewardsForPosition (objects position) true = .ok model ∧ model.Boosted) ∨
      (service.getRewardsForPosition (objects position) false = .ok model ∧ model.Plain))
    positions results
  one : ∀ farmAddress, (∃ position ∈ positions, (objects position).farmAddress = farmAddress) →
    ∃! i : ℕ, ∃ position model, positions[i]? = some position ∧ results[i]? = some model ∧
      (objects position).farmAddress = farmAddress ∧ model.Boosted
  largest : ∀ (i : ℕ) (position : PositionRef) (model : RewardsModel),
    positions[i]? = some position → results[i]? = some model → model.Boosted →
    ∀ other ∈ positions, (objects other).farmAddress = (objects position).farmAddress →
      (objects other).liquidity.isGreaterThan (objects position).liquidity = false

namespace FarmServiceV2

section Results

variable {service : FarmServiceV2} {positon : CalculateRewardsArgs} {model : RewardsModel}

theorem boosted_of_ok (h : service.getRewardsForPosition positon true = .ok model) :
    model.Boosted := by
  obtain ⟨attributes, -, hrest⟩ := bind_eq_ok.mp h
  obtain ⟨rewards, -, hrest⟩ := bind_eq_ok.mp hrest
  obtain ⟨accumulated, -, hmodel⟩ := bind_eq_ok.mp hrest
  rw [← pure_eq_ok.mp hmodel]
  exact ⟨rfl, rfl, rfl⟩

theorem plain_of_ok (h : service.getRewardsForPosition positon false = .ok model) :
    model.Plain := by
  obtain ⟨attributes, -, hrest⟩ := bind_eq_ok.mp h
  obtain ⟨rewards, -, hmodel⟩ := bind_eq_ok.mp hrest
  rw [← pure_eq_ok.mp hmodel]
  exact ⟨rfl, rfl, rfl⟩

end Results

/-! ## The two passes -/

section Passes

variable {service : FarmServiceV2} {objects : PositionRef → CalculateRewardsArgs}
  {positions : List PositionRef} {results : List RewardsModel}

/-- More liquidity, as the decimal library sees it. -/
def larger (objects : PositionRef → CalculateRewardsArgs) (position other : PositionRef) : Bool :=
  (objects position).liquidity.isGreaterThan (objects other).liquidity

/-- Liquidity orders positions strictly. -/
theorem strict_larger : Strict (larger objects) where
  trans hxy hyz := BigNumber.isLessThan_trans hyz hxy
  irrefl _ := BigNumber.isLessThan_irrefl _

/-- The loop keeps the first largest position of each farm. -/
theorem boostedPositions_eq : boostedPositions objects positions =
    groupBest (fun position => (objects position).farmAddress) (larger objects) positions :=
  rfl

/-- A position is boosted if it is the one kept of its farm. -/
theorem isBoosted_iff {position : PositionRef} : isBoosted objects positions position = true ↔
    JsMap.get (groupBest (fun position => (objects position).farmAddress) (larger objects)
      positions) (objects position).farmAddress = some position := by
  rw [isBoosted, decide_eq_true_eq, boostedPositions_eq]

/-- The result of a position says whether it was picked. -/
theorem boosted_iff_isBoosted {position : PositionRef} {model : RewardsModel}
    (h : service.getRewardsForPosition (objects position)
      (isBoosted objects positions position) = .ok model) :
    model.Boosted ↔ isBoosted objects positions position = true := by
  cases hpicked : isBoosted objects positions position with
  | true =>
    rw [hpicked] at h
    exact iff_of_true (boosted_of_ok h) rfl
  | false =>
    rw [hpicked] at h
    exact iff_of_false (plain_of_ok h).not_boosted Bool.false_ne_true

theorem oneBoosted_of_ok (hnodup : positions.Nodup)
    (h : service.getBatchRewardsForPosition objects positions = .ok results) :
    OneBoosted service objects positions results := by
  have hall := mapM_eq_ok.mp h
  have hat : ∀ (i : ℕ) (position : PositionRef) (model : RewardsModel),
      positions[i]? = some position → results[i]? = some model →
      (model.Boosted ↔ isBoosted objects positions position = true) := by
    intro i position model hposition hmodel
    obtain ⟨hi, rfl⟩ := List.getElem?_eq_some_iff.mp hposition
    obtain ⟨hi', rfl⟩ := List.getElem?_eq_some_iff.mp hmodel
    exact boosted_iff_isBoosted (hall.get hi hi')
  refine ⟨hall.imp ?_, ?_, ?_⟩
  · intro position model hmodel
    cases hpicked : isBoosted objects positions position with
    | true =>
      rw [hpicked] at hmodel
      exact Or.inl ⟨hmodel, boosted_of_ok hmodel⟩
    | false =>
      rw [hpicked] at hmodel
      exact Or.inr ⟨hmodel, plain_of_ok hmodel⟩
  · intro farmAddress hfarm
    obtain ⟨i, ⟨position, hposition, hkey, hkept⟩, hunique⟩ :=
      existsUnique_kept strict_larger hnodup hfarm
    have hi : i < results.length := by
      rw [← hall.length_eq]
      exact (List.getElem?_eq_some_iff.mp hposition).1
    have hmodel : results[i]? = some results[i] := List.getElem?_eq_getElem hi
    refine ⟨i, ⟨position, results[i], hposition, hmodel, hkey, ?_⟩, ?_⟩
    · exact (hat i position _ hposition hmodel).mpr (isBoosted_iff.mpr hkept)
    · rintro j ⟨other, model, hother, hmodel, hkey, hboosted⟩
      exact hunique j ⟨other, hother, hkey,
        isBoosted_iff.mp ((hat j other model hother hmodel).mp hboosted)⟩
  · intro i position model hposition hmodel hboosted other hother hfarm
    have hkept := isBoosted_iff.mp ((hat i position model hposition hmodel).mp hboosted)
    exact (isBestOf_of_get strict_larger hkept).best other hother hfarm

/-- **One boosted position a farm**, whatever positions the batch has. A
batch without results has failed with a position of it. -/
theorem getBatchRewardsForPosition_spec (service : FarmServiceV2)
    (objects : PositionRef → CalculateRewardsArgs) {positions : List PositionRef}
    (hnodup : positions.Nodup) :
    (∀ results, service.getBatchRewardsForPosition objects positions = .ok results →
      OneBoosted service objects positions results) ∧
    ∀ e, service.getBatchRewardsForPosition objects positions = .error e →
      ∃ position ∈ positions, ∃ computeBoosted,
        service.getRewardsForPosition (objects position) computeBoosted = .error e := by
  refine ⟨fun results h => oneBoosted_of_ok hnodup h, fun e h => ?_⟩
  obtain ⟨position, hposition, herror⟩ := exists_of_mapM_error h
  exact ⟨position, hposition, _, herror⟩

end Passes

end FarmServiceV2

/-! ## Two farms -/

section Sample

/-- A service that answers everything. -/
def sampleService : FarmServiceV2 where
  farmCompute := sampleFarm 10
  fromAttributes := fun _ => .ok ⟨.ofNat 0, 0⟩
  calculateRewardsForGivenPosition := fun _ => .ok (.ofNat 0)
  currentWeek := fun _ => 7
  lastActiveWeekForUser := fun _ _ => 5
  currentClaimProgress := fun _ _ => noProgress
  userAccumulatedRewards := fun _ _ _ _ => .ok (.ofNat 3)
  getCurrentEpoch := 20
  minimumFarmingEpochs := fun _ => 3

/-- Positions 0 and 2 tie in the first farm, position 1 is in the second. -/
def samplePositions (position : PositionRef) : CalculateRewardsArgs where
  farmAddress := if position = 1 then "second" else "first"
  user := "user"
  liquidity := .ofNat (if position = 1 then 0 else 4)
  identifier := "FARM-abcdef-01"
  attributes := ""
  vmQuery := false

example : (sampleService.getBatchRewardsForPosition samplePositions [0, 1, 2]).map
    (fun results => results.map fun model => model.boostedRewardsWeeklyInfo.isSome) =
      .ok [true, true, false] := by decide +kernel

theorem getBatchRewardsForPosition_two_farms :
    (∀ results, sampleService.getBatchRewardsForPosition samplePositions [0, 1, 2] = .ok results →
      OneBoosted sampleService samplePositions [0, 1, 2] results) ∧
    ∀ e, sampleService.getBatchRewardsForPosition samplePositions [0, 1, 2] = .error e →
      ∃ position ∈ ([0, 1, 2] : List PositionRef), ∃ computeBoosted,
        sampleService.getRewardsForPosition (samplePositions position) computeBoosted =
          .error e :=
  FarmServiceV2.getBatchRewardsForPosition_spec sampleService samplePositions (by decide)

end Sample

end MxExchange.Farm
