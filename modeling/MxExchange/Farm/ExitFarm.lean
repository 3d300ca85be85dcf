import MxExchange.Farm.BatchRewards
import MxExchange.Num.Shares

/-!
# `farm.base.service.ts`: leaving a farm

A farm token stands for farming tokens and for rewards that were compounded.
Who leaves with a part of it gets the same part of both, less a penalty on the
farming tokens for leaving early. The part is `ruleOfThree` of `helpers.ts`, a
quotient without its decimals, so the parts never add up to more than the whole
(`Split.within`, `ExitInPieces.within`).
-/

namespace MxExchange.Farm

open MxExchange.Num

/-! ## `ruleOfThree` -/

/-- `part * value / total`, cut off to whole units. -/
def ruleOfThree (part total value : BigNumber) : BigNumber :=
  ((part.multipliedBy value).dividedBy total).integerValue

/-- Of whole numbers it is a whole quotient: the decimals that are kept in between
do not matter. -/
theorem ruleOfThree_ofNat (part value : ℕ) {total : ℕ} (h : 0 < total) :
    ruleOfThree (.ofNat part) (.ofNat total) (.ofNat value) =
      .ofNat (part * value / total) := by
  have htotal : (total : ℚ) ≠ 0 := by exact_mod_cast h.ne'
  have hproduct : (BigNumber.ofNat part).multipliedBy (.ofNat value) = .ofNat (part * value) :=
    congrArg BigNumber.fin (Nat.cast_mul _ _).symm
  rw [ruleOfThree, hproduct, BigNumber.ofNat, BigNumber.ofNat, BigNumber.dividedBy_fin _ htotal,
    BigNumber.integerValue_fin, truncate_truncatePlaces_div, BigNumber.ofNat, Int.cast_natCast]

/-- Parts of a total, and a value that is split like it. -/
structure Split where
  total : ℕ
  value : ℕ
  parts : List ℕ
  total_pos : 0 < total
  parts_le : parts.sum ≤ total

namespace Split

variable (split : Split)

/-- The parts of the value add up to no more than it. -/
def Within : Prop := ∃ amounts : List ℕ,
  (split.parts.map fun part =>
      ruleOfThree (.ofNat part) (.ofNat split.total) (.ofNat split.value)) =
    amounts.map .ofNat ∧ amounts.sum ≤ split.value

/-- Parts that make up the total do not exceed the value. -/
theorem sum_le : (split.parts.map fun part => part * split.value / split.total).sum ≤
    split.value := by
  simp only [Nat.mul_comm _ split.value]
  exact sum_shares_le split.value split.total (by rw [List.map_id']; exact split.parts_le)

theorem ofNat_injective : Function.Injective BigNumber.ofNat := fun _ _ h =>
  Nat.cast_injective (BigNumber.fin.inj h)

/-- Amounts that are given as numbers of the decimal library. -/
theorem exists_amounts {α : Type} {f : α → BigNumber} {g : α → ℕ} {l : List α} {bound : ℕ}
    (h : ∀ x ∈ l, f x = .ofNat (g x)) (hle : (l.map g).sum ≤ bound) :
    ∃ amounts : List ℕ, l.map f = amounts.map .ofNat ∧ amounts.sum ≤ bound := by
  refine ⟨l.map g, ?_, hle⟩
  rw [List.map_map]
  exact List.map_congr_left h

/-- Pieces that get what `ruleOfThree` gives their parts. -/
theorem exists_amounts_of_parts {α : Type} {f : α → BigNumber} {part : α → ℕ} {l : List α}
    (hparts : split.parts = l.map part)
    (h : ∀ x ∈ l, f x = ruleOfThree (.ofNat (part x)) (.ofNat split.total) (.ofNat split.value)) :
    ∃ amounts : List ℕ, l.map f = amounts.map .ofNat ∧ amounts.sum ≤ split.value := by
  have hsum := split.sum_le
  rw [hparts, List.map_map] at hsum
  exact exists_amounts (fun x hx => (h x hx).trans (ruleOfThree_ofNat _ _ split.total_pos)) hsum

theorem within : split.Within :=
  split.exists_amounts_of_parts (List.map_id _).symm fun _ _ => rfl

end Split

/-! ## The tokens of an exit -/

/-- The attributes of a farm token that an exit reads. Those of version 2 have
no initial amount. -/
structure FarmTokenAttributesModel where
  currentFarmAmount : ℕ
  compoundedReward : ℕ
  initialFarmingAmount : Option ℕ
  deriving DecidableEq

/-- What leaving a farm yields. -/
structure ExitFarmTokensModel where
  farmingTokens : BigNumber
  rewards : BigNumber
  deriving DecidableEq

/-- `constantsConfig.MAX_PENALTY_PERCENT`. -/
def MAX_PENALTY_PERCENT : ℕ := 10000

/-- What the service of a farm asks others, and the methods of its version. -/
structure FarmServiceBase where
  decodeFarmTokenAttributes : String → String → FarmTokenAttributesModel
  getRewardsForPosition : CalculateRewardsArgs → RewardsModel
  penaltyPercent : String → ℕ
  penaltyPercent_le : ∀ farmAddress, penaltyPercent farmAddress ≤ MAX_PENALTY_PERCENT

namespace FarmTokenAttributesModel

variable (farmTokenAttributes : FarmTokenAttributesModel)

/-- What was entered with. -/
def farmingAmount : ℕ :=
  farmTokenAttributes.initialFarmingAmount.getD farmTokenAttributes.currentFarmAmount

/-- The part of the compounded rewards, which an exit adds to the rewards. -/
def compoundedRewards (liquidity : BigNumber) : BigNumber :=
  ruleOfThree liquidity (.ofNat farmTokenAttributes.currentFarmAmount)
    (.ofNat farmTokenAttributes.compoundedReward)

end FarmTokenAttributesModel

/-- The tokens of a position that is left, in whole or in part. -/
def FarmServiceBase.getTokensForExitFarm (service : FarmServiceBase) (args : CalculateRewardsArgs) :
    ExitFarmTokensModel :=
  let farmTokenAttributes := service.decodeFarmTokenAttributes args.identifier args.attributes
  let initialFarmingAmount :=
    ruleOfThree args.liquidity (.ofNat farmTokenAttributes.currentFarmAmount)
      (.ofNat farmTokenAttributes.farmingAmount)
  let rewardsForPosition := service.getRewardsForPosition args
  let rewards :=
    rewardsForPosition.rewards.plus (farmTokenAttributes.compoundedRewards args.liquidity)
  let initialFarmingAmount :=
    if 0 < rewardsForPosition.remainingFarmingEpochs then
      initialFarmingAmount.minus
        ((initialFarmingAmount.multipliedBy (.ofNat (service.penaltyPercent args.farmAddress))
          ).dividedBy (.ofNat MAX_PENALTY_PERCENT)).integerValue
    else initialFarmingAmount
  { farmingTokens := initialFarmingAmount
    rewards := rewards }

/-! ## In whole tokens -/

/-- The farming tokens that a part of the farm tokens stands for. -/
def FarmTokenAttributesModel.farmingShare (farmTokenAttributes : FarmTokenAttributesModel)
    (liquidity : ℕ) : ℕ :=
  liquidity * farmTokenAttributes.farmingAmount / farmTokenAttributes.currentFarmAmount

/-- The penalty on farming tokens. -/
def penalty (farmingTokens penaltyPercent : ℕ) : ℕ :=
  farmingTokens * penaltyPercent / MAX_PENALTY_PERCENT

/-- The penalty of an exit: it is not early any more, or its part has one. -/
def FarmServiceBase.exitPenalty (service : FarmServiceBase) (args : CalculateRewardsArgs)
    (farmingTokens : ℕ) : ℕ :=
  if 0 < (service.getRewardsForPosition args).remainingFarmingEpochs then
    penalty farmingTokens (service.penaltyPercent args.farmAddress)
  else 0

section Exit

variable {service : FarmServiceBase} {args : CalculateRewardsArgs} {liquidity : ℕ}
  {farmTokenAttributes : FarmTokenAttributesModel}

/-- No penalty exceeds the tokens. -/
theorem penalty_le {farmingTokens penaltyPercent : ℕ} (h : penaltyPercent ≤ MAX_PENALTY_PERCENT) :
    penalty farmingTokens penaltyPercent ≤ farmingTokens := by
  refine Nat.div_le_of_le_mul ?_
  rw [Nat.mul_comm]
  exact Nat.mul_le_mul_right farmingTokens h

theorem exitPenalty_le (service : FarmServiceBase) (args : CalculateRewardsArgs)
    (farmingTokens : ℕ) : service.exitPenalty args farmingTokens ≤ farmingTokens := by
  unfold FarmServiceBase.exitPenalty
  split
  next => exact penalty_le (service.penaltyPercent_le args.farmAddress)
  next => exact Nat.zero_le _

/-- A small position is left without a penalty. -/
theorem penalty_eq_zero_iff {farmingTokens penaltyPercent : ℕ} :
    penalty farmingTokens penaltyPercent = 0 ↔
      farmingTokens * penaltyPercent < MAX_PENALTY_PERCENT :=
  Nat.div_eq_zero_iff_lt (by decide)

theorem exitPenalty_eq_zero_iff {farmingTokens : ℕ} : service.exitPenalty args farmingTokens = 0 ↔
    (0 < (service.getRewardsForPosition args).remainingFarmingEpochs →
      farmingTokens * service.penaltyPercent args.farmAddress < MAX_PENALTY_PERCENT) := by
  unfold FarmServiceBase.exitPenalty
  split
  next hearly => rw [penalty_eq_zero_iff, forall_prop_of_true hearly]
  next hlate => exact iff_of_true rfl fun hearly => absurd hearly hlate

/-- Where no more was entered with than the farm tokens, a part of these stands
for no more than itself. -/
theorem farmingShare_le (h : farmTokenAttributes.farmingAmount ≤
    farmTokenAttributes.currentFarmAmount) (liquidity : ℕ) :
    farmTokenAttributes.farmingShare liquidity ≤ liquidity := by
  refine Nat.div_le_of_le_mul ?_
  rw [Nat.mul_comm]
  exact Nat.mul_le_mul_right liquidity h

/-- And for as much only if nothing is missing. -/
theorem farmingShare_eq_iff (hpos : 0 < farmTokenAttributes.currentFarmAmount)
    (h : farmTokenAttributes.farmingAmount ≤ farmTokenAttributes.currentFarmAmount)
    (liquidity : ℕ) : farmTokenAttributes.farmingShare liquidity = liquidity ↔
      liquidity = 0 ∨ farmTokenAttributes.farmingAmount =
        farmTokenAttributes.currentFarmAmount := by
  have hle := farmingShare_le h liquidity
  have hreach : liquidity ≤ farmTokenAttributes.farmingShare liquidity ↔
      liquidity * farmTokenAttributes.currentFarmAmount ≤
        liquidity * farmTokenAttributes.farmingAmount :=
    Nat.le_div_iff_mul_le hpos
  constructor
  · intro heq
    have hmul := hreach.mp heq.ge
    rcases Nat.eq_zero_or_pos liquidity with hzero | hsome
    · exact Or.inl hzero
    · exact Or.inr (Nat.le_antisymm h (Nat.le_of_mul_le_mul_left hmul hsome))
  · intro hnothing
    refine Nat.le_antisymm hle (hreach.mpr ?_)
    rcases hnothing with hzero | hall
    · rw [hzero, Nat.zero_mul, Nat.zero_mul]
    · rw [hall]

/-- A hundredth of a percent has four decimals, so nothing is lost before whole
tokens are taken. -/
theorem penalty_eq (farmingTokens penaltyPercent : ℕ) :
    (((BigNumber.ofNat farmingTokens).multipliedBy (.ofNat penaltyPercent)).dividedBy
        (.ofNat MAX_PENALTY_PERCENT)).integerValue =
      .ofNat (penalty farmingTokens penaltyPercent) := by
  have hmax : ((MAX_PENALTY_PERCENT : ℕ) : ℚ) ≠ 0 := by norm_num [MAX_PENALTY_PERCENT]
  have hproduct : (BigNumber.ofNat farmingTokens).multipliedBy (.ofNat penaltyPercent) =
      .ofNat (farmingTokens * penaltyPercent) := congrArg BigNumber.fin (Nat.cast_mul _ _).symm
  have hexact := truncatePlaces_tenThousandth (farmingTokens * penaltyPercent)
  have hround := truncate_div (farmingTokens * penaltyPercent) 10000
  rw [Nat.cast_ofNat] at hround
  rw [hproduct, BigNumber.ofNat, BigNumber.ofNat, BigNumber.dividedBy_fin _ hmax,
    BigNumber.integerValue_fin, MAX_PENALTY_PERCENT, Nat.cast_ofNat, BigNumber.DECIMAL_PLACES,
    hexact, hround, Int.cast_natCast]
  rfl

/-- **What an exit returns**, for a part of a farm token. -/
theorem getTokensForExitFarm_eq
    (hdecode : service.decodeFarmTokenAttributes args.identifier args.attributes =
      farmTokenAttributes)
    (hpos : 0 < farmTokenAttributes.currentFarmAmount)
    (hliquidity : args.liquidity = .ofNat liquidity) :
    (service.getTokensForExitFarm args).farmingTokens =
      .ofNat (farmTokenAttributes.farmingShare liquidity -
        service.exitPenalty args (farmTokenAttributes.farmingShare liquidity)) := by
  have hshare : ruleOfThree args.liquidity (.ofNat farmTokenAttributes.currentFarmAmount)
      (.ofNat farmTokenAttributes.farmingAmount) =
        .ofNat (farmTokenAttributes.farmingShare liquidity) := by
    rw [hliquidity]
    exact ruleOfThree_ofNat _ _ hpos
  have hle := exitPenalty_le service args (farmTokenAttributes.farmingShare liquidity)
  unfold FarmServiceBase.getTokensForExitFarm
  dsimp only
  rw [hdecode, hshare]
  unfold FarmServiceBase.exitPenalty at hle ⊢
  split
  next hearly =>
    rw [if_pos hearly] at hle
    rw [penalty_eq, BigNumber.ofNat, BigNumber.ofNat, BigNumber.minus_fin, BigNumber.ofNat,
      Nat.cast_sub hle]
  next => rw [Nat.sub_zero]

end Exit

/-! ## An exit in pieces -/

/-- One of the exits with a part of a farm token. Its epoch and the percent of
the penalty are those of its service. -/
structure ExitPiece (position : FarmTokenAttributesModel) where
  service : FarmServiceBase
  args : CalculateRewardsArgs
  liquidity : ℕ
  liquidity_eq : args.liquidity = .ofNat liquidity
  decodes : service.decodeFarmTokenAttributes args.identifier args.attributes = position

/-- A position that is left in pieces. -/
structure ExitInPieces where
  position : FarmTokenAttributesModel
  pieces : List (ExitPiece position)
  position_pos : 0 < position.currentFarmAmount
  pieces_le : (pieces.map ExitPiece.liquidity).sum ≤ position.currentFarmAmount

namespace ExitInPieces

variable (exit : ExitInPieces)

/-- No more farming tokens than were entered with, and no more compounded
rewards than there are. -/
structure Within : Prop where
  farming : ∃ amounts : List ℕ,
    (exit.pieces.map fun piece => (piece.service.getTokensForExitFarm piece.args).farmingTokens) =
      amounts.map .ofNat ∧ amounts.sum ≤ exit.position.farmingAmount
  compounded : ∃ amounts : List ℕ,
    (exit.pieces.map fun piece => exit.position.compoundedRewards piece.args.liquidity) =
      amounts.map .ofNat ∧ amounts.sum ≤ exit.position.compoundedReward

/-- The farm token as a total that the farming tokens, or the compounded
rewards, are split like. -/
def split (value : ℕ) : Split where
  total := exit.position.currentFarmAmount
  value := value
  parts := exit.pieces.map ExitPiece.liquidity
  total_pos := exit.position_pos
  parts_le := exit.pieces_le

/-- A penalty only makes the farming tokens fewer. -/
theorem farming : ∃ amounts : List ℕ,
    (exit.pieces.map fun piece => (piece.service.getTokensForExitFarm piece.args).farmingTokens) =
      amounts.map .ofNat ∧ amounts.sum ≤ exit.position.farmingAmount := by
  refine Split.exists_amounts (fun piece _ => getTokensForExitFarm_eq piece.decodes
    exit.position_pos piece.liquidity_eq) ?_
  have hshares := (exit.split exit.position.farmingAmount).sum_le
  rw [split, List.map_map] at hshares
  exact (List.sum_le_sum fun piece _ => Nat.sub_le _ _).trans hshares

theorem compounded : ∃ amounts : List ℕ,
    (exit.pieces.map fun piece => exit.position.compoundedRewards piece.args.liquidity) =
      amounts.map .ofNat ∧ amounts.sum ≤ exit.position.compoundedReward := by
  refine (exit.split exit.position.compoundedReward).exists_amounts_of_parts rfl fun piece _ => ?_
  rw [FarmTokenAttributesModel.compoundedRewards, piece.liquidity_eq]
  rfl

/-- All pieces together yield no more than the whole. -/
theorem within : exit.Within :=
  { farming := exit.farming
    compounded := exit.compounded }

end ExitInPieces

end MxExchange.Farm
