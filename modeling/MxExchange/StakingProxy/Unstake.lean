import MxExchange.Farm.ExitFarm
import MxExchange.Proxy.MergeTransactions

/-!
# `staking-proxy`: unstaking a dual yield token

A dual yield token stands for a staked position and for tokens of the LP farm
behind it. `getUnstakeTokensReceived` announces what a part of it is worth in the
two tokens of the pair; `unstakeFarmTokens` builds the transaction, with the least
amounts the user accepts.

Both begin with the LP farm tokens of the part. The quote takes them for liquidity
of the pair. The transaction asks the farm what they return on leaving, which is
less where rewards were compounded into them or where leaving is early
(`announced_iff`, and `announced_iff_of_le` for positions as a contract has them).

What the parts of a position claim is a proportional split and as such always
within what it holds (`withinSplit`).
-/

namespace MxExchange.StakingProxy

open MxExchange.Num MxExchange.Collections
open AutoRouter (bigUIntOfIntegerValue BigUIntValue)
open Farm (CalculateRewardsArgs FarmServiceBase FarmTokenAttributesModel Split ExitInPieces
  ruleOfThree)
open Pair (PairInfoModel InputTokenModel)
open Proxy (MetaEsdtTransfer metaEsdtFromBigInteger)

/-! ## The pair -/

/-- The tokens that liquidity stands for. -/
structure LiquidityPosition where
  firstTokenAmount : BigNumber
  secondTokenAmount : BigNumber
  deriving DecidableEq

/-- Its part of a reserve, cut off to whole units. -/
def getTokenForGivenPosition (liquidity : BigNumber) (tokenReserves totalSupply : ℕ) : BigNumber :=
  if totalSupply = 0 then .ofNat 0
  else ((liquidity.multipliedBy (.ofNat tokenReserves)).dividedBy (.ofNat totalSupply)).integerValue

/-- The parts of both reserves. -/
def getLiquidityPosition (pairInfo : PairInfoModel) (amount : BigNumber) : LiquidityPosition where
  firstTokenAmount := getTokenForGivenPosition amount pairInfo.reserves0 pairInfo.totalSupply
  secondTokenAmount := getTokenForGivenPosition amount pairInfo.reserves1 pairInfo.totalSupply

/-! ## The services -/

/-- What is decoded of a position's attributes. -/
structure DualYieldTokenAttributesModel where
  lpFarmTokenNonce : ℕ
  lpFarmTokenAmount : ℕ
  stakingFarmTokenAmount : ℕ
  deriving DecidableEq

/-- The LP farm tokens of a part. -/
def DualYieldTokenAttributesModel.liquidityPositionAmount
    (decodedAttributes : DualYieldTokenAttributesModel) (amount : BigNumber) : BigNumber :=
  ruleOfThree amount (.ofNat decodedAttributes.stakingFarmTokenAmount)
    (.ofNat decodedAttributes.lpFarmTokenAmount)

structure NftToken where
  identifier : String
  attributes : String

structure DualYieldRewards where
  farmRewards : BigNumber
  stakingRewards : BigNumber
  deriving DecidableEq

/-- What the services ask others. The first argument of most is the address of
a staking proxy. -/
structure StakingProxyService where
  decodeDualYieldTokenAttributes : String → DualYieldTokenAttributesModel
  lpFarmTokenID : String → String
  lpFarmAddress : String → String
  pairAddress : String → String
  getNftByTokenIdentifier : String → String → NftToken
  useService : String → FarmServiceBase
  isFarmV2 : String → Bool
  pairInfoMetadata : String → PairInfoModel
  getRewardsForPosition : CalculateRewardsArgs → DualYieldRewards

/-- What unstaking yields. -/
structure UnstakeFarmTokensReceiveModel where
  liquidityPosition : LiquidityPosition
  farmRewards : BigNumber
  stakingRewards : BigNumber
  deriving DecidableEq

/-- What a client asks for. -/
structure UnstakeFarmTokensArgs where
  proxyStakingAddress : String
  payment : InputTokenModel
  attributes : String
  tolerance : Double

structure UnstakeTransaction where
  endpointArgs : List BigNumber
  payment : MetaEsdtTransfer
  sender : String
  gasLimit : ℕ
  deriving DecidableEq

/-- A number with an even number of digits. -/
def decimalToHex (d : ℕ) : String :=
  let h := String.ofList (Nat.toDigits 16 d)
  if h.length % 2 = 1 then "0" ++ h else h

/-- The collection and the nonce. -/
def tokenIdentifier (tokenID : String) (tokenNonce : ℕ) : String :=
  tokenID ++ "-" ++ decimalToHex tokenNonce

namespace StakingProxyService

variable (service : StakingProxyService)

/-- What is announced for a position. -/
def getUnstakeTokensReceived (position : CalculateRewardsArgs) : UnstakeFarmTokensReceiveModel :=
  let decodedAttributes := service.decodeDualYieldTokenAttributes position.attributes
  let lpFarmTokenAmount := decodedAttributes.liquidityPositionAmount position.liquidity
  let pairAddress := service.pairAddress position.farmAddress
  let liquidityPosition :=
    getLiquidityPosition (service.pairInfoMetadata pairAddress) lpFarmTokenAmount
  let dualYieldRewards := service.getRewardsForPosition position
  { liquidityPosition := liquidityPosition
    farmRewards := dualYieldRewards.farmRewards
    stakingRewards := dualYieldRewards.stakingRewards }

/-- How the transaction asks the farm. -/
def exitFarmArgs (sender : String) (args : UnstakeFarmTokensArgs) : CalculateRewardsArgs :=
  let decodedAttributes := service.decodeDualYieldTokenAttributes args.attributes
  let farmTokenPosition :=
    tokenIdentifier (service.lpFarmTokenID args.proxyStakingAddress)
      decodedAttributes.lpFarmTokenNonce
  let farmToken := service.getNftByTokenIdentifier args.proxyStakingAddress farmTokenPosition
  { attributes := farmToken.attributes
    identifier := farmToken.identifier
    farmAddress := service.lpFarmAddress args.proxyStakingAddress
    user := sender
    liquidity := decodedAttributes.liquidityPositionAmount args.payment.amount
    vmQuery := false }

/-- A farm of version 2 is told the amount of its tokens. -/
def farmAmountArg (exitFarmArgs : CalculateRewardsArgs) : Except String (List BigNumber) :=
  if service.isFarmV2 exitFarmArgs.farmAddress then
    (BigUIntValue exitFarmArgs.liquidity).map fun amount => [amount]
  else .ok []

/-- The call, with the minimums it guarantees. -/
def unstakeFarmTokens (sender : String) (args : UnstakeFarmTokensArgs) :
    Except String UnstakeTransaction := do
  let exitFarmArgs := service.exitFarmArgs sender args
  let exitFarmPosition :=
    (service.useService exitFarmArgs.farmAddress).getTokensForExitFarm exitFarmArgs
  let pairAddress := service.pairAddress args.proxyStakingAddress
  let liquidityPosition :=
    getLiquidityPosition (service.pairInfoMetadata pairAddress) exitFarmPosition.farmingTokens
  let kept : BigNumber := .ofDouble ((Double.ofRat 1).sub args.tolerance)
  let amount0Min ← bigUIntOfIntegerValue (liquidityPosition.firstTokenAmount.multipliedBy kept)
  let amount1Min ← bigUIntOfIntegerValue (liquidityPosition.secondTokenAmount.multipliedBy kept)
  let farmAmount ← service.farmAmountArg exitFarmArgs
  let payment ← metaEsdtFromBigInteger args.payment.tokenID args.payment.nonce args.payment.amount
  return ⟨[amount0Min, amount1Min] ++ farmAmount, payment, sender, 75000000⟩

/-- The attributes of the LP farm tokens behind a dual yield token. -/
def farmTokenAttributes (proxyStakingAddress attributes : String) : FarmTokenAttributesModel :=
  let farmToken := service.getNftByTokenIdentifier proxyStakingAddress
    (tokenIdentifier (service.lpFarmTokenID proxyStakingAddress)
      (service.decodeDualYieldTokenAttributes attributes).lpFarmTokenNonce)
  (service.useService (service.lpFarmAddress proxyStakingAddress)).decodeFarmTokenAttributes
    farmToken.identifier farmToken.attributes

/-- The same with other reserves. -/
def withPairInfo (pairInfo : PairInfoModel) : StakingProxyService :=
  { service with pairInfoMetadata := fun _ => pairInfo }

end StakingProxyService

/-- A dual yield token and the part of it that is unstaked. Neither token of a
position stands for nothing. -/
structure DualYieldPosition where
  service : StakingProxyService
  proxyStakingAddress : String
  tokenID : String
  nonce : ℕ
  identifier : String
  attributes : String
  amount : ℕ
  stakingFarmTokenAmount_pos :
    0 < (service.decodeDualYieldTokenAttributes attributes).stakingFarmTokenAmount
  currentFarmAmount_pos :
    0 < (service.farmTokenAttributes proxyStakingAddress attributes).currentFarmAmount

namespace DualYieldPosition

variable (position : DualYieldPosition)

/-- What the quote is asked with. -/
def request (user : String) (vmQuery : Bool) : CalculateRewardsArgs where
  farmAddress := position.proxyStakingAddress
  user := user
  liquidity := .ofNat position.amount
  identifier := position.identifier
  attributes := position.attributes
  vmQuery := vmQuery

/-- What the transaction is asked with, without tolerance. -/
def unstakeArgs : UnstakeFarmTokensArgs where
  proxyStakingAddress := position.proxyStakingAddress
  payment := ⟨position.tokenID, position.nonce, .ofNat position.amount⟩
  attributes := position.attributes
  tolerance := Double.ofRat 0

/-- With these reserves of the pair there is a transaction, and the amounts that
are announced are those it asks for. -/
def AnnouncedFor (sender : String) (pairInfo : PairInfoModel) : Prop :=
  ∀ user vmQuery, ∃ transaction,
    (position.service.withPairInfo pairInfo).unstakeFarmTokens sender position.unstakeArgs =
        .ok transaction ∧
      transaction.endpointArgs.take 2 =
        [((position.service.withPairInfo pairInfo).getUnstakeTokensReceived
            (position.request user vmQuery)).liquidityPosition.firstTokenAmount,
          ((position.service.withPairInfo pairInfo).getUnstakeTokensReceived
            (position.request user vmQuery)).liquidityPosition.secondTokenAmount]

/-- The same for any reserves. -/
def Announced (sender : String) : Prop := ∀ pairInfo, position.AnnouncedFor sender pairInfo

/-- The LP farm tokens of the part. -/
def lpFarmTokens : ℕ :=
  position.amount *
      (position.service.decodeDualYieldTokenAttributes position.attributes).lpFarmTokenAmount /
    (position.service.decodeDualYieldTokenAttributes position.attributes).stakingFarmTokenAmount

/-- The attributes of the LP farm tokens. -/
def farmTokenAttributes : FarmTokenAttributesModel :=
  position.service.farmTokenAttributes position.proxyStakingAddress position.attributes

/-- The farming tokens that were entered with for them. -/
def farmingTokens : ℕ := position.farmTokenAttributes.farmingShare position.lpFarmTokens

/-- The penalty on these. -/
def penalty (sender : String) : ℕ :=
  (position.service.useService
      (position.service.lpFarmAddress position.proxyStakingAddress)).exitPenalty
    (position.service.exitFarmArgs sender position.unstakeArgs) position.farmingTokens

section Unstake

theorem liquidityPositionAmount_eq :
    (position.service.decodeDualYieldTokenAttributes position.attributes).liquidityPositionAmount
      (.ofNat position.amount) = .ofNat position.lpFarmTokens :=
  Farm.ruleOfThree_ofNat _ _ position.stakingFarmTokenAmount_pos

/-- No penalty exceeds the tokens. -/
theorem penalty_le (sender : String) : position.penalty sender ≤ position.farmingTokens :=
  Farm.exitPenalty_le _ _ _

theorem getTokensForExitFarm_eq (sender : String) :
    ((position.service.useService
        (position.service.lpFarmAddress position.proxyStakingAddress)).getTokensForExitFarm
      (position.service.exitFarmArgs sender position.unstakeArgs)).farmingTokens =
        .ofNat (position.farmingTokens - position.penalty sender) :=
  Farm.getTokensForExitFarm_eq rfl position.currentFarmAmount_pos
    position.liquidityPositionAmount_eq

/-- The tokens of the pair for so much liquidity: none where there is no supply. -/
def tokensForLiquidity (liquidity tokenReserves totalSupply : ℕ) : ℕ :=
  liquidity * tokenReserves / totalSupply

/-- The part of the reserve, in whole numbers. -/
theorem getTokenForGivenPosition_eq (liquidity tokenReserves totalSupply : ℕ) :
    getTokenForGivenPosition (.ofNat liquidity) tokenReserves totalSupply =
      .ofNat (tokensForLiquidity liquidity tokenReserves totalSupply) := by
  unfold getTokenForGivenPosition tokensForLiquidity
  split
  next hnone => rw [hnone, Nat.div_zero]
  next hne => exact Farm.ruleOfThree_ofNat _ _ (Nat.pos_of_ne_zero hne)

theorem tokensForLiquidity_one (liquidity : ℕ) : tokensForLiquidity liquidity 1 1 = liquidity := by
  rw [tokensForLiquidity, Nat.mul_one, Nat.div_one]

/-- All of it is kept without tolerance. -/
theorem kept_eq : BigNumber.ofDouble ((Double.ofRat 1).sub (Double.ofRat 0)) = .ofNat 1 := by
  decide +kernel

theorem isNegative_ofNat (n : ℕ) : (BigNumber.ofNat n).isNegative = false := by
  rw [BigNumber.ofNat, BigNumber.isNegative_fin, decide_eq_false_iff_not, not_lt]
  exact Nat.cast_nonneg n

theorem BigUIntValue_ofNat (n : ℕ) : BigUIntValue (.ofNat n) = .ok (.ofNat n) := by
  refine if_neg ?_
  rintro (hnan | hnegative)
  · cases hnan
  · rw [isNegative_ofNat] at hnegative
    cases hnegative

theorem bigUIntOfIntegerValue_kept (n : ℕ) :
    bigUIntOfIntegerValue ((BigNumber.ofNat n).multipliedBy
      (.ofDouble ((Double.ofRat 1).sub (Double.ofRat 0)))) = .ok (.ofNat n) := by
  have hproduct : (BigNumber.ofNat n).multipliedBy (.ofNat 1) = .ofNat n := by
    rw [BigNumber.ofNat, BigNumber.ofNat, BigNumber.multipliedBy_fin, Nat.cast_one, mul_one]
  have hinteger : (BigNumber.ofNat n).integerValue = .ofNat n := by
    rw [BigNumber.ofNat, BigNumber.integerValue_fin, truncate_natCast, Int.cast_natCast]
  rw [kept_eq, hproduct, bigUIntOfIntegerValue, isNegative_ofNat, hinteger]
  exact BigUIntValue_ofNat n

theorem exists_metaEsdt (tokenID : String) (nonce amount : ℕ) :
    ∃ payment, metaEsdtFromBigInteger tokenID nonce (.ofNat amount) = .ok payment := by
  have hwhole : (amount : ℚ).den = 1 ∧ (0 : ℚ) ≤ amount :=
    ⟨Rat.den_natCast amount, Nat.cast_nonneg _⟩
  have hpayment : AutoRouter.fungibleFromBigInteger tokenID (.ofNat amount) =
      .ok ⟨tokenID, (amount : ℚ).num.toNat⟩ := if_pos hwhole
  refine ⟨{ tokenIdentifier := tokenID
            amountAsBigInteger := (amount : ℚ).num.toNat
            nonce := nonce }, ?_⟩
  exact bind_eq_ok.mpr ⟨_, hpayment, rfl⟩

theorem exists_farmAmountArg (sender : String) : ∃ farmAmount,
    position.service.farmAmountArg (position.service.exitFarmArgs sender position.unstakeArgs) =
      .ok farmAmount := by
  have hliquidity : (position.service.exitFarmArgs sender position.unstakeArgs).liquidity =
      .ofNat position.lpFarmTokens := position.liquidityPositionAmount_eq
  rw [StakingProxyService.farmAmountArg, hliquidity, BigUIntValue_ofNat]
  split
  next => exact ⟨_, rfl⟩
  next => exact ⟨_, rfl⟩

/-- The transaction asks for what the farming tokens are worth. -/
theorem exists_transaction (sender : String) (pairInfo : PairInfoModel) : ∃ transaction,
    (position.service.withPairInfo pairInfo).unstakeFarmTokens sender position.unstakeArgs =
        .ok transaction ∧
      transaction.endpointArgs.take 2 =
        [.ofNat (tokensForLiquidity (position.farmingTokens - position.penalty sender)
            pairInfo.reserves0 pairInfo.totalSupply),
          .ofNat (tokensForLiquidity (position.farmingTokens - position.penalty sender)
            pairInfo.reserves1 pairInfo.totalSupply)] := by
  obtain ⟨payment, hpayment⟩ := exists_metaEsdt position.tokenID position.nonce position.amount
  obtain ⟨farmAmount, hfarmAmount⟩ := position.exists_farmAmountArg sender
  have hamount (tokenReserves : ℕ) : bigUIntOfIntegerValue
      ((getTokenForGivenPosition ((position.service.useService
        (position.service.lpFarmAddress position.proxyStakingAddress)).getTokensForExitFarm
          (position.service.exitFarmArgs sender position.unstakeArgs)).farmingTokens
        tokenReserves pairInfo.totalSupply).multipliedBy
          (.ofDouble ((Double.ofRat 1).sub (Double.ofRat 0)))) =
      .ok (.ofNat (tokensForLiquidity (position.farmingTokens - position.penalty sender)
        tokenReserves pairInfo.totalSupply)) := by
    rw [position.getTokensForExitFarm_eq, getTokenForGivenPosition_eq, bigUIntOfIntegerValue_kept]
  refine ⟨⟨[.ofNat (tokensForLiquidity (position.farmingTokens - position.penalty sender)
        pairInfo.reserves0 pairInfo.totalSupply),
      .ofNat (tokensForLiquidity (position.farmingTokens - position.penalty sender)
        pairInfo.reserves1 pairInfo.totalSupply)] ++ farmAmount, payment, sender, 75000000⟩,
    ?_, rfl⟩
  refine bind_eq_ok.mpr ⟨_, hamount pairInfo.reserves0, ?_⟩
  refine bind_eq_ok.mpr ⟨_, hamount pairInfo.reserves1, ?_⟩
  refine bind_eq_ok.mpr ⟨farmAmount, hfarmAmount, ?_⟩
  exact bind_eq_ok.mpr ⟨payment, hpayment, rfl⟩

/-- The quote announces what the LP farm tokens are worth. -/
theorem getUnstakeTokensReceived_eq (pairInfo : PairInfoModel) (user : String) (vmQuery : Bool) :
    ((position.service.withPairInfo pairInfo).getUnstakeTokensReceived
        (position.request user vmQuery)).liquidityPosition =
      { firstTokenAmount := .ofNat
          (tokensForLiquidity position.lpFarmTokens pairInfo.reserves0 pairInfo.totalSupply)
        secondTokenAmount := .ofNat
          (tokensForLiquidity position.lpFarmTokens pairInfo.reserves1 pairInfo.totalSupply) } := by
  have hquote : ((position.service.withPairInfo pairInfo).getUnstakeTokensReceived
      (position.request user vmQuery)).liquidityPosition =
        getLiquidityPosition pairInfo ((position.service.decodeDualYieldTokenAttributes
          position.attributes).liquidityPositionAmount (.ofNat position.amount)) := rfl
  rw [hquote, position.liquidityPositionAmount_eq, getLiquidityPosition,
    getTokenForGivenPosition_eq, getTokenForGivenPosition_eq]

/-- Two amounts of liquidity are worth the same, in whole tokens. -/
def SameWorth (pairInfo : PairInfoModel) (liquidity liquidity' : ℕ) : Prop :=
  tokensForLiquidity liquidity pairInfo.reserves0 pairInfo.totalSupply =
      tokensForLiquidity liquidity' pairInfo.reserves0 pairInfo.totalSupply ∧
    tokensForLiquidity liquidity pairInfo.reserves1 pairInfo.totalSupply =
      tokensForLiquidity liquidity' pairInfo.reserves1 pairInfo.totalSupply

/-- What is announced is what the pair pays if both come to the same worth. -/
theorem announcedFor_iff (sender : String) (pairInfo : PairInfoModel) :
    position.AnnouncedFor sender pairInfo ↔
      SameWorth pairInfo (position.farmingTokens - position.penalty sender)
        position.lpFarmTokens := by
  obtain ⟨transaction, htransaction, hargs⟩ := position.exists_transaction sender pairInfo
  constructor
  · intro h
    obtain ⟨transaction', htransaction', hargs'⟩ := h sender false
    rw [htransaction] at htransaction'
    rw [getUnstakeTokensReceived_eq, ← Except.ok.inj htransaction', hargs] at hargs'
    obtain ⟨hfirst, hrest⟩ := List.cons.inj hargs'
    obtain ⟨hsecond, -⟩ := List.cons.inj hrest
    exact ⟨Split.ofNat_injective hfirst, Split.ofNat_injective hsecond⟩
  · rintro ⟨hfirst, hsecond⟩ user vmQuery
    rw [hfirst, hsecond] at hargs
    rw [getUnstakeTokensReceived_eq]
    exact ⟨transaction, htransaction, hargs⟩

/-- It is so for all reserves if the amounts of liquidity are the same. -/
theorem announced_iff (sender : String) : position.Announced sender ↔
    position.farmingTokens = position.lpFarmTokens + position.penalty sender := by
  have hle := position.penalty_le sender
  have hsame : position.farmingTokens = position.lpFarmTokens + position.penalty sender ↔
      position.farmingTokens - position.penalty sender = position.lpFarmTokens := by omega
  rw [hsame]
  constructor
  · intro h
    -- a pair of one token each, for one unit of liquidity
    have hone := ((position.announcedFor_iff sender ⟨1, 1, 1⟩).mp (h ⟨1, 1, 1⟩)).1
    rwa [tokensForLiquidity_one, tokensForLiquidity_one] at hone
  · intro h pairInfo
    rw [announcedFor_iff, h]
    exact ⟨rfl, rfl⟩

/-- The part has no LP farm tokens, or nothing was compounded into them. -/
def NothingCompounded : Prop :=
  position.lpFarmTokens = 0 ∨
    position.farmTokenAttributes.farmingAmount = position.farmTokenAttributes.currentFarmAmount

/-- Leaving with them is not early, or the penalty is less than one of them. -/
def NoPenalty (sender : String) : Prop :=
  let farmService :=
    position.service.useService (position.service.lpFarmAddress position.proxyStakingAddress)
  let exitFarmArgs := position.service.exitFarmArgs sender position.unstakeArgs
  0 < (farmService.getRewardsForPosition exitFarmArgs).remainingFarmingEpochs →
    position.lpFarmTokens * farmService.penaltyPercent exitFarmArgs.farmAddress <
      Farm.MAX_PENALTY_PERCENT

/-- A contract lets no one enter with more farming tokens than there are farm
tokens. -/
theorem announced_iff_of_le (sender : String)
    (h : position.farmTokenAttributes.farmingAmount ≤
      position.farmTokenAttributes.currentFarmAmount) :
    position.Announced sender ↔ position.NothingCompounded ∧ position.NoPenalty sender := by
  have hle : position.farmingTokens ≤ position.lpFarmTokens :=
    Farm.farmingShare_le h position.lpFarmTokens
  have hparts : position.farmingTokens = position.lpFarmTokens + position.penalty sender ↔
      position.farmingTokens = position.lpFarmTokens ∧ position.penalty sender = 0 := by omega
  have hshare : position.farmingTokens = position.lpFarmTokens ↔ position.NothingCompounded :=
    Farm.farmingShare_eq_iff position.currentFarmAmount_pos h _
  rw [announced_iff, hparts, hshare]
  refine and_congr_right fun hnothing => ?_
  rw [penalty, hshare.mpr hnothing]
  exact Farm.exitPenalty_eq_zero_iff

/-- **What is announced is what the transaction guarantees**, for given
reserves exactly if the farming tokens that are left are worth there what the LP
farm tokens are, and for all reserves exactly if they are as many: if nothing was
compounded and there is no penalty, where no more was entered with than there are
farm tokens. -/
theorem quote_agrees_iff (position : DualYieldPosition) (sender : String) :
    (∀ pairInfo, position.AnnouncedFor sender pairInfo ↔
      SameWorth pairInfo (position.farmingTokens - position.penalty sender)
        position.lpFarmTokens) ∧
    (position.Announced sender ↔
      position.farmingTokens = position.lpFarmTokens + position.penalty sender) ∧
    (position.farmTokenAttributes.farmingAmount ≤
        position.farmTokenAttributes.currentFarmAmount →
      (position.Announced sender ↔ position.NothingCompounded ∧ position.NoPenalty sender)) :=
  ⟨position.announcedFor_iff sender, position.announced_iff sender,
    position.announced_iff_of_le sender⟩

end Unstake

end DualYieldPosition

/-! ## Unstaking in pieces -/

/-- One of the transactions for a part of a dual yield token. -/
structure UnstakePiece (decodedAttributes : DualYieldTokenAttributesModel) where
  service : StakingProxyService
  sender : String
  args : UnstakeFarmTokensArgs
  amount : ℕ
  amount_eq : args.payment.amount = .ofNat amount
  decodes : service.decodeDualYieldTokenAttributes args.attributes = decodedAttributes

/-- A position that is unstaked in pieces. -/
structure UnstakeInPieces where
  decodedAttributes : DualYieldTokenAttributesModel
  pieces : List (UnstakePiece decodedAttributes)
  stakingFarmTokenAmount_pos : 0 < decodedAttributes.stakingFarmTokenAmount
  pieces_le : (pieces.map UnstakePiece.amount).sum ≤ decodedAttributes.stakingFarmTokenAmount

namespace UnstakeInPieces

variable (unstake : UnstakeInPieces)

/-- The LP farm tokens that leave the farm are no more than there are. -/
def Within : Prop := ∃ amounts : List ℕ,
  (unstake.pieces.map fun piece =>
      (piece.service.exitFarmArgs piece.sender piece.args).liquidity) =
    amounts.map .ofNat ∧ amounts.sum ≤ unstake.decodedAttributes.lpFarmTokenAmount

def split : Split where
  total := unstake.decodedAttributes.stakingFarmTokenAmount
  value := unstake.decodedAttributes.lpFarmTokenAmount
  parts := unstake.pieces.map UnstakePiece.amount
  total_pos := unstake.stakingFarmTokenAmount_pos
  parts_le := unstake.pieces_le

/-- All pieces together yield no more than the whole. -/
theorem within : unstake.Within := by
  refine unstake.split.exists_amounts_of_parts rfl fun piece _ => ?_
  show (piece.service.decodeDualYieldTokenAttributes
    piece.args.attributes).liquidityPositionAmount piece.args.payment.amount = _
  rw [piece.amount_eq, piece.decodes]
  rfl

end UnstakeInPieces

def sampleFarmService : FarmServiceBase where
  decodeFarmTokenAttributes := fun _ _ =>
    { currentFarmAmount := 2
      compoundedReward := 1
      initialFarmingAmount := some 1 }
  getRewardsForPosition := fun args =>
    { identifier := args.identifier
      remainingFarmingEpochs := 0
      rewards := .ofNat 0
      boostedRewardsWeeklyInfo := none
      claimProgress := none
      accumulatedRewards := none }
  penaltyPercent := fun _ => 100
  penaltyPercent_le := fun _ => by decide

def sampleService (lpFarmTokenAmount : ℕ) : StakingProxyService where
  decodeDualYieldTokenAttributes := fun _ =>
    { lpFarmTokenNonce := 1
      lpFarmTokenAmount := lpFarmTokenAmount
      stakingFarmTokenAmount := 2 }
  lpFarmTokenID := fun _ => "EGLDMEXF"
  lpFarmAddress := fun _ => "erd1farm"
  pairAddress := fun _ => "erd1pair"
  getNftByTokenIdentifier := fun _ identifier => ⟨identifier, "attributes"⟩
  useService := fun _ => sampleFarmService
  isFarmV2 := fun _ => false
  pairInfoMetadata := fun _ => ⟨1000, 1000, 1000⟩
  getRewardsForPosition := fun _ => ⟨.ofNat 0, .ofNat 0⟩

/-- Unstaking all of it. -/
def samplePosition : DualYieldPosition where
  service := sampleService 2
  proxyStakingAddress := "erd1proxy"
  tokenID := "METASTAKE"
  nonce := 1
  identifier := "METASTAKE-01"
  attributes := "attributes"
  amount := 2
  stakingFarmTokenAmount_pos := by decide
  currentFarmAmount_pos := by decide

/-- Three parts of seven, and a value of five. -/
def sampleSplit : Split := ⟨7, 5, [3, 2, 2], Nat.succ_pos 6, Nat.le_refl 7⟩

def sampleExitPiece : Farm.ExitPiece ⟨2, 1, some 1⟩ where
  service := sampleFarmService
  args := ⟨"erd1farm", "erd1user", .ofNat 1, "EGLDMEXF-01", "attributes", false⟩
  liquidity := 1
  liquidity_eq := rfl
  decodes := rfl

def sampleExit : ExitInPieces :=
  ⟨⟨2, 1, some 1⟩, [sampleExitPiece, sampleExitPiece], by decide, by decide⟩

def sampleUnstakePiece : UnstakePiece ⟨1, 1, 2⟩ where
  service := sampleService 1
  sender := "erd1user"
  args := ⟨"erd1proxy", ⟨"METASTAKE", 1, .ofNat 1⟩, "attributes", .ofRat 0⟩
  amount := 1
  amount_eq := rfl
  decodes := rfl

def sampleUnstake : UnstakeInPieces :=
  ⟨⟨1, 1, 2⟩, [sampleUnstakePiece, sampleUnstakePiece], by decide, by decide⟩

/-- Sixty LP farm tokens, which nothing was compounded into, three epochs early. -/
def earlyPosition : DualYieldPosition where
  service :=
    { sampleService 60 with
      useService := fun _ =>
        { sampleFarmService with
          decodeFarmTokenAttributes := fun _ _ =>
            { currentFarmAmount := 250
              compoundedReward := 0
              initialFarmingAmount := some 250 }
          getRewardsForPosition := fun args =>
            { sampleFarmService.getRewardsForPosition args with remainingFarmingEpochs := 3 } } }
  proxyStakingAddress := "erd1proxy"
  tokenID := "METASTAKE"
  nonce := 1
  identifier := "METASTAKE-01"
  attributes := "attributes"
  amount := 2
  stakingFarmTokenAmount_pos := by decide
  currentFarmAmount_pos := by decide

/-- The penalty of a hundredth is less than one token of sixty. -/
theorem announced_early :
    earlyPosition.farmTokenAttributes.farmingAmount ≤
        earlyPosition.farmTokenAttributes.currentFarmAmount ∧
      earlyPosition.Announced "erd1user" := by
  have hle : earlyPosition.farmTokenAttributes.farmingAmount ≤
      earlyPosition.farmTokenAttributes.currentFarmAmount := by decide
  refine ⟨hle, ((DualYieldPosition.quote_agrees_iff earlyPosition "erd1user").2.2 hle).mpr ?_⟩
  exact ⟨Or.inr (by decide), fun _ => by decide⟩

/-- Two tokens of each kind are announced and one is guaranteed. -/
theorem not_announced_sample :
    ¬ samplePosition.AnnouncedFor "erd1user" ⟨1000, 1000, 1000⟩ ∧
      ¬ samplePosition.Announced "erd1user" := by
  have hreserves : ¬ samplePosition.AnnouncedFor "erd1user" ⟨1000, 1000, 1000⟩ := by
    rw [DualYieldPosition.announcedFor_iff]
    intro h
    have hfirst := h.1
    revert hfirst
    decide +kernel
  exact ⟨hreserves, fun h => hreserves (h ⟨1000, 1000, 1000⟩)⟩

end MxExchange.StakingProxy
