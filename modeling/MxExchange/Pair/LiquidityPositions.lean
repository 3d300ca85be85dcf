import MxExchange.StakingProxy.Unstake

/-!
# `pair.service.ts`: positions of liquidity

`getLiquidityPosition` gives a position its part of both reserves. Each amount
is a quotient without its decimals, so the positions of a pair never add up to
more than its reserves (`redeemable`).
-/

namespace MxExchange.Pair

open MxExchange.Num
open AutoRouter (computeValueUSD)
open StakingProxy (LiquidityPosition getLiquidityPosition getTokenForGivenPosition)
open StakingProxy.DualYieldPosition (getTokenForGivenPosition_eq tokensForLiquidity)
open Farm (Split ruleOfThree)

/-! ## What a position is worth -/

/-- What the service asks about a pair. A token that is no LP token belongs to
no pair. -/
structure PairService where
  getPairAddressByLpTokenID : TokenID → Option Address
  pairInfoMetadata : Option Address → PairInfoModel
  getFirstToken : Option Address → EsdtToken
  getSecondToken : Option Address → EsdtToken
  firstTokenPriceUSD : Option Address → BigNumber
  secondTokenPriceUSD : Option Address → BigNumber

/-- The value of both tokens of a position. -/
def PairService.getLiquidityPositionUSD (pairService : PairService)
    (pairAddress : Option Address) (amount : BigNumber) : BigNumber :=
  let liquidityPosition := getLiquidityPosition (pairService.pairInfoMetadata pairAddress) amount
  (computeValueUSD liquidityPosition.firstTokenAmount
      (pairService.getFirstToken pairAddress).decimals
      (pairService.firstTokenPriceUSD pairAddress)).plus
    (computeValueUSD liquidityPosition.secondTokenAmount
      (pairService.getSecondToken pairAddress).decimals
      (pairService.secondTokenPriceUSD pairAddress))

/-! ## All holders -/

/-- The holders of a pair's LP tokens, with what each of them has. -/
structure Holders where
  pairInfo : PairInfoModel
  liquidities : List ℕ
  totalSupply_pos : 0 < pairInfo.totalSupply
  liquidities_le : liquidities.sum ≤ pairInfo.totalSupply

namespace Holders

variable (holders : Holders)

def positions : List LiquidityPosition :=
  holders.liquidities.map fun liquidity => getLiquidityPosition holders.pairInfo (.ofNat liquidity)

/-- Everyone can be paid, and who has the whole supply gets the reserves. -/
structure Redeemable : Prop where
  first : ∃ amounts : List ℕ, holders.positions.map LiquidityPosition.firstTokenAmount =
    amounts.map .ofNat ∧ amounts.sum ≤ holders.pairInfo.reserves0
  second : ∃ amounts : List ℕ, holders.positions.map LiquidityPosition.secondTokenAmount =
    amounts.map .ofNat ∧ amounts.sum ≤ holders.pairInfo.reserves1
  whole : getLiquidityPosition holders.pairInfo (.ofNat holders.pairInfo.totalSupply) =
    ⟨.ofNat holders.pairInfo.reserves0, .ofNat holders.pairInfo.reserves1⟩

/-- The supply as a total that a reserve is split like. -/
def split (reserves : ℕ) : Split where
  total := holders.pairInfo.totalSupply
  value := reserves
  parts := holders.liquidities
  total_pos := holders.totalSupply_pos
  parts_le := holders.liquidities_le

theorem getTokenForGivenPosition_eq_ruleOfThree (liquidity : BigNumber) (reserves : ℕ) :
    getTokenForGivenPosition liquidity reserves holders.pairInfo.totalSupply =
      ruleOfThree liquidity (.ofNat holders.pairInfo.totalSupply) (.ofNat reserves) :=
  if_neg holders.totalSupply_pos.ne'

/-- All positions together hold no more than the reserve. -/
theorem exists_amounts (reserves : ℕ) : ∃ amounts : List ℕ,
    (holders.liquidities.map fun liquidity => getTokenForGivenPosition (.ofNat liquidity) reserves
      holders.pairInfo.totalSupply) = amounts.map .ofNat ∧ amounts.sum ≤ reserves :=
  (holders.split reserves).exists_amounts_of_parts (List.map_id _).symm
    fun _ _ => holders.getTokenForGivenPosition_eq_ruleOfThree _ _

/-- No remainder, nothing to cut off. -/
theorem getTokenForGivenPosition_whole (reserves : ℕ) :
    getTokenForGivenPosition (.ofNat holders.pairInfo.totalSupply) reserves
      holders.pairInfo.totalSupply = .ofNat reserves := by
  rw [getTokenForGivenPosition_eq, tokensForLiquidity,
    Nat.mul_div_cancel_left _ holders.totalSupply_pos]

/-- **Everyone can redeem**, whoever holds how much of the supply. -/
theorem redeemable : holders.Redeemable where
  first := by
    rw [positions, List.map_map]
    exact holders.exists_amounts holders.pairInfo.reserves0
  second := by
    rw [positions, List.map_map]
    exact holders.exists_amounts holders.pairInfo.reserves1
  whole := by
    rw [getLiquidityPosition, getTokenForGivenPosition_whole, getTokenForGivenPosition_whole]

end Holders

/-- Two halves of a supply, of which one reserve can be halved and the other cannot. -/
def halves : Holders where
  pairInfo := ⟨4, 5, 2⟩
  liquidities := [1, 1]
  totalSupply_pos := by decide
  liquidities_le := by decide

example : halves.positions = [⟨.ofNat 2, .ofNat 2⟩, ⟨.ofNat 2, .ofNat 2⟩] := by decide +kernel

end MxExchange.Pair
