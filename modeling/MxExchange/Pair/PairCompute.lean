import MxExchange.Pair.PairUtils

/-!
# `pair.compute.service.ts`: the spot prices of a pair

The price of one token of a pair in units of the other: what a whole token
is worth at the reserves of the pair, `quote` of `pair.utils.ts`, with the
decimals of both tokens taken out. An empty reserve is worth nothing, and a
token the pair does not trade is worth nothing (`getEquivalentForLiquidity`
answers zero by default, which is reached when the wrapped token is asked
for under the name of the unwrapped one).

Whatever branch is taken, a spot price is a non-negative decimal, and it is
positive only if both reserves are (`reserves_pos_of_spotPrice`).
-/

namespace MxExchange.Pair

open MxExchange.Num

/-- The names EGLD goes by: its own and the one of the wrapped token. -/
structure WrapConfig where
  EGLDIdentifier : TokenID
  wrappedEgldTokenID : TokenID

/-- What an amount is worth at the ratio of the reserves. -/
def quote (tokenInAmount tokenInReserves tokenOutReserves : BigNumber) : BigNumber :=
  if tokenInReserves = .fin 0 then .fin 0
  else (tokenInAmount.multipliedBy tokenOutReserves).dividedBy tokenInReserves

/-- The amount of the other token that goes with it. -/
def getEquivalentForLiquidity (cfg : WrapConfig) (pair : PairModel) (tokenInID : TokenID)
    (amount : BigNumber) : BigNumber :=
  let tokenIn := if tokenInID = cfg.EGLDIdentifier then cfg.wrappedEgldTokenID else tokenInID
  if tokenIn = pair.firstToken.identifier then
    quote amount (.ofNat pair.info.reserves0) (.ofNat pair.info.reserves1)
  else if tokenIn = pair.secondToken.identifier then
    quote amount (.ofNat pair.info.reserves1) (.ofNat pair.info.reserves0)
  else .fin 0

/-- A whole token, worth what the reserves say, in whole units of the other. -/
def spotPrice (cfg : WrapConfig) (pair : PairModel) (token other : EsdtToken) : BigNumber :=
  (getEquivalentForLiquidity cfg pair token.identifier (.fin (10 ^ token.decimals))).multipliedBy
    (.fin (1 / 10 ^ other.decimals))

/-- What a whole first token is worth in the second. -/
def computeFirstTokenPrice (cfg : WrapConfig) (pair : PairModel) : BigNumber :=
  spotPrice cfg pair pair.firstToken pair.secondToken

/-- And the other way round. -/
def computeSecondTokenPrice (cfg : WrapConfig) (pair : PairModel) : BigNumber :=
  spotPrice cfg pair pair.secondToken pair.firstToken

section SpotPrice

variable {cfg : WrapConfig} {pair : PairModel} {token other : EsdtToken}

/-- A quote of a non-negative amount is one, and needs both reserves. -/
theorem quote_spec {amount : ℚ} (h : 0 ≤ amount) (tokenInReserves tokenOutReserves : ℕ) :
    ∃ q, quote (.fin amount) (.ofNat tokenInReserves) (.ofNat tokenOutReserves) = .fin q ∧
      0 ≤ q ∧ (0 < q → 0 < tokenInReserves ∧ 0 < tokenOutReserves) := by
  unfold quote BigNumber.ofNat
  by_cases hin : (tokenInReserves : ℚ) = 0
  · refine ⟨0, by rw [if_pos (congrArg _ hin)], le_refl _, fun h => absurd h (lt_irrefl _)⟩
  · have hne : BigNumber.fin (tokenInReserves : ℚ) ≠ .fin 0 := fun heq => hin (by injection heq)
    have hnonneg : 0 ≤ amount * tokenOutReserves / tokenInReserves := by positivity
    refine ⟨truncatePlaces BigNumber.DECIMAL_PLACES (amount * tokenOutReserves / tokenInReserves),
      ?_, truncatePlaces_nonneg hnonneg, ?_⟩
    · rw [if_neg hne, BigNumber.multipliedBy_fin, BigNumber.dividedBy_fin _ hin]
    · intro hpos
      refine ⟨Nat.pos_of_ne_zero (fun h0 => hin (by rw [h0]; rfl)), ?_⟩
      refine Nat.pos_of_ne_zero ?_
      rintro rfl
      rw [Nat.cast_zero, mul_zero, zero_div, truncatePlaces_zero] at hpos
      exact lt_irrefl _ hpos

theorem getEquivalentForLiquidity_spec (cfg : WrapConfig) (pair : PairModel) {amount : ℚ}
    (h : 0 ≤ amount) (tokenInID : TokenID) :
    ∃ q, getEquivalentForLiquidity cfg pair tokenInID (.fin amount) = .fin q ∧
      0 ≤ q ∧ (0 < q → 0 < pair.info.reserves0 ∧ 0 < pair.info.reserves1) := by
  unfold getEquivalentForLiquidity
  dsimp only
  -- the name asked for does not matter
  generalize (if tokenInID = cfg.EGLDIdentifier then cfg.wrappedEgldTokenID else tokenInID) = name
  split
  · exact quote_spec h _ _
  · split
    · obtain ⟨q, hq, hnonneg, hpos⟩ := quote_spec h pair.info.reserves1 pair.info.reserves0
      exact ⟨q, hq, hnonneg, fun hq => (hpos hq).symm⟩
    · exact ⟨0, rfl, le_refl _, fun h => absurd h (lt_irrefl _)⟩

/-- A price is not negative, and positive only with liquidity. -/
theorem spotPrice_spec (cfg : WrapConfig) (pair : PairModel) (token other : EsdtToken) :
    ∃ q, spotPrice cfg pair token other = .fin q ∧ 0 ≤ q ∧
      (0 < q → 0 < pair.info.reserves0 ∧ 0 < pair.info.reserves1) := by
  obtain ⟨q, hq, hnonneg, hpos⟩ := getEquivalentForLiquidity_spec cfg pair
    (by positivity : (0 : ℚ) ≤ 10 ^ token.decimals) token.identifier
  have hscale : (0 : ℚ) < 1 / 10 ^ other.decimals := by positivity
  refine ⟨q * (1 / 10 ^ other.decimals), by rw [spotPrice, hq, BigNumber.multipliedBy_fin],
    mul_nonneg hnonneg hscale.le, ?_⟩
  exact fun h => hpos (pos_of_mul_pos_left h hscale.le)

theorem reserves_pos_of_spotPrice
    (h : (spotPrice cfg pair token other).isGreaterThan (.fin 0) = true) :
    0 < pair.info.reserves0 ∧ 0 < pair.info.reserves1 := by
  obtain ⟨q, hq, -, hpos⟩ := spotPrice_spec cfg pair token other
  rw [hq, BigNumber.isGreaterThan_fin, decide_eq_true_iff] at h
  exact hpos h

end SpotPrice

end MxExchange.Pair
