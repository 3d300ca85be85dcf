import MxExchange.AutoRouter.Service
import MxExchange.Num.RoundedSums
import MxExchange.Tokens.PriceChains

/-!
# The locked value after an event

A swap and a change of liquidity both leave new reserves of their pair, and both
handlers record what the pair and its tokens lock in dollars. They price the
tokens in different ways. After a swap a token has its price in the pair if the
other one is USDC, and USDC is worth itself; otherwise, and always after a change
of liquidity, the price is the one derived along the pair graph. And a swap adds
the values of the two tokens as they are cut off at the last decimal, a change of
liquidity cuts off their sum.

So the recorded values jump with the kind of the event, unless the prices agree up
to the last decimal of every amount and what is cut off makes no carry
(`oneValuation_iff`). Without USDC in the pair only the carry is left
(`oneValuation_of_derived`).
-/

namespace MxExchange.Pair

open MxExchange.Num
open AutoRouter (computeValueUSD)
open Tokens (PairMetadata PairsSnapshot tokenPriceDerivedEGLD)

/-! ## The state and the prices in it -/

/-- The pairs and the answers of the other services. `computeTotalLockedValueUSD`
is the sum over all pairs, `getTokenPrice` that of USDC. -/
structure Market extends PairsSnapshot where
  pairsMetadata : List PairMetadata
  getTokenPrice : ℚ
  getTokenPrice_pos : 0 < getTokenPrice
  getTokenMetadata : TokenID → EsdtToken
  commonTokensForUserPairs : List TokenID
  computeTotalLockedValueUSD : (Address → PairModel) → BigNumber

namespace Market

/-- The price of USDC, as the handlers fetch it. -/
def usdcPrice (m : Market) : BigNumber := .fin m.getTokenPrice

def getFirstToken (m : Market) (pairAddress : Address) : EsdtToken :=
  (m.pair pairAddress).firstToken

def getSecondToken (m : Market) (pairAddress : Address) : EsdtToken :=
  (m.pair pairAddress).secondToken

/-- Reserves and supply as an event leaves them; a supply that is not given stays. -/
def updatePairReserves (m : Market) (pairAddress : Address)
    (firstTokenReserves secondTokenReserves : ℕ) (totalSupply : Option ℕ) : Market :=
  let pair := m.pair pairAddress
  let info : PairInfoModel :=
    { reserves0 := firstTokenReserves
      reserves1 := secondTokenReserves
      totalSupply := totalSupply.getD pair.info.totalSupply }
  { m with pair := Function.update m.pair pairAddress { pair with info } }

/-- The price in EGLD, in dollars. -/
def computeTokenPriceDerivedUSD (m : Market) (tokenID : TokenID) : Option BigNumber :=
  (tokenPriceDerivedEGLD m.env m.pairsMetadata tokenID).map fun derivedEGLD =>
    (derivedEGLD.multipliedBy m.env.getEgldPriceInUSD).multipliedBy m.usdcPrice

/-- USDC has its own price; a token paired with it is priced by the pair, any
other by the graph. -/
def computeFirstTokenPriceUSD (m : Market) (pairAddress : Address) : Option BigNumber :=
  if (m.getFirstToken pairAddress).identifier = m.USDC_TOKEN_ID then some m.usdcPrice
  else if (m.getSecondToken pairAddress).identifier = m.USDC_TOKEN_ID then
    some ((computeFirstTokenPrice m.cfg (m.pair pairAddress)).multipliedBy m.usdcPrice)
  else m.computeTokenPriceDerivedUSD (m.getFirstToken pairAddress).identifier

/-- The same for the second token. -/
def computeSecondTokenPriceUSD (m : Market) (pairAddress : Address) : Option BigNumber :=
  if (m.getSecondToken pairAddress).identifier = m.USDC_TOKEN_ID then some m.usdcPrice
  else if (m.getFirstToken pairAddress).identifier = m.USDC_TOKEN_ID then
    some ((computeSecondTokenPrice m.cfg (m.pair pairAddress)).multipliedBy m.usdcPrice)
  else m.computeTokenPriceDerivedUSD (m.getSecondToken pairAddress).identifier

/-- The reserves of a token in the pairs that it is one of. -/
def allLockedValues (m : Market) (tokenID : TokenID) : List ℕ :=
  m.pairsMetadata.filterMap fun pair =>
    if tokenID = pair.firstTokenID then some (m.pair pair.address).info.reserves0
    else if tokenID = pair.secondTokenID then some (m.pair pair.address).info.reserves1
    else none

/-- The reserves of a token in all pairs. -/
def getTokenTotalLockedValue (m : Market) (tokenID : TokenID) : BigNumber :=
  ((m.allLockedValues tokenID).map BigNumber.ofNat).foldl BigNumber.plus (.ofNat 0)

/-- A value over the price of USDC, as it is recorded. -/
def inUSDC (m : Market) (amount : BigNumber) (token : EsdtToken) (priceUSD : BigNumber) :
    BigNumber :=
  (computeValueUSD amount token.decimals priceUSD).dividedBy m.usdcPrice

end Market

/-! ## The events -/

structure TokenAmount where
  tokenID : TokenID
  amount : ℕ

structure SwapEvent where
  address : Address
  tokenIn : TokenAmount
  tokenOut : TokenAmount
  tokenInReserves : ℕ
  tokenOutReserves : ℕ

/-- Removing liquidity is handled by the same method. -/
structure AddLiquidityEvent where
  address : Address
  firstToken : TokenAmount
  secondToken : TokenAmount
  firstTokenReserves : ℕ
  secondTokenReserves : ℕ
  liquidityPoolSupply : ℕ

/-- What both handlers record of locked values in dollars: of the tokens in the
pair, of the pair, and of the tokens in all pairs. -/
structure LockedValues where
  firstTokenLockedValueUSD : BigNumber
  secondTokenLockedValueUSD : BigNumber
  lockedValueUSD : BigNumber
  firstTokenTotalLockedValueUSD : BigNumber
  secondTokenTotalLockedValueUSD : BigNumber
  deriving DecidableEq

/-- What both handlers record. -/
structure LiquidityData where
  lockedValues : LockedValues
  firstTokenLocked : BigNumber
  secondTokenLocked : BigNumber
  firstTokenTotalLockedValue : BigNumber
  secondTokenTotalLockedValue : BigNumber
  liquidity : BigNumber
  factoryTotalLockedValueUSD : BigNumber
  deriving DecidableEq

/-- A swap records volumes and fees as well. -/
structure SwapData extends LiquidityData where
  firstTokenPrice : BigNumber
  secondTokenPrice : BigNumber
  firstTokenVolume : BigNumber
  secondTokenVolume : BigNumber
  firstTokenVolumeUSD : BigNumber
  secondTokenVolumeUSD : BigNumber
  firstTokenPriceUSD : BigNumber
  secondTokenPriceUSD : BigNumber
  volumeUSD : BigNumber
  feesUSD : BigNumber
  deriving DecidableEq

/-- Amounts and reserves of a swap, in the order of the pair. -/
structure SwapAmounts where
  firstTokenAmount : ℕ
  secondTokenAmount : ℕ
  firstTokenReserve : ℕ
  secondTokenReserve : ℕ
  deriving DecidableEq

def SwapEvent.amounts (event : SwapEvent) (firstToken : EsdtToken) : SwapAmounts :=
  if event.tokenIn.tokenID = firstToken.identifier then
    ⟨event.tokenIn.amount, event.tokenOut.amount, event.tokenInReserves, event.tokenOutReserves⟩
  else ⟨event.tokenOut.amount, event.tokenIn.amount, event.tokenOutReserves, event.tokenInReserves⟩

namespace Market

/-- The volume counts once, on the side of a common token. -/
def swapVolumeUSD (m : Market) (firstToken secondToken : EsdtToken)
    (firstTokenVolumeUSD secondTokenVolumeUSD : BigNumber) : BigNumber :=
  match decide (firstToken.identifier ∈ m.commonTokensForUserPairs),
    decide (secondToken.identifier ∈ m.commonTokensForUserPairs) with
  | true, true => (firstTokenVolumeUSD.plus secondTokenVolumeUSD).dividedBy (.fin 2)
  | true, false => firstTokenVolumeUSD
  | false, true => secondTokenVolumeUSD
  | false, false => .fin 0

/-- What is recorded of a swap, in the state after it and at these prices. -/
def swapData (m : Market) (event : SwapEvent) (firstTokenPriceUSD secondTokenPriceUSD : BigNumber) :
    SwapData :=
  let firstToken := m.getFirstToken event.address
  let secondToken := m.getSecondToken event.address
  let amounts := event.amounts firstToken
  let firstTokenLockedValueUSD :=
    m.inUSDC (.ofNat amounts.firstTokenReserve) firstToken firstTokenPriceUSD
  let secondTokenLockedValueUSD :=
    m.inUSDC (.ofNat amounts.secondTokenReserve) secondToken secondTokenPriceUSD
  let firstTokenVolumeUSD :=
    m.inUSDC (.ofNat amounts.firstTokenAmount) firstToken firstTokenPriceUSD
  let secondTokenVolumeUSD :=
    m.inUSDC (.ofNat amounts.secondTokenAmount) secondToken secondTokenPriceUSD
  let tokenInValueUSD := if event.tokenIn.tokenID = firstToken.identifier then
      computeValueUSD (.ofNat amounts.firstTokenAmount) firstToken.decimals firstTokenPriceUSD
    else computeValueUSD (.ofNat amounts.secondTokenAmount) secondToken.decimals secondTokenPriceUSD
  let feesUSD := tokenInValueUSD.multipliedBy (.ofDouble (m.pair event.address).totalFeePercent)
  let firstTokenTotalLockedValue := m.getTokenTotalLockedValue firstToken.identifier
  let secondTokenTotalLockedValue := m.getTokenTotalLockedValue secondToken.identifier
  { lockedValues :=
      { firstTokenLockedValueUSD
        secondTokenLockedValueUSD
        lockedValueUSD := firstTokenLockedValueUSD.plus secondTokenLockedValueUSD
        firstTokenTotalLockedValueUSD :=
          m.inUSDC firstTokenTotalLockedValue firstToken firstTokenPriceUSD
        secondTokenTotalLockedValueUSD :=
          m.inUSDC secondTokenTotalLockedValue secondToken secondTokenPriceUSD }
    firstTokenLocked := .ofNat amounts.firstTokenReserve
    secondTokenLocked := .ofNat amounts.secondTokenReserve
    firstTokenTotalLockedValue
    secondTokenTotalLockedValue
    liquidity := .ofNat (m.pair event.address).info.totalSupply
    factoryTotalLockedValueUSD := (m.computeTotalLockedValueUSD m.pair).dividedBy m.usdcPrice
    firstTokenPrice := computeFirstTokenPrice m.cfg (m.pair event.address)
    secondTokenPrice := computeSecondTokenPrice m.cfg (m.pair event.address)
    firstTokenVolume := .ofNat amounts.firstTokenAmount
    secondTokenVolume := .ofNat amounts.secondTokenAmount
    firstTokenVolumeUSD
    secondTokenVolumeUSD
    firstTokenPriceUSD := firstTokenPriceUSD.dividedBy m.usdcPrice
    secondTokenPriceUSD := secondTokenPriceUSD.dividedBy m.usdcPrice
    volumeUSD := m.swapVolumeUSD firstToken secondToken firstTokenVolumeUSD secondTokenVolumeUSD
    feesUSD := feesUSD.dividedBy m.usdcPrice }

/-- What the handler of a swap records, if there is a price of EGLD. -/
def handleSwapEvents (m : Market) (event : SwapEvent) : Option SwapData :=
  let amounts := event.amounts (m.getFirstToken event.address)
  let m := m.updatePairReserves event.address amounts.firstTokenReserve amounts.secondTokenReserve
    none
  (m.computeFirstTokenPriceUSD event.address).bind fun firstTokenPriceUSD =>
    (m.computeSecondTokenPriceUSD event.address).map fun secondTokenPriceUSD =>
      m.swapData event firstTokenPriceUSD secondTokenPriceUSD

/-- What is recorded of a change of liquidity. -/
def liquidityData (m : Market) (event : AddLiquidityEvent)
    (firstTokenPriceUSD secondTokenPriceUSD : BigNumber) : LiquidityData :=
  let firstToken := m.getTokenMetadata event.firstToken.tokenID
  let secondToken := m.getTokenMetadata event.secondToken.tokenID
  let firstTokenLockedValueUSD :=
    computeValueUSD (.ofNat event.firstTokenReserves) firstToken.decimals firstTokenPriceUSD
  let secondTokenLockedValueUSD :=
    computeValueUSD (.ofNat event.secondTokenReserves) secondToken.decimals secondTokenPriceUSD
  let lockedValueUSD := firstTokenLockedValueUSD.plus secondTokenLockedValueUSD
  let firstTokenTotalLockedValue := m.getTokenTotalLockedValue firstToken.identifier
  let secondTokenTotalLockedValue := m.getTokenTotalLockedValue secondToken.identifier
  { lockedValues :=
      { firstTokenLockedValueUSD := firstTokenLockedValueUSD.dividedBy m.usdcPrice
        secondTokenLockedValueUSD := secondTokenLockedValueUSD.dividedBy m.usdcPrice
        lockedValueUSD := lockedValueUSD.dividedBy m.usdcPrice
        firstTokenTotalLockedValueUSD :=
          m.inUSDC firstTokenTotalLockedValue firstToken firstTokenPriceUSD
        secondTokenTotalLockedValueUSD :=
          m.inUSDC secondTokenTotalLockedValue secondToken secondTokenPriceUSD }
    firstTokenLocked := .ofNat event.firstTokenReserves
    secondTokenLocked := .ofNat event.secondTokenReserves
    firstTokenTotalLockedValue
    secondTokenTotalLockedValue
    liquidity := .ofNat event.liquidityPoolSupply
    factoryTotalLockedValueUSD := (m.computeTotalLockedValueUSD m.pair).dividedBy m.usdcPrice }

/-- What the handler of liquidity records. -/
def handleLiquidityEvent (m : Market) (event : AddLiquidityEvent) : Option LiquidityData :=
  let m := m.updatePairReserves event.address event.firstTokenReserves event.secondTokenReserves
    (some event.liquidityPoolSupply)
  (m.computeTokenPriceDerivedUSD event.firstToken.tokenID).bind fun firstTokenPriceUSD =>
    (m.computeTokenPriceDerivedUSD event.secondToken.tokenID).map fun secondTokenPriceUSD =>
      m.liquidityData event firstTokenPriceUSD secondTokenPriceUSD

end Market

/-! ## Prices over that of USDC -/

section Prices

variable {m : Market} {pairAddress : Address} {token other : EsdtToken} {spot : BigNumber}

/-- What a finite value is. -/
def toRat : BigNumber → ℚ
  | .fin q => q
  | _ => 0

namespace Market

/-- EGLD has a price. -/
def HasEgldPrice (m : Market) : Prop := m.env.getEgldPriceInUSD.isGreaterThan (.fin 0) = true

/-- The price along the pair graph, for a price of USDC of one. -/
def graphPrice (m : Market) (tokenID : TokenID) : ℚ :=
  ((tokenPriceDerivedEGLD m.env m.pairsMetadata tokenID).elim 0 toRat) *
    toRat m.env.getEgldPriceInUSD

/-- The price in the pair: the one of a token whose spot price it is given. -/
def pairPrice (m : Market) (token other : EsdtToken) (spot : BigNumber) : ℚ :=
  if token.identifier = m.USDC_TOKEN_ID then 1
  else if other.identifier = m.USDC_TOKEN_ID then toRat spot
  else m.graphPrice token.identifier

/-- The price of the first token in terms of USDC. -/
def firstTokenPairPrice (m : Market) (pairAddress : Address) : ℚ :=
  m.pairPrice (m.getFirstToken pairAddress) (m.getSecondToken pairAddress)
    (computeFirstTokenPrice m.cfg (m.pair pairAddress))

/-- The price of the second one. -/
def secondTokenPairPrice (m : Market) (pairAddress : Address) : ℚ :=
  m.pairPrice (m.getSecondToken pairAddress) (m.getFirstToken pairAddress)
    (computeSecondTokenPrice m.cfg (m.pair pairAddress))

/-- A price of EGLD is a number that is not negative. -/
theorem egldPrice_eq (m : Market) :
    ∃ q, m.env.getEgldPriceInUSD = .fin q ∧ 0 ≤ q := by
  obtain ⟨q, hq, hnonneg, -⟩ := spotPrice_spec m.cfg (m.pair m.WEGLD_USDC)
    (m.pair m.WEGLD_USDC).firstToken (m.pair m.WEGLD_USDC).secondToken
  exact ⟨q, hq, hnonneg⟩

/-- With a price of EGLD every token has a price. -/
theorem computeTokenPriceDerivedUSD_eq (hegld : m.HasEgldPrice) (tokenID : TokenID) :
    m.computeTokenPriceDerivedUSD tokenID =
      some (.fin (m.graphPrice tokenID * m.getTokenPrice)) ∧ 0 ≤ m.graphPrice tokenID := by
  obtain ⟨e, he, hnonneg⟩ := m.egldPrice_eq
  obtain ⟨q, hq, hq0⟩ := Tokens.tokenPriceDerivedEGLD_fin m.spotPrices hegld m.pairsMetadata tokenID
  have hgraph : m.graphPrice tokenID = q * e := by
    rw [graphPrice, hq, he]
    rfl
  rw [computeTokenPriceDerivedUSD, hq, he, hgraph]
  exact ⟨rfl, mul_nonneg hq0 hnonneg⟩

/-- No price is negative. -/
theorem pairPrice_nonneg (hegld : m.HasEgldPrice) (hspot : ∃ q, spot = .fin q ∧ 0 ≤ q) :
    0 ≤ m.pairPrice token other spot := by
  obtain ⟨q, rfl, hq⟩ := hspot
  rw [pairPrice]
  split
  · exact zero_le_one
  · split
    · exact hq
    · exact (m.computeTokenPriceDerivedUSD_eq hegld _).2

theorem ite_pairPrice_eq (hegld : m.HasEgldPrice) (hspot : ∃ q, spot = .fin q ∧ 0 ≤ q) :
    (if token.identifier = m.USDC_TOKEN_ID then some m.usdcPrice
      else if other.identifier = m.USDC_TOKEN_ID then some (spot.multipliedBy m.usdcPrice)
      else m.computeTokenPriceDerivedUSD token.identifier) =
    some (.fin (m.pairPrice token other spot * m.getTokenPrice)) := by
  obtain ⟨q, rfl, -⟩ := hspot
  rw [pairPrice]
  split
  · rw [one_mul, usdcPrice]
  · split
    · rfl
    · exact (m.computeTokenPriceDerivedUSD_eq hegld _).1

theorem spotPrice_fin (m : Market) (pairAddress : Address) (token other : EsdtToken) :
    ∃ q, spotPrice m.cfg (m.pair pairAddress) token other = .fin q ∧ 0 ≤ q := by
  obtain ⟨q, hq, hnonneg, -⟩ := spotPrice_spec m.cfg (m.pair pairAddress) token other
  exact ⟨q, hq, hnonneg⟩

/-- The price in dollars is that in USDC times the price of USDC. -/
theorem computeFirstTokenPriceUSD_eq (hegld : m.HasEgldPrice) (pairAddress : Address) :
    m.computeFirstTokenPriceUSD pairAddress =
      some (.fin (m.firstTokenPairPrice pairAddress * m.getTokenPrice)) :=
  ite_pairPrice_eq hegld (m.spotPrice_fin _ _ _)

/-- And for the second token. -/
theorem computeSecondTokenPriceUSD_eq (hegld : m.HasEgldPrice) (pairAddress : Address) :
    m.computeSecondTokenPriceUSD pairAddress =
      some (.fin (m.secondTokenPairPrice pairAddress * m.getTokenPrice)) :=
  ite_pairPrice_eq hegld (m.spotPrice_fin _ _ _)

/-! ## Values -/

/-- An amount in whole tokens. -/
def wholeTokens (token : EsdtToken) (amount : ℕ) : ℚ := amount * (1 / 10 ^ token.decimals)

theorem wholeTokens_nonneg (token : EsdtToken) (amount : ℕ) : 0 ≤ wholeTokens token amount := by
  unfold wholeTokens
  positivity

/-- A value in dollars, in rationals. -/
theorem computeValueUSD_eq (token : EsdtToken) (amount : ℕ) (price usdc : ℚ) :
    computeValueUSD (.ofNat amount) token.decimals (.fin (price * usdc)) =
      .fin (wholeTokens token amount * price * usdc) := by
  rw [computeValueUSD, AutoRouter.denominateAmount, BigNumber.ofNat, BigNumber.multipliedBy_fin,
    BigNumber.multipliedBy_fin, wholeTokens, mul_assoc _ price usdc]

/-- Dividing by the price of USDC cuts off what is behind the twentieth decimal.
-/
theorem dividedBy_usdcPrice (m : Market) (value : ℚ) :
    (BigNumber.fin (value * m.getTokenPrice)).dividedBy m.usdcPrice =
      .fin (truncatePlaces BigNumber.DECIMAL_PLACES value) := by
  rw [usdcPrice, BigNumber.dividedBy_fin _ m.getTokenPrice_pos.ne',
    mul_div_cancel_right₀ _ m.getTokenPrice_pos.ne']

/-- A value in USDC is cut off there. -/
theorem inUSDC_eq (m : Market) (token : EsdtToken) (amount : ℕ) (price : ℚ) :
    m.inUSDC (.ofNat amount) token (.fin (price * m.getTokenPrice)) =
      .fin (truncatePlaces BigNumber.DECIMAL_PLACES (wholeTokens token amount * price)) := by
  rw [inUSDC, computeValueUSD_eq, dividedBy_usdcPrice]

theorem foldl_plus_ofNat (values : List ℕ) (start : ℕ) :
    (values.map BigNumber.ofNat).foldl BigNumber.plus (.ofNat start) =
      .ofNat (start + values.sum) := by
  induction values generalizing start with
  | nil => rfl
  | cons value values ih =>
    rw [List.map_cons, List.foldl_cons, BigNumber.plus_ofNat, ih, List.sum_cons, Nat.add_assoc]

/-- The reserves are whole numbers, and so is their sum. -/
theorem getTokenTotalLockedValue_eq (m : Market) (tokenID : TokenID) :
    m.getTokenTotalLockedValue tokenID = .ofNat (m.allLockedValues tokenID).sum := by
  rw [getTokenTotalLockedValue, foldl_plus_ofNat, Nat.zero_add]

/-- What is recorded at two prices, with the values of the tokens and their sum. -/
def lockedValues (m : Market) (pairAddress : Address) (firstPrice secondPrice : ℚ)
    (lockedValueUSD : ℚ → ℚ → ℚ) : LockedValues :=
  let firstToken := m.getFirstToken pairAddress
  let secondToken := m.getSecondToken pairAddress
  let firstValue := wholeTokens firstToken (m.pair pairAddress).info.reserves0 * firstPrice
  let secondValue := wholeTokens secondToken (m.pair pairAddress).info.reserves1 * secondPrice
  let round := truncatePlaces BigNumber.DECIMAL_PLACES
  { firstTokenLockedValueUSD := .fin (round firstValue)
    secondTokenLockedValueUSD := .fin (round secondValue)
    lockedValueUSD := .fin (lockedValueUSD firstValue secondValue)
    firstTokenTotalLockedValueUSD := .fin (round
      (wholeTokens firstToken (m.allLockedValues firstToken.identifier).sum * firstPrice))
    secondTokenTotalLockedValueUSD := .fin (round
      (wholeTokens secondToken (m.allLockedValues secondToken.identifier).sum * secondPrice)) }

/-- The rounded values, added. -/
def sumOfRounded (u v : ℚ) : ℚ :=
  truncatePlaces BigNumber.DECIMAL_PLACES u + truncatePlaces BigNumber.DECIMAL_PLACES v

/-- The sum, rounded. -/
def roundedSum (u v : ℚ) : ℚ := truncatePlaces BigNumber.DECIMAL_PLACES (u + v)

/-- What a swap records of locked values. -/
theorem swapData_lockedValues (m : Market) (event : SwapEvent) (firstPrice secondPrice : ℚ)
    (hfirst : (event.amounts (m.getFirstToken event.address)).firstTokenReserve =
      (m.pair event.address).info.reserves0)
    (hsecond : (event.amounts (m.getFirstToken event.address)).secondTokenReserve =
      (m.pair event.address).info.reserves1) :
    (m.swapData event (.fin (firstPrice * m.getTokenPrice))
      (.fin (secondPrice * m.getTokenPrice))).lockedValues =
      m.lockedValues event.address firstPrice secondPrice sumOfRounded := by
  simp only [swapData, hfirst, hsecond, inUSDC_eq, getTokenTotalLockedValue_eq,
    BigNumber.plus_fin]
  rfl

/-- What liquidity records of them. -/
theorem liquidityData_lockedValues (m : Market) (event : AddLiquidityEvent)
    (firstPrice secondPrice : ℚ)
    (hfirst : m.getTokenMetadata event.firstToken.tokenID = m.getFirstToken event.address)
    (hsecond : m.getTokenMetadata event.secondToken.tokenID = m.getSecondToken event.address)
    (hfirstReserves : event.firstTokenReserves = (m.pair event.address).info.reserves0)
    (hsecondReserves : event.secondTokenReserves = (m.pair event.address).info.reserves1) :
    (m.liquidityData event (.fin (firstPrice * m.getTokenPrice))
      (.fin (secondPrice * m.getTokenPrice))).lockedValues =
      m.lockedValues event.address firstPrice secondPrice roundedSum := by
  simp only [liquidityData, hfirst, hsecond, hfirstReserves, hsecondReserves, inUSDC_eq,
    getTokenTotalLockedValue_eq, computeValueUSD_eq, BigNumber.plus_fin, ← add_mul,
    dividedBy_usdcPrice]
  rfl

/-! ## The state after either event -/

/-- Another supply of a pair. -/
def setTotalSupply (m : Market) (pairAddress : Address) (totalSupply : ℕ) : Market :=
  { m with pair := fun address =>
      let pair := m.pair address
      let supply := if address = pairAddress then totalSupply else pair.info.totalSupply
      { pair with info := { pair.info with totalSupply := supply } } }

theorem updatePairReserves_some (m : Market) (pairAddress : Address) (reserves0 reserves1 : ℕ)
    (totalSupply : ℕ) : m.updatePairReserves pairAddress reserves0 reserves1 (some totalSupply) =
      (m.updatePairReserves pairAddress reserves0 reserves1 none).setTotalSupply pairAddress
        totalSupply := by
  have hpair : ∀ address,
      (m.updatePairReserves pairAddress reserves0 reserves1 (some totalSupply)).pair address =
        ((m.updatePairReserves pairAddress reserves0 reserves1 none).setTotalSupply pairAddress
          totalSupply).pair address := by
    intro address
    simp only [updatePairReserves, setTotalSupply]
    by_cases h : address = pairAddress
    · subst h
      simp only [Function.update_self, if_pos]
      rfl
    · simp only [Function.update_of_ne h, if_neg h]
  have hpairs := funext hpair
  unfold updatePairReserves setTotalSupply at hpairs ⊢
  dsimp only at hpairs ⊢
  rw [hpairs]

/-- The supply does not matter to prices, if it is not zero. -/
theorem graphPrice_setTotalSupply {m : Market} {pairAddress : Address} {totalSupply : ℕ}
    (hbefore : 0 < (m.pair pairAddress).info.totalSupply) (hafter : 0 < totalSupply)
    (tokenID : TokenID) :
    (m.setTotalSupply pairAddress totalSupply).graphPrice tokenID = m.graphPrice tokenID := by
  have hlive : ∀ p, Tokens.hasLiquidity { m.env with
      totalSupply := (m.setTotalSupply pairAddress totalSupply).env.totalSupply } p =
        Tokens.hasLiquidity m.env p := by
    intro p
    -- the supply of this pair is another one, and still positive
    by_cases h : p.address = pairAddress
    · have hsupply : (m.setTotalSupply pairAddress totalSupply).env.totalSupply p.address =
          .ofNat totalSupply := by
        show BigNumber.ofNat (if p.address = pairAddress then totalSupply else _) = _
        rw [if_pos h]
      have hbefore' : m.env.totalSupply p.address =
          .ofNat (m.pair pairAddress).info.totalSupply := by
        rw [← h]
        rfl
      rw [Tokens.hasLiquidity, Tokens.hasLiquidity, hsupply, hbefore']
      exact ((BigNumber.isGreaterThan_zero_iff _).mpr hafter).trans
        ((BigNumber.isGreaterThan_zero_iff _).mpr hbefore).symm
    · have hsupply : (m.setTotalSupply pairAddress totalSupply).env.totalSupply p.address =
          m.env.totalSupply p.address := by
        show BigNumber.ofNat (if p.address = pairAddress then totalSupply else _) = _
        rw [if_neg h]
        rfl
      rw [Tokens.hasLiquidity, Tokens.hasLiquidity, hsupply]
  have hwalk := Tokens.computeTokenPriceDerivedEGLD_totalSupply hlive m.pairsMetadata
    (m.pairsMetadata.length + 1)
  have hprice : tokenPriceDerivedEGLD (m.setTotalSupply pairAddress totalSupply).env
      m.pairsMetadata tokenID = tokenPriceDerivedEGLD m.env m.pairsMetadata tokenID := by
    rw [tokenPriceDerivedEGLD, tokenPriceDerivedEGLD, ← hwalk]
    rfl
  rw [graphPrice, graphPrice, ← hprice]
  rfl

/-- The state after a swap. -/
def afterSwap (m : Market) (swap : SwapEvent) : Market :=
  let amounts := swap.amounts (m.getFirstToken swap.address)
  m.updatePairReserves swap.address amounts.firstTokenReserve amounts.secondTokenReserve none

@[simp] theorem afterSwap_pair (m : Market) (swap : SwapEvent) :
    (m.afterSwap swap).pair swap.address =
      { m.pair swap.address with
        info :=
          { reserves0 := (swap.amounts (m.getFirstToken swap.address)).firstTokenReserve
            reserves1 := (swap.amounts (m.getFirstToken swap.address)).secondTokenReserve
            totalSupply := (m.pair swap.address).info.totalSupply } } :=
  Function.update_self _ _ _

/-- A swap changes no tokens. -/
theorem getFirstToken_afterSwap (m : Market) (swap : SwapEvent) :
    (m.afterSwap swap).getFirstToken swap.address = m.getFirstToken swap.address := by
  rw [getFirstToken, afterSwap_pair, getFirstToken]

theorem getSecondToken_afterSwap (m : Market) (swap : SwapEvent) :
    (m.afterSwap swap).getSecondToken swap.address = m.getSecondToken swap.address := by
  rw [getSecondToken, afterSwap_pair, getSecondToken]

/-- The state after a change of liquidity. -/
def afterLiquidity (m : Market) (liquidity : AddLiquidityEvent) : Market :=
  m.updatePairReserves liquidity.address liquidity.firstTokenReserves
    liquidity.secondTokenReserves (some liquidity.liquidityPoolSupply)

end Market

/-- A swap and a change of liquidity that leave a pair with the same reserves. -/
structure SamePair (m : Market) (swap : SwapEvent) (liquidity : AddLiquidityEvent) : Prop where
  address : liquidity.address = swap.address
  firstToken : m.getTokenMetadata liquidity.firstToken.tokenID = m.getFirstToken swap.address
  secondToken : m.getTokenMetadata liquidity.secondToken.tokenID = m.getSecondToken swap.address
  firstTokenID : liquidity.firstToken.tokenID = (m.getFirstToken swap.address).identifier
  secondTokenID : liquidity.secondToken.tokenID = (m.getSecondToken swap.address).identifier
  firstTokenReserves : liquidity.firstTokenReserves =
    (swap.amounts (m.getFirstToken swap.address)).firstTokenReserve
  secondTokenReserves : liquidity.secondTokenReserves =
    (swap.amounts (m.getFirstToken swap.address)).secondTokenReserve

namespace Market

variable {swap : SwapEvent} {liquidity : AddLiquidityEvent}

/-- The handler of a swap values the pair as it is after the swap. -/
theorem handleSwapEvents_eq (hegld : (m.afterSwap swap).HasEgldPrice) :
    ∃ swapData, m.handleSwapEvents swap = some swapData ∧ swapData.lockedValues =
      (m.afterSwap swap).lockedValues swap.address
        ((m.afterSwap swap).firstTokenPairPrice swap.address)
        ((m.afterSwap swap).secondTokenPairPrice swap.address) sumOfRounded := by
  refine ⟨(m.afterSwap swap).swapData swap
    (.fin ((m.afterSwap swap).firstTokenPairPrice swap.address * m.getTokenPrice))
    (.fin ((m.afterSwap swap).secondTokenPairPrice swap.address * m.getTokenPrice)), ?_, ?_⟩
  · show ((m.afterSwap swap).computeFirstTokenPriceUSD swap.address).bind _ = _
    rw [computeFirstTokenPriceUSD_eq hegld]
    show ((m.afterSwap swap).computeSecondTokenPriceUSD swap.address).map _ = _
    rw [computeSecondTokenPriceUSD_eq hegld]
    rfl
  · refine swapData_lockedValues (m.afterSwap swap) swap _ _ ?_ ?_
    · rw [getFirstToken_afterSwap, afterSwap_pair]
    · rw [getFirstToken_afterSwap, afterSwap_pair]

/-- The states differ in the supply of the pair only. -/
theorem afterLiquidity_eq (hsame : SamePair m swap liquidity) : m.afterLiquidity liquidity =
    (m.afterSwap swap).setTotalSupply swap.address liquidity.liquidityPoolSupply := by
  rw [afterLiquidity, updatePairReserves_some, hsame.address, hsame.firstTokenReserves,
    hsame.secondTokenReserves]
  rfl

theorem hasEgldPrice_afterLiquidity (hsame : SamePair m swap liquidity)
    (hegld : (m.afterSwap swap).HasEgldPrice) : (m.afterLiquidity liquidity).HasEgldPrice := by
  rw [afterLiquidity_eq hsame]
  exact hegld

/-- So does the other one. -/
theorem handleLiquidityEvent_eq (hsame : SamePair m swap liquidity)
    (hegld : (m.afterLiquidity liquidity).HasEgldPrice) :
    ∃ liquidityData, m.handleLiquidityEvent liquidity = some liquidityData ∧
      liquidityData.lockedValues = (m.afterSwap swap).lockedValues swap.address
        ((m.afterLiquidity liquidity).graphPrice (m.getFirstToken swap.address).identifier)
        ((m.afterLiquidity liquidity).graphPrice (m.getSecondToken swap.address).identifier)
        roundedSum := by
  refine ⟨(m.afterLiquidity liquidity).liquidityData liquidity
    (.fin ((m.afterLiquidity liquidity).graphPrice liquidity.firstToken.tokenID *
      m.getTokenPrice))
    (.fin ((m.afterLiquidity liquidity).graphPrice liquidity.secondToken.tokenID *
      m.getTokenPrice)), ?_, ?_⟩
  · show ((m.afterLiquidity liquidity).computeTokenPriceDerivedUSD _).bind _ = _
    rw [(computeTokenPriceDerivedUSD_eq hegld _).1]
    show ((m.afterLiquidity liquidity).computeTokenPriceDerivedUSD _).map _ = _
    rw [(computeTokenPriceDerivedUSD_eq hegld _).1]
    rfl
  · have hpair : (m.afterLiquidity liquidity).pair liquidity.address =
        { m.pair swap.address with
          info :=
            { reserves0 := liquidity.firstTokenReserves
              reserves1 := liquidity.secondTokenReserves
              totalSupply := liquidity.liquidityPoolSupply } } := by
      rw [← hsame.address]
      exact Function.update_self _ _ _
    have hdata := liquidityData_lockedValues (m.afterLiquidity liquidity) liquidity
      ((m.afterLiquidity liquidity).graphPrice liquidity.firstToken.tokenID)
      ((m.afterLiquidity liquidity).graphPrice liquidity.secondToken.tokenID)
      (by rw [getFirstToken, hpair]; exact hsame.firstToken)
      (by rw [getSecondToken, hpair]; exact hsame.secondToken)
      (by rw [hpair]) (by rw [hpair])
    refine hdata.trans ?_
    rw [hsame.address, hsame.firstTokenID, hsame.secondTokenID]
    -- but for the prices nothing reads the supply
    generalize (m.afterLiquidity liquidity).graphPrice = graphPrice
    rw [afterLiquidity_eq hsame]
    rfl

end Market

/-! ## One valuation -/

/-- Both handlers record, and the locked values are the same. -/
def SameLockedValues (m : Market) (swap : SwapEvent) (liquidity : AddLiquidityEvent) : Prop :=
  ∃ swapData liquidityData, m.handleSwapEvents swap = some swapData ∧
    m.handleLiquidityEvent liquidity = some liquidityData ∧
    swapData.lockedValues = liquidityData.lockedValues

/-- An amount of a token is worth the same, up to the last decimal, at its price in
the pair and at that of the graph. -/
def PricesAgree (token : EsdtToken) (amount : ℕ) (pairPrice graphPrice : ℚ) : Prop :=
  SameStep BigNumber.DECIMAL_PLACES (Market.wholeTokens token amount * pairPrice)
    (Market.wholeTokens token amount * graphPrice)

/-- The prices in the pair, after a swap, and those of the graph, after a change of
liquidity, agree on what is locked of the two tokens, in the pair and in all pairs,
and what is cut off of the two values makes no carry. -/
structure OneValuation (m m' : Market) (pairAddress : Address) : Prop where
  first : PricesAgree (m.getFirstToken pairAddress) (m.pair pairAddress).info.reserves0
    (m.firstTokenPairPrice pairAddress)
    (m'.graphPrice (m.getFirstToken pairAddress).identifier)
  second : PricesAgree (m.getSecondToken pairAddress) (m.pair pairAddress).info.reserves1
    (m.secondTokenPairPrice pairAddress)
    (m'.graphPrice (m.getSecondToken pairAddress).identifier)
  firstTotal : PricesAgree (m.getFirstToken pairAddress)
    (m.allLockedValues (m.getFirstToken pairAddress).identifier).sum
    (m.firstTokenPairPrice pairAddress)
    (m'.graphPrice (m.getFirstToken pairAddress).identifier)
  secondTotal : PricesAgree (m.getSecondToken pairAddress)
    (m.allLockedValues (m.getSecondToken pairAddress).identifier).sum
    (m.secondTokenPairPrice pairAddress)
    (m'.graphPrice (m.getSecondToken pairAddress).identifier)
  noCarry : NoCarry BigNumber.DECIMAL_PLACES
    (Market.wholeTokens (m.getFirstToken pairAddress) (m.pair pairAddress).info.reserves0 *
      m'.graphPrice (m.getFirstToken pairAddress).identifier)
    (Market.wholeTokens (m.getSecondToken pairAddress) (m.pair pairAddress).info.reserves1 *
      m'.graphPrice (m.getSecondToken pairAddress).identifier)

theorem Market.firstTokenPairPrice_nonneg (hegld : m.HasEgldPrice) (pairAddress : Address) :
    0 ≤ m.firstTokenPairPrice pairAddress :=
  Market.pairPrice_nonneg hegld (m.spotPrice_fin _ _ _)

theorem Market.secondTokenPairPrice_nonneg (hegld : m.HasEgldPrice) (pairAddress : Address) :
    0 ≤ m.secondTokenPairPrice pairAddress :=
  Market.pairPrice_nonneg hegld (m.spotPrice_fin _ _ _)

/-- Two prices agree on an amount if its values do, cut off. -/
theorem pricesAgree_iff {amount : ℕ} {pairPrice graphPrice : ℚ} (hpair : 0 ≤ pairPrice)
    (hgraph : 0 ≤ graphPrice) : PricesAgree token amount pairPrice graphPrice ↔
      truncatePlaces BigNumber.DECIMAL_PLACES (Market.wholeTokens token amount * pairPrice) =
        truncatePlaces BigNumber.DECIMAL_PLACES (Market.wholeTokens token amount * graphPrice) :=
  sameStep_iff (mul_nonneg (Market.wholeTokens_nonneg token amount) hpair)
    (mul_nonneg (Market.wholeTokens_nonneg token amount) hgraph)

/-- Without USDC in the pair the prices are those of the graph, which is the same in
both states if the pair has liquidity in both. -/
theorem oneValuation_of_derived (hegld : m.HasEgldPrice) {totalSupply : ℕ}
    (hbefore : 0 < (m.pair pairAddress).info.totalSupply) (hafter : 0 < totalSupply)
    (hfirst : (m.getFirstToken pairAddress).identifier ≠ m.USDC_TOKEN_ID)
    (hsecond : (m.getSecondToken pairAddress).identifier ≠ m.USDC_TOKEN_ID) :
    OneValuation m (m.setTotalSupply pairAddress totalSupply) pairAddress ↔
      NoCarry BigNumber.DECIMAL_PLACES
        (Market.wholeTokens (m.getFirstToken pairAddress) (m.pair pairAddress).info.reserves0 *
          m.graphPrice (m.getFirstToken pairAddress).identifier)
        (Market.wholeTokens (m.getSecondToken pairAddress) (m.pair pairAddress).info.reserves1 *
          m.graphPrice (m.getSecondToken pairAddress).identifier) := by
  have hgraph : (m.setTotalSupply pairAddress totalSupply).graphPrice = m.graphPrice :=
    funext (Market.graphPrice_setTotalSupply hbefore hafter)
  have hpair : ∀ (token other : EsdtToken) (spot : BigNumber),
      token.identifier ≠ m.USDC_TOKEN_ID → other.identifier ≠ m.USDC_TOKEN_ID →
      m.pairPrice token other spot = m.graphPrice token.identifier := by
    intro token other spot htoken hother
    rw [Market.pairPrice, if_neg htoken, if_neg hother]
  have hagree : ∀ (token : EsdtToken) (amount : ℕ),
      PricesAgree token amount (m.graphPrice token.identifier) (m.graphPrice token.identifier) := by
    intro token amount
    exact SameStep.refl (mul_nonneg (Market.wholeTokens_nonneg token amount)
      (m.computeTokenPriceDerivedUSD_eq hegld token.identifier).2)
  constructor
  · intro h
    rw [← hgraph]
    exact h.noCarry
  · intro hcarry
    refine ⟨?_, ?_, ?_, ?_, by rw [hgraph]; exact hcarry⟩
    · rw [Market.firstTokenPairPrice, hpair _ _ _ hfirst hsecond, hgraph]
      exact hagree _ _
    · rw [Market.secondTokenPairPrice, hpair _ _ _ hsecond hfirst, hgraph]
      exact hagree _ _
    · rw [Market.firstTokenPairPrice, hpair _ _ _ hfirst hsecond, hgraph]
      exact hagree _ _
    · rw [Market.secondTokenPairPrice, hpair _ _ _ hsecond hfirst, hgraph]
      exact hagree _ _

/-- The locked values of two states agree if those of both tokens do. -/
theorem lockedValues_eq_iff {m' : Market} (hegld : m.HasEgldPrice) (hegld' : m'.HasEgldPrice)
    (pairAddress : Address) :
    m.lockedValues pairAddress (m.firstTokenPairPrice pairAddress)
        (m.secondTokenPairPrice pairAddress) Market.sumOfRounded =
      m.lockedValues pairAddress (m'.graphPrice (m.getFirstToken pairAddress).identifier)
        (m'.graphPrice (m.getSecondToken pairAddress).identifier) Market.roundedSum ↔
    OneValuation m m' pairAddress := by
  have hfirst := m.firstTokenPairPrice_nonneg hegld pairAddress
  have hsecond := m.secondTokenPairPrice_nonneg hegld pairAddress
  have hgraph := fun tokenID => (m'.computeTokenPriceDerivedUSD_eq hegld' tokenID).2
  have hcarry := @truncatePlaces_plus_eq_iff BigNumber.DECIMAL_PLACES _ _
    (mul_nonneg (Market.wholeTokens_nonneg (m.getFirstToken pairAddress)
      (m.pair pairAddress).info.reserves0) (hgraph (m.getFirstToken pairAddress).identifier))
    (mul_nonneg (Market.wholeTokens_nonneg (m.getSecondToken pairAddress)
      (m.pair pairAddress).info.reserves1) (hgraph (m.getSecondToken pairAddress).identifier))
  constructor
  · intro heq
    -- with the rounded values equal, the sums compare at the prices of the graph
    obtain ⟨h1, h2, hsum, h3, h4⟩ := LockedValues.mk.inj heq
    have hr1 := BigNumber.fin.inj h1
    have hr2 := BigNumber.fin.inj h2
    refine ⟨(pricesAgree_iff hfirst (hgraph _)).mpr hr1,
      (pricesAgree_iff hsecond (hgraph _)).mpr hr2,
      (pricesAgree_iff hfirst (hgraph _)).mpr (BigNumber.fin.inj h3),
      (pricesAgree_iff hsecond (hgraph _)).mpr (BigNumber.fin.inj h4), hcarry.mp ?_⟩
    have hrounded := BigNumber.fin.inj hsum
    rw [Market.sumOfRounded, hr1, hr2] at hrounded
    exact hrounded
  · intro h
    have hr1 := (pricesAgree_iff hfirst (hgraph _)).mp h.first
    have hr2 := (pricesAgree_iff hsecond (hgraph _)).mp h.second
    have hr3 := (pricesAgree_iff hfirst (hgraph _)).mp h.firstTotal
    have hr4 := (pricesAgree_iff hsecond (hgraph _)).mp h.secondTotal
    have hsum := hcarry.mpr h.noCarry
    rw [← hr1, ← hr2] at hsum
    unfold Market.lockedValues Market.sumOfRounded Market.roundedSum
    dsimp only
    rw [hr3, hr4, hsum, hr1, hr2]

/-- The values recorded do not depend on the kind of the event exactly if there is
one valuation in the states after it. -/
theorem oneValuation_iff (m : Market) (swap : SwapEvent) (liquidity : AddLiquidityEvent)
    (hsame : SamePair m swap liquidity) (hegld : (m.afterSwap swap).HasEgldPrice) :
    SameLockedValues m swap liquidity ↔
      OneValuation (m.afterSwap swap) (m.afterLiquidity liquidity) swap.address := by
  have hegld' := Market.hasEgldPrice_afterLiquidity hsame hegld
  obtain ⟨swapData, hswap, hswapValues⟩ := Market.handleSwapEvents_eq hegld
  obtain ⟨liquidityData, hliquidity, hliquidityValues⟩ :=
    Market.handleLiquidityEvent_eq hsame hegld'
  have hvalues := lockedValues_eq_iff hegld hegld' swap.address
  rw [Market.getFirstToken_afterSwap, Market.getSecondToken_afterSwap, ← hswapValues,
    ← hliquidityValues] at hvalues
  rw [← hvalues]
  constructor
  · rintro ⟨swapData', liquidityData', hswap', hliquidity', heq⟩
    obtain rfl := Option.some.inj (hswap.symm.trans hswap')
    obtain rfl := Option.some.inj (hliquidity.symm.trans hliquidity')
    exact heq
  · intro heq
    exact ⟨swapData, liquidityData, hswap, hliquidity, heq⟩

end Prices

/-! ## A pair with USDC that is not the deepest -/

def sampleTOK : EsdtToken := ⟨"TOK-1", 18⟩
def sampleWEGLD : EsdtToken := ⟨"WEGLD-1", 18⟩
def sampleUSDC : EsdtToken := ⟨"USDC-1", 6⟩

/-- EGLD at forty dollars, the token at a hundredth of an EGLD where most of it is
locked, and at half a dollar in its pair with USDC. -/
def sampleMarket : Market where
  cfg := ⟨"EGLD", "WEGLD-1"⟩
  tokenProviderUSD := "WEGLD-1"
  USDC_TOKEN_ID := "USDC-1"
  EGLDDecimals := 18
  WEGLD_USDC := "erd1egld"
  state := fun _ => "Active"
  pair := fun address =>
    if address = "erd1egld" then
      ⟨address, sampleWEGLD, sampleUSDC, ⟨1000 * 10 ^ 18, 40000 * 10 ^ 6, 1000⟩, .ofRat (3 / 1000)⟩
    else if address = "erd1deep" then
      ⟨address, sampleTOK, sampleWEGLD, ⟨1000 * 10 ^ 18, 10 * 10 ^ 18, 1000⟩, .ofRat (3 / 1000)⟩
    else
      ⟨address, sampleTOK, sampleUSDC, ⟨90 * 10 ^ 18, 55 * 10 ^ 6, 1000⟩, .ofRat (3 / 1000)⟩
  pairsMetadata := [⟨"erd1egld", "WEGLD-1", "USDC-1"⟩, ⟨"erd1deep", "TOK-1", "WEGLD-1"⟩,
    ⟨"erd1pair", "TOK-1", "USDC-1"⟩]
  getTokenPrice := 1
  getTokenPrice_pos := one_pos
  getTokenMetadata := fun tokenID =>
    if tokenID = "TOK-1" then sampleTOK
    else if tokenID = "WEGLD-1" then sampleWEGLD else sampleUSDC
  commonTokensForUserPairs := ["WEGLD-1", "USDC-1"]
  computeTotalLockedValueUSD := fun _ => .fin 0

def sampleSwap : SwapEvent where
  address := "erd1pair"
  tokenIn := ⟨"TOK-1", 10 * 10 ^ 18⟩
  tokenOut := ⟨"USDC-1", 5 * 10 ^ 6⟩
  tokenInReserves := 100 * 10 ^ 18
  tokenOutReserves := 50 * 10 ^ 6

def sampleLiquidity : AddLiquidityEvent where
  address := "erd1pair"
  firstToken := ⟨"TOK-1", 10 * 10 ^ 18⟩
  secondToken := ⟨"USDC-1", 5 * 10 ^ 6⟩
  firstTokenReserves := 100 * 10 ^ 18
  secondTokenReserves := 50 * 10 ^ 6
  liquidityPoolSupply := 1000

theorem samplePair_same : SamePair sampleMarket sampleSwap sampleLiquidity where
  address := rfl
  firstToken := rfl
  secondToken := rfl
  firstTokenID := rfl
  secondTokenID := rfl
  firstTokenReserves := rfl
  secondTokenReserves := rfl

theorem sampleMarket_hasEgldPrice : (sampleMarket.afterSwap sampleSwap).HasEgldPrice := by
  unfold Market.HasEgldPrice
  decide +kernel

theorem oneValuation_iff_sample : SameLockedValues sampleMarket sampleSwap sampleLiquidity ↔
    OneValuation (sampleMarket.afterSwap sampleSwap)
      (sampleMarket.afterLiquidity sampleLiquidity) "erd1pair" :=
  oneValuation_iff sampleMarket sampleSwap sampleLiquidity samplePair_same
    sampleMarket_hasEgldPrice

/-- After the swap the hundred tokens in the pair are worth fifty dollars, after the
change of liquidity forty. -/
theorem not_sameLockedValues_sample : ¬∀ (m : Market) (swap : SwapEvent)
    (liquidity : AddLiquidityEvent), SamePair m swap liquidity →
      (m.afterSwap swap).HasEgldPrice → SameLockedValues m swap liquidity := by
  intro h
  obtain ⟨swapData, liquidityData, hswap, hliquidity, heq⟩ :=
    h sampleMarket sampleSwap sampleLiquidity samplePair_same sampleMarket_hasEgldPrice
  have hvalues : (sampleMarket.handleSwapEvents sampleSwap).map (·.lockedValues) =
      (sampleMarket.handleLiquidityEvent sampleLiquidity).map (·.lockedValues) := by
    rw [hswap, hliquidity, Option.map_some, Option.map_some, heq]
  revert hvalues
  decide +kernel

end MxExchange.Pair
