import MxExchange.AutoRouter.Compute
import MxExchange.AutoRouter.GraphService

/-!
# `auto-router.service.ts`: a swap request

`swap` answers a request for the amounts of a swap. With multi-hop swaps
disabled it asks the direct pair (`singleSwap`), otherwise it takes the best
of the known paths (`multiSwap`). What the service reads from other services
is the record `Env`. The paths it finds in the cache need not come from the
pairs it reads in the same request, but they do come from some pair list;
that list is what `Env` records of them, so they are always paths of a graph
(`isTokenPath_of_mem_getAllPaths`).

On the one-hop path the two branches compute the same thing
(`singleSwap_eq`, `multiSwap_eq`) but reject differently: the direct branch
only on the sentinel `0`, the routed one on everything that does not beat
the initial best. They agree unless the whole output reserve is asked for
(`swap_agrees_iff`). Then the formula divides by zero, and the direct branch
answers with an infinite input.
-/

namespace MxExchange.AutoRouter

open MxExchange.Num MxExchange.Pair MxExchange.Collections

/-- `mxConfig.EGLDIdentifier`. -/
def EGLDIdentifier : TokenID := "EGLD"

/-- What the service reads in the course of a request. -/
structure Env where
  wrappedEgldTokenID : TokenID
  tokenDecimals : TokenID → ℕ
  tokenPriceUSD : TokenID → BigNumber
  multiSwapStatus : Bool
  MAX_SWAP_SPREAD : Double
  pairsAddress : List Address
  state : Address → String
  firstTokenID : Address → TokenID
  secondTokenID : Address → TokenID
  pairInfoMetadata : Address → PairInfoModel
  totalFeePercent : Address → Double
  hasLockedTokensInfo : Address → Bool
  trustedSwapPairs : Address → List Address
  /-- The pairs that the cached paths of two tokens were computed on. -/
  cachedPathsPairs : TokenID → TokenID → Option (List PairModel)
  /-- The pairs that the graph was built from. -/
  graphPairs : List PairModel

/-- A missing amount is `none`. -/
structure AutoRouterArgs where
  tokenInID : TokenID
  tokenOutID : TokenID
  amountIn : Option BigNumber
  amountOut : Option BigNumber
  tolerance : Double

/-- What a quote answers with. -/
structure AutoRouteModel where
  swapType : SWAP_TYPE
  tokenInID : TokenID
  tokenOutID : TokenID
  tokenInExchangeRate : BigNumber
  tokenOutExchangeRate : BigNumber
  tokenInExchangeRateDenom : BigNumber
  tokenOutExchangeRateDenom : BigNumber
  tokenInPriceUSD : BigNumber
  tokenOutPriceUSD : BigNumber
  amountIn : BigNumber
  amountOut : BigNumber
  intermediaryAmounts : List BigNumber
  tokenRoute : List TokenID
  pairs : List PairModel
  tolerance : Double
  maxPriceDeviationPercent : Double
  tokensPriceDeviationPercent : Option Number
  deriving DecidableEq

/-! ## What is read -/

/-- The metadata of a token, as far as quotes need it. -/
def getTokenMetadata (env : Env) (tokenID : TokenID) : EsdtToken where
  identifier := tokenID
  decimals := env.tokenDecimals tokenID

/-- Pairs trade the wrapped token in place of EGLD. -/
def toWrappedIfEGLD (env : Env) (t : TokenID) : TokenID :=
  if EGLDIdentifier = t then env.wrappedEgldTokenID else t

/-- What the router fetches of a pair. -/
def getPair (env : Env) (pairAddress : Address) : PairModel where
  address := pairAddress
  firstToken := getTokenMetadata env (env.firstTokenID pairAddress)
  secondToken := getTokenMetadata env (env.secondTokenID pairAddress)
  info := env.pairInfoMetadata pairAddress
  totalFeePercent := env.totalFeePercent pairAddress

/-- The pairs that can be traded on. -/
def getAllActivePairs (env : Env) : List PairModel :=
  (env.pairsAddress.filter fun address => env.state address = "Active").map (getPair env)

/-- The cached paths of the two tokens, computed on the graph if there are none. -/
def getAllPaths (env : Env) (source destination : TokenID) : List (List TokenID) :=
  match env.cachedPathsPairs source destination with
  | some pairs => (GraphService.new pairs).getAllPaths source destination
  | none => (GraphService.new env.graphPairs).getAllPaths source destination

/-- The paths that are searched are paths over pairs, of some time. -/
theorem isTokenPath_of_mem_getAllPaths {env : Env} {source destination : TokenID}
    {path : List TokenID} (h : path ∈ getAllPaths env source destination) :
    ∃ pairs, IsTokenPath pairs source destination path := by
  unfold getAllPaths at h
  split at h
  next pairs _ => exact ⟨pairs, isTokenPath_of_mem h⟩
  next => exact ⟨env.graphPairs, isTokenPath_of_mem h⟩

namespace PairService

/-- `getAmountOut` of `pair.service.ts`, which finds the side of the token
itself. -/
def getAmountOut (env : Env) (pairAddress : Address) (tokenInID : TokenID)
    (amount : BigNumber) : BigNumber :=
  let pairInfo := env.pairInfoMetadata pairAddress
  let totalFeePercent := env.totalFeePercent pairAddress
  let tokenIn := toWrappedIfEGLD env tokenInID
  if tokenIn = env.firstTokenID pairAddress then
    Pair.getAmountOut amount (.ofNat pairInfo.reserves0) (.ofNat pairInfo.reserves1)
      totalFeePercent
  else if tokenIn = env.secondTokenID pairAddress then
    Pair.getAmountOut amount (.ofNat pairInfo.reserves1) (.ofNat pairInfo.reserves0)
      totalFeePercent
  else .fin 0

/-- `getAmountIn` of `pair.service.ts`. -/
def getAmountIn (env : Env) (pairAddress : Address) (tokenOutID : TokenID)
    (amount : BigNumber) : BigNumber :=
  let pairInfo := env.pairInfoMetadata pairAddress
  let totalFeePercent := env.totalFeePercent pairAddress
  let tokenOut := toWrappedIfEGLD env tokenOutID
  if tokenOut = env.firstTokenID pairAddress then
    Pair.getAmountIn amount (.ofNat pairInfo.reserves1) (.ofNat pairInfo.reserves0)
      totalFeePercent
  else if tokenOut = env.secondTokenID pairAddress then
    Pair.getAmountIn amount (.ofNat pairInfo.reserves0) (.ofNat pairInfo.reserves1)
      totalFeePercent
  else .fin 0

end PairService

/-! ## Amounts and rates -/

/-- An amount of units in whole tokens. -/
def denominateAmount (tokenAmount : BigNumber) (decimals : ℕ) : BigNumber :=
  tokenAmount.multipliedBy (.fin (1 / 10 ^ decimals))

/-- An amount of units in dollars. -/
def computeValueUSD (amount : BigNumber) (decimals : ℕ) (priceUSD : BigNumber) : BigNumber :=
  (denominateAmount amount decimals).multipliedBy priceUSD

/-- What may have to be paid at most. -/
def addTolerance (amountIn : BigNumber) (tolerance : Double) : BigNumber :=
  (amountIn.plus (amountIn.multipliedBy (.ofDouble tolerance))).integerValue

/-- What a whole token of either side is worth in units of the other. -/
def calculateExchangeRate (tokenInDecimals tokenOutDecimals : ℕ)
    (amountIn amountOut : BigNumber) : BigNumber × BigNumber :=
  if amountIn = .fin 0 ∨ amountOut = .fin 0 then (.fin 0, .fin 0)
  else
    let tokenInPrice :=
      ((BigNumber.fin (10 ^ tokenInDecimals)).multipliedBy amountOut).dividedBy amountIn
    let tokenOutPrice :=
      ((BigNumber.fin (10 ^ tokenOutDecimals)).multipliedBy amountIn).dividedBy amountOut
    (tokenInPrice.integerValue, tokenOutPrice.integerValue)

/-- The relative difference of the two sides of one hop in USD. -/
def priceDeviationPercent (env : Env) (hop : TokenID × TokenID)
    (amountIn amountOut : BigNumber) : BigNumber :=
  let amountInUSD :=
    computeValueUSD amountIn (getTokenMetadata env hop.1).decimals (env.tokenPriceUSD hop.1)
  let amountOutUSD :=
    computeValueUSD amountOut (getTokenMetadata env hop.2).decimals (env.tokenPriceUSD hop.2)
  if amountInUSD.isLessThan amountOutUSD then
    (BigNumber.fin 1).minus (amountInUSD.dividedBy amountOutUSD)
  else (BigNumber.fin 1).minus (amountOutUSD.dividedBy amountInUSD)

/-- The deviation of the first hop where it is too big. -/
def getTokenPriceDeviationPercent (env : Env) (tokenRoute : List TokenID)
    (intermediaryAmounts : List BigNumber) : Option Number :=
  (hops tokenRoute).zipIdx.findSome? fun (hop, index) =>
    let percent := (priceDeviationPercent env hop (intermediaryAmounts[index]?.getD .nan)
      (intermediaryAmounts[index + 1]?.getD .nan)).toNumber
    if percent.gt (.fin env.MAX_SWAP_SPREAD) then some percent else none

/-- One whole token, if no amount is given. -/
def setDefaultAmountInIfNeeded (args : AutoRouterArgs) (tokenInMetadata : EsdtToken) :
    Option BigNumber :=
  if args.amountOut = none ∧ args.amountIn = none then
    some (BigNumber.fin (10 ^ tokenInMetadata.decimals)).integerValue
  else args.amountIn

/-- Exactly one of the two amounts is to be given. -/
def getSwapType (amountIn amountOut : Option BigNumber) : Except String SWAP_TYPE :=
  match amountIn, amountOut with
  | some _, some _ => .error "Can't have both fixedInput & fixedOutput"
  | some _, none => .ok .fixedInput
  | none, some _ => .ok .fixedOutput
  | none, none => .error "Can't get SWAP_TYPE"

/-- The pairs of the addresses of a route, in its order. -/
def getPairsRoute (addresses : List Address) (pairs : List PairModel) : List PairModel :=
  addresses.filterMap fun address => pairs.find? fun pair => pair.address = address

/-! ## The two branches -/

/-- The quote over a pair of the two tokens. -/
def singleSwap (env : Env) (args : AutoRouterArgs) (tokenInID tokenOutID : TokenID)
    (pair : PairModel) (tokenInMetadata tokenOutMetadata : EsdtToken) (swapType : SWAP_TYPE) :
    Except String AutoRouteModel :=
  let result :=
    match swapType with
    | .fixedInput =>
      PairService.getAmountOut env pair.address tokenInID (args.amountIn.getD .nan)
    | .fixedOutput =>
      PairService.getAmountIn env pair.address tokenOutID (args.amountOut.getD .nan)
  if result = .fin 0 then .error "Invalid amounts"
  else
    let (amountIn, amountOut) :=
      match swapType with
      | .fixedInput => (args.amountIn.getD .nan, result)
      | .fixedOutput => (result, args.amountOut.getD .nan)
    let (tokenInExchangeRate, tokenOutExchangeRate) :=
      calculateExchangeRate tokenInMetadata.decimals tokenOutMetadata.decimals amountIn amountOut
    -- the rates are those without the tolerance
    let amountIn :=
      match swapType with
      | .fixedInput => amountIn
      | .fixedOutput => addTolerance amountIn args.tolerance
    .ok {
      swapType
      tokenInID := args.tokenInID
      tokenOutID := args.tokenOutID
      tokenInExchangeRate
      tokenOutExchangeRate
      tokenInExchangeRateDenom := denominateAmount tokenInExchangeRate tokenOutMetadata.decimals
      tokenOutExchangeRateDenom := denominateAmount tokenOutExchangeRate tokenInMetadata.decimals
      tokenInPriceUSD := env.tokenPriceUSD tokenInID
      tokenOutPriceUSD := env.tokenPriceUSD tokenOutID
      amountIn
      amountOut
      intermediaryAmounts := [amountIn, amountOut]
      tokenRoute := [tokenInID, tokenOutID]
      pairs := [pair]
      tolerance := args.tolerance
      maxPriceDeviationPercent := env.MAX_SWAP_SPREAD
      tokensPriceDeviationPercent :=
        getTokenPriceDeviationPercent env [tokenInID, tokenOutID] [amountIn, amountOut] }

/-- The quote over the best path. -/
def multiSwap (env : Env) (args : AutoRouterArgs) (tokenInID tokenOutID : TokenID)
    (pairs : List PairModel) (tokenInMetadata tokenOutMetadata : EsdtToken)
    (swapType : SWAP_TYPE) : Except String AutoRouteModel :=
  let paths := getAllPaths env tokenInID tokenOutID
  let amount :=
    match swapType with
    | .fixedInput => args.amountIn.getD .nan
    | .fixedOutput => args.amountOut.getD .nan
  match computeBestSwapRoute paths pairs amount swapType with
  | .error e => .error e
  | .ok swapRoute =>
    -- pairs of locked tokens are not routed through
    if swapRoute.addressRoute.any env.hasLockedTokensInfo ∧ 1 < swapRoute.addressRoute.length then
      .error "No swap route found"
    else
      let (tokenInExchangeRate, tokenOutExchangeRate) :=
        match swapType with
        | .fixedInput => calculateExchangeRate tokenInMetadata.decimals tokenOutMetadata.decimals
            amount swapRoute.bestResult
        | .fixedOutput => calculateExchangeRate tokenInMetadata.decimals tokenOutMetadata.decimals
            swapRoute.bestResult amount
      .ok {
        swapType
        tokenInID := args.tokenInID
        tokenOutID := args.tokenOutID
        tokenInExchangeRate
        tokenOutExchangeRate
        tokenInExchangeRateDenom := denominateAmount tokenInExchangeRate tokenOutMetadata.decimals
        tokenOutExchangeRateDenom :=
          denominateAmount tokenOutExchangeRate tokenInMetadata.decimals
        tokenInPriceUSD := env.tokenPriceUSD tokenInID
        tokenOutPriceUSD := env.tokenPriceUSD tokenOutID
        amountIn := args.amountIn.getD (addTolerance swapRoute.bestResult args.tolerance)
        amountOut := args.amountOut.getD swapRoute.bestResult
        intermediaryAmounts := swapRoute.intermediaryAmounts
        tokenRoute := swapRoute.tokenRoute
        pairs := getPairsRoute swapRoute.addressRoute pairs
        tolerance := args.tolerance
        maxPriceDeviationPercent := env.MAX_SWAP_SPREAD
        tokensPriceDeviationPercent :=
          getTokenPriceDeviationPercent env swapRoute.tokenRoute swapRoute.intermediaryAmounts }

/-- A quote: over a direct pair if there is one, or else over the best path. -/
def swap (env : Env) (args : AutoRouterArgs) : Except String AutoRouteModel :=
  if args.amountIn.isSome ∧ args.amountOut.isSome then
    .error "Can't have both amountIn & amountOut"
  else
    let tokenInID := toWrappedIfEGLD env args.tokenInID
    let tokenOutID := toWrappedIfEGLD env args.tokenOutID
    let pairs := getAllActivePairs env
    let tokenInMetadata := getTokenMetadata env tokenInID
    let tokenOutMetadata := getTokenMetadata env tokenOutID
    let args := { args with amountIn := setDefaultAmountInIfNeeded args tokenInMetadata }
    match getSwapType args.amountIn args.amountOut with
    | .error e => .error e
    | .ok swapType =>
      if env.multiSwapStatus then
        multiSwap env args tokenInID tokenOutID pairs tokenInMetadata tokenOutMetadata swapType
      else
        match pairs.find? (trades tokenInID tokenOutID) with
        | some directPair =>
          singleSwap env args tokenInID tokenOutID directPair tokenInMetadata tokenOutMetadata
            swapType
        | none => .error "Multi swap disabled!"

/-! ## The two branches on one hop -/

/-- What a client of `swap` gets to see of the amounts. -/
def AutoRouteModel.quote (m : AutoRouteModel) : BigNumber × BigNumber × BigNumber × BigNumber :=
  (m.amountIn, m.amountOut, m.tokenInExchangeRate, m.tokenOutExchangeRate)

/-- Both reject, or both answer with the same amounts and rates. -/
def Agree (r r' : Except String AutoRouteModel) : Prop :=
  r.toOption.map AutoRouteModel.quote = r'.toOption.map AutoRouteModel.quote

/-- The quote for a given amount and the amount computed for it. -/
def quoteOf (tokenInDecimals tokenOutDecimals : ℕ) (tolerance : Double) :
    SWAP_TYPE → BigNumber → BigNumber → BigNumber × BigNumber × BigNumber × BigNumber
  | .fixedInput, amountIn, result =>
    (amountIn, result, calculateExchangeRate tokenInDecimals tokenOutDecimals amountIn result)
  | .fixedOutput, amountOut, result =>
    (addTolerance result tolerance, amountOut,
      calculateExchangeRate tokenInDecimals tokenOutDecimals result amountOut)

/-- One amount is given, the one the swap type says. -/
def Gives (args : AutoRouterArgs) : SWAP_TYPE → BigNumber → Prop
  | .fixedInput, amount => args.amountIn = some amount ∧ args.amountOut = none
  | .fixedOutput, amount => args.amountIn = none ∧ args.amountOut = some amount

/-- What one hop makes of the given amount. -/
def Hop.result (h : Hop) : SWAP_TYPE → BigNumber → BigNumber
  | .fixedInput, amount => h.amountOut amount
  | .fixedOutput, amount => h.amountIn amount

/-- The wrapped token is not wrapped again. -/
theorem toWrappedIfEGLD_idem (env : Env) (t : TokenID) :
    toWrappedIfEGLD env (toWrappedIfEGLD env t) = toWrappedIfEGLD env t := by
  unfold toWrappedIfEGLD
  by_cases h : EGLDIdentifier = t
  · rw [if_pos h, ite_self]
  · rw [if_neg h, if_neg h]

/-- A pair that trades two tokens gives the reserves in the order of the swap. -/
theorem reserves_of_trades {h : Hop} (htr : trades h.tokenInID h.tokenOutID h.pair = true)
    (hne : h.tokenInID ≠ h.tokenOutID) :
    (h.tokenInID = h.pair.firstToken.identifier ∧ h.tokenOutID = h.pair.secondToken.identifier ∧
      h.tokenOutID ≠ h.pair.firstToken.identifier ∧
      h.reserveIn = h.pair.info.reserves0 ∧ h.reserveOut = h.pair.info.reserves1) ∨
    (h.tokenInID = h.pair.secondToken.identifier ∧ h.tokenOutID = h.pair.firstToken.identifier ∧
      h.tokenInID ≠ h.pair.firstToken.identifier ∧
      h.reserveIn = h.pair.info.reserves1 ∧ h.reserveOut = h.pair.info.reserves0) := by
  have hcase : (h.tokenInID = h.pair.firstToken.identifier ∧
        h.tokenOutID = h.pair.secondToken.identifier) ∨
      (h.tokenInID = h.pair.secondToken.identifier ∧
        h.tokenOutID = h.pair.firstToken.identifier) := by
    simpa [trades] using htr
  unfold Hop.reserveIn Hop.reserveOut
  rcases hcase with ⟨hin, hout⟩ | ⟨hin, hout⟩
  · refine Or.inl ⟨hin, hout, fun he => hne (hin.trans he.symm), ?_, ?_⟩
    · rw [if_pos hin]
    · rw [if_pos hin]
  · have hfirst : h.tokenInID ≠ h.pair.firstToken.identifier := fun he => hne (he.trans hout.symm)
    refine Or.inr ⟨hin, hout, hfirst, ?_, ?_⟩
    · rw [if_neg hfirst]
    · rw [if_neg hfirst]

/-- The service of the pair gives what the hop gives. -/
theorem pairService_getAmountOut {env : Env} {address : Address} {tin tout : TokenID}
    (htr : trades tin tout (getPair env address) = true) (hne : tin ≠ tout)
    (hw : toWrappedIfEGLD env tin = tin) (amount : BigNumber) :
    PairService.getAmountOut env address tin amount
      = (Hop.mk tin tout (getPair env address)).amountOut amount := by
  rw [Hop.amountOut_eq]
  unfold PairService.getAmountOut
  rw [hw]
  rcases reserves_of_trades (h := ⟨tin, tout, getPair env address⟩) htr hne with
    ⟨hin, -, -, hrin, hrout⟩ | ⟨hin, -, hfirst, hrin, hrout⟩
  · rw [hrin, hrout]
    exact if_pos hin
  · rw [hrin, hrout]
    exact (if_neg hfirst).trans (if_pos hin)

/-- The service of the pair asks what the hop asks. -/
theorem pairService_getAmountIn {env : Env} {address : Address} {tin tout : TokenID}
    (htr : trades tin tout (getPair env address) = true) (hne : tin ≠ tout)
    (hw : toWrappedIfEGLD env tout = tout) (amount : BigNumber) :
    PairService.getAmountIn env address tout amount
      = (Hop.mk tin tout (getPair env address)).amountIn amount := by
  rw [Hop.amountIn_eq]
  unfold PairService.getAmountIn
  rw [hw]
  rcases reserves_of_trades (h := ⟨tin, tout, getPair env address⟩) htr hne with
    ⟨-, hout, hfirst, hrin, hrout⟩ | ⟨-, hout, -, hrin, hrout⟩
  · rw [hrin, hrout]
    exact (if_neg hfirst).trans (if_pos hout)
  · rw [hrin, hrout]
    exact if_pos hout

/-- The direct branch rejects the result `0` and quotes any other. -/
theorem singleSwap_eq (env : Env) {args : AutoRouterArgs} {address : Address}
    {tin tout : TokenID} {swapType : SWAP_TYPE} {amount : BigNumber}
    (htr : trades tin tout (getPair env address) = true) (hne : tin ≠ tout)
    (hwin : toWrappedIfEGLD env tin = tin) (hwout : toWrappedIfEGLD env tout = tout)
    (hg : Gives args swapType amount) :
    (singleSwap env args tin tout (getPair env address) (getTokenMetadata env tin)
        (getTokenMetadata env tout) swapType).toOption.map AutoRouteModel.quote
      = if (Hop.mk tin tout (getPair env address)).result swapType amount = .fin 0 then none
        else some (quoteOf (env.tokenDecimals tin) (env.tokenDecimals tout) args.tolerance swapType
          amount ((Hop.mk tin tout (getPair env address)).result swapType amount)) := by
  have haddr : (getPair env address).address = address := rfl
  unfold singleSwap
  cases swapType with
  | fixedInput =>
    obtain ⟨hin, -⟩ := hg
    simp only [hin, Option.getD_some, haddr, pairService_getAmountOut htr hne hwin]
    unfold Hop.result
    split
    · rfl
    · rfl
  | fixedOutput =>
    obtain ⟨-, hout⟩ := hg
    simp only [hout, Option.getD_some, haddr, pairService_getAmountIn htr hne hwout]
    unfold Hop.result
    split
    · rfl
    · rfl

/-- On a single path the best route is that path or none. -/
theorem computeBestSwapRoute_singleton {pairs : List PairModel} {path : List TokenID}
    {amount : BigNumber} {swapType : SWAP_TYPE} :
    computeBestSwapRoute [path] pairs amount swapType
      = if better swapType (composed swapType (knownHops pairs path) amount)
          (initialBest swapType) = true
        then .ok (routeAlong swapType pairs amount path) else .error "No route found" := by
  split
  next h =>
    have hirr := (better_comparison swapType).irrefl
    refine computeBestSwapRoute_ok_iff.mpr ⟨path, ⟨0, rfl, rfl, h, ?_, ?_⟩, rfl⟩
    · intro y hy
      rw [List.mem_singleton.mp hy]
      exact hirr _
    · intro j y hj
      omega
  next h =>
    refine computeBestSwapRoute_error_iff.mpr ⟨rfl, ?_⟩
    intro p hp
    rw [List.mem_singleton.mp hp]
    simpa using h

/-- The routed branch rejects what does not beat the initial best. -/
theorem multiSwap_eq (env : Env) {args : AutoRouterArgs} {pairs : List PairModel}
    {pair : PairModel} {tin tout : TokenID} {swapType : SWAP_TYPE} {amount : BigNumber}
    (hfind : pairs.find? (trades tin tout) = some pair)
    (hpaths : getAllPaths env tin tout = [[tin, tout]]) (hg : Gives args swapType amount) :
    (multiSwap env args tin tout pairs (getTokenMetadata env tin)
        (getTokenMetadata env tout) swapType).toOption.map AutoRouteModel.quote
      = if better swapType (composed swapType [⟨tin, tout, pair⟩] amount) (initialBest swapType)
          = true
        then some (quoteOf (env.tokenDecimals tin) (env.tokenDecimals tout) args.tolerance swapType
          amount (composed swapType [⟨tin, tout, pair⟩] amount))
        else none := by
  have hhops : knownHops pairs [tin, tout] = [⟨tin, tout, pair⟩] := by
    have : findHop pairs (tin, tout) = some ⟨tin, tout, pair⟩ := findHop_of_some hfind
    simp [knownHops, hops, this]
  have hroute : computeBestSwapRoute (getAllPaths env tin tout) pairs amount swapType
      = if better swapType (composed swapType [⟨tin, tout, pair⟩] amount) (initialBest swapType)
          = true
        then .ok (routeAlong swapType pairs amount [tin, tout])
        else .error "No route found" := by
    rw [hpaths, computeBestSwapRoute_singleton, hhops]
  by_cases hb : better swapType (composed swapType [⟨tin, tout, pair⟩] amount)
      (initialBest swapType) = true
  · rw [if_pos hb] at hroute ⊢
    have haddr : (routeAlong swapType pairs amount [tin, tout]).addressRoute = [pair.address] := by
      simp [routeAlong, hhops]
    have hbest : (routeAlong swapType pairs amount [tin, tout]).bestResult
        = composed swapType [⟨tin, tout, pair⟩] amount := by
      simp [routeAlong, hhops]
    unfold multiSwap
    -- a single hop is never refused for locked tokens
    cases swapType with
    | fixedInput =>
      obtain ⟨hin, hout⟩ := hg
      simp only [hin, hout, Option.getD_some, Option.getD_none, hroute, haddr, hbest,
        List.length_singleton, lt_irrefl, and_false, if_false]
      rfl
    | fixedOutput =>
      obtain ⟨hin, hout⟩ := hg
      simp only [hin, hout, Option.getD_some, Option.getD_none, hroute, haddr, hbest,
        List.length_singleton, lt_irrefl, and_false, if_false]
      rfl
  · rw [if_neg hb] at hroute ⊢
    unfold multiSwap
    cases swapType with
    | fixedInput =>
      simp only [hg.1, Option.getD_some, hroute]
      rfl
    | fixedOutput =>
      simp only [hg.2, Option.getD_some, hroute]
      rfl

/-- The request with its amounts completed. -/
def withDefault (env : Env) (args : AutoRouterArgs) : AutoRouterArgs :=
  { args with
    amountIn := setDefaultAmountInIfNeeded args
      (getTokenMetadata env (toWrappedIfEGLD env args.tokenInID)) }

/-- A request either gives both amounts, or is completed to give one. -/
theorem request_cases (env : Env) (args : AutoRouterArgs) :
    (args.amountIn.isSome = true ∧ args.amountOut.isSome = true) ∨
    ∃ swapType amount, Gives (withDefault env args) swapType amount ∧
      (swapType = .fixedInput ∧ (args.amountIn = some amount ∨
        args.amountIn = none ∧ amount = (BigNumber.fin (10 ^ env.tokenDecimals
          (toWrappedIfEGLD env args.tokenInID))).integerValue) ∨
       swapType = .fixedOutput ∧ args.amountIn = none ∧ args.amountOut = some amount) := by
  obtain ⟨tin, tout, ain, aout, tol⟩ := args
  cases ain with
  | some a =>
    cases aout with
    | some b => exact Or.inl ⟨rfl, rfl⟩
    | none => exact Or.inr ⟨.fixedInput, a, ⟨rfl, rfl⟩, Or.inl ⟨rfl, Or.inl rfl⟩⟩
  | none =>
    cases aout with
    | some b => exact Or.inr ⟨.fixedOutput, b, ⟨rfl, rfl⟩, Or.inr ⟨rfl, rfl, rfl⟩⟩
    | none => exact Or.inr ⟨.fixedInput, _, ⟨rfl, rfl⟩, Or.inl ⟨rfl, Or.inr ⟨rfl, rfl⟩⟩⟩

/-- Both amounts are refused. -/
theorem swap_of_both {env : Env} {args : AutoRouterArgs}
    (h : args.amountIn.isSome = true ∧ args.amountOut.isSome = true) :
    swap env args = .error "Can't have both amountIn & amountOut" := by
  unfold swap
  rw [if_pos h]

/-- A request that gives one amount is passed on to one of the branches. -/
theorem swap_of_gives (env : Env) {args : AutoRouterArgs} {swapType : SWAP_TYPE}
    {amount : BigNumber} (h : Gives (withDefault env args) swapType amount) :
    swap env args =
      if env.multiSwapStatus then
        multiSwap env (withDefault env args) (toWrappedIfEGLD env args.tokenInID)
          (toWrappedIfEGLD env args.tokenOutID) (getAllActivePairs env)
          (getTokenMetadata env (toWrappedIfEGLD env args.tokenInID))
          (getTokenMetadata env (toWrappedIfEGLD env args.tokenOutID)) swapType
      else
        match (getAllActivePairs env).find? (trades (toWrappedIfEGLD env args.tokenInID)
          (toWrappedIfEGLD env args.tokenOutID)) with
        | some directPair =>
          singleSwap env (withDefault env args) (toWrappedIfEGLD env args.tokenInID)
            (toWrappedIfEGLD env args.tokenOutID) directPair
            (getTokenMetadata env (toWrappedIfEGLD env args.tokenInID))
            (getTokenMetadata env (toWrappedIfEGLD env args.tokenOutID)) swapType
        | none => .error "Multi swap disabled!" := by
  have hnot : ¬ (args.amountIn.isSome = true ∧ args.amountOut.isSome = true) := by
    intro hboth
    obtain ⟨a, ha⟩ := Option.isSome_iff_exists.mp hboth.1
    obtain ⟨b, hb⟩ := Option.isSome_iff_exists.mp hboth.2
    -- the default is only set where neither amount is given
    cases swapType with
    | fixedInput =>
      have := h.2
      simp [withDefault, hb] at this
    | fixedOutput =>
      have := h.1
      simp [withDefault, setDefaultAmountInIfNeeded, ha] at this
  have htype : getSwapType (withDefault env args).amountIn (withDefault env args).amountOut
      = .ok swapType := by
    cases swapType with
    | fixedInput =>
      rw [h.1, h.2]
      rfl
    | fixedOutput =>
      rw [h.1, h.2]
      rfl
  unfold swap
  rw [if_neg hnot]
  show (match getSwapType (withDefault env args).amountIn (withDefault env args).amountOut with
    | .error e => _
    | .ok swapType => _) = _
  rw [htype]
  rfl

/-! ## What a returned route is made of -/

/-- The fields a route takes over from the request. -/
structure Answers (m : AutoRouteModel) (args : AutoRouterArgs) : Prop where
  tokenIn : m.tokenInID = args.tokenInID
  tokenOut : m.tokenOutID = args.tokenOutID
  tolerance : m.tolerance = args.tolerance

/-- The fields it takes over from the best route. -/
structure Follows (m : AutoRouteModel) (r : BestSwapRoute) (pairs : List PairModel) : Prop where
  tokenRoute : m.tokenRoute = r.tokenRoute
  intermediaryAmounts : m.intermediaryAmounts = r.intermediaryAmounts
  pairs : m.pairs = getPairsRoute r.addressRoute pairs

/-- What a quote over one pair answers. -/
theorem singleSwap_ok {env : Env} {args : AutoRouterArgs} {tin tout : TokenID}
    {pair : PairModel} {tokenIn tokenOut : EsdtToken} {swapType : SWAP_TYPE} {m : AutoRouteModel}
    (h : singleSwap env args tin tout pair tokenIn tokenOut swapType = .ok m) :
    Answers m args ∧ m.pairs = [pair] := by
  unfold singleSwap at h
  cases swapType with
  | fixedInput =>
    dsimp only at h
    split at h
    next => exact absurd h (by simp)
    next =>
      rw [← Except.ok.inj h]
      exact ⟨⟨rfl, rfl, rfl⟩, rfl⟩
  | fixedOutput =>
    dsimp only at h
    split at h
    next => exact absurd h (by simp)
    next =>
      rw [← Except.ok.inj h]
      exact ⟨⟨rfl, rfl, rfl⟩, rfl⟩

/-- What a quote over a path answers. -/
theorem multiSwap_ok {env : Env} {args : AutoRouterArgs} {tin tout : TokenID}
    {pairs : List PairModel} {tokenIn tokenOut : EsdtToken} {swapType : SWAP_TYPE}
    {m : AutoRouteModel}
    (h : multiSwap env args tin tout pairs tokenIn tokenOut swapType = .ok m) :
    Answers m args ∧ ∃ amount r,
      computeBestSwapRoute (getAllPaths env tin tout) pairs amount swapType = .ok r ∧
      Follows m r pairs := by
  unfold multiSwap at h
  dsimp only at h
  split at h
  next => exact absurd h (by simp)
  next r hr =>
    split at h
    next => exact absurd h (by simp)
    next =>
      rw [← Except.ok.inj h]
      exact ⟨⟨rfl, rfl, rfl⟩, _, r, hr, ⟨rfl, rfl, rfl⟩⟩

/-- A route comes from one pair or from the best path. -/
theorem swap_ok {env : Env} {args : AutoRouterArgs} {m : AutoRouteModel}
    (h : swap env args = .ok m) :
    Answers m args ∧ ((∃ pair, m.pairs = [pair]) ∨ ∃ swapType amount r,
      computeBestSwapRoute (getAllPaths env (toWrappedIfEGLD env args.tokenInID)
        (toWrappedIfEGLD env args.tokenOutID)) (getAllActivePairs env) amount swapType = .ok r ∧
      Follows m r (getAllActivePairs env)) := by
  rcases request_cases env args with hboth | ⟨swapType, amount, hg, -⟩
  · rw [swap_of_both hboth] at h
    exact absurd h (by simp)
  · rw [swap_of_gives env hg] at h
    split at h
    next =>
      obtain ⟨hans, amount', r, hr, hf⟩ := multiSwap_ok h
      exact ⟨⟨hans.tokenIn, hans.tokenOut, hans.tolerance⟩, Or.inr ⟨_, amount', r, hr, hf⟩⟩
    next =>
      split at h
      next pair _ =>
        obtain ⟨hans, hp⟩ := singleSwap_ok h
        exact ⟨⟨hans.tokenIn, hans.tokenOut, hans.tolerance⟩, Or.inl ⟨pair, hp⟩⟩
      next => exact absurd h (by simp)

/-- Every address of a route is found again. -/
theorem length_getPairsRoute {pairs : List PairModel} {path : List TokenID} :
    (getPairsRoute ((knownHops pairs path).map (·.pair.address)) pairs).length
      = (knownHops pairs path).length := by
  have hall : ∀ address ∈ (knownHops pairs path).map (·.pair.address),
      (pairs.find? fun pair => pair.address = address).isSome = true := by
    intro address ha
    obtain ⟨h, hh, rfl⟩ := List.mem_map.mp ha
    rw [List.find?_isSome]
    exact ⟨h.pair, mem_of_mem_knownHops hh, by simp⟩
  unfold getPairsRoute
  rw [List.filterMap_length_eq_length.mpr hall, List.length_map]

/-- A route over several pairs starts and ends with the tokens of the
request and has one amount more than it has pairs. -/
structure Routed (m : AutoRouteModel) (tin tout : TokenID) : Prop where
  head : m.tokenRoute.head? = some tin
  last : m.tokenRoute.getLast? = some tout
  amounts : m.intermediaryAmounts.length = m.pairs.length + 1

/-- A quote is over one pair, or its pairs make up a route. -/
theorem routed_of_swap {env : Env} {args : AutoRouterArgs} {m : AutoRouteModel}
    (h : swap env args = .ok m) : m.pairs.length = 1 ∨
      Routed m (toWrappedIfEGLD env args.tokenInID) (toWrappedIfEGLD env args.tokenOutID) := by
  rcases (swap_ok h).2 with ⟨pair, hp⟩ | ⟨swapType, amount, r, hr, hf⟩
  · exact Or.inl (by rw [hp]; rfl)
  · obtain ⟨hbest, hroute⟩ := IsBestPath.ok hr
    obtain ⟨pairs, hpath⟩ := isTokenPath_of_mem_getAllPaths hbest.mem
    refine Or.inr ⟨?_, ?_, ?_⟩
    · rw [hf.tokenRoute, hpath.head]
    · rw [hf.tokenRoute, hpath.last]
    · rw [hf.intermediaryAmounts, hf.pairs, hroute]
      simp only [routeAlong]
      rw [length_amountsAlong, length_getPairsRoute]

/-! ## Agreement -/

/-- With a fixed input the two rejection tests are the same. -/
theorem rejects_iff_fixedInput {h : Hop} (hfee : IsFee h.pair.totalFeePercent) {q : ℚ}
    (hq : 0 < q) :
    better .fixedInput (composed .fixedInput [h] (.fin q)) (initialBest .fixedInput) = true ↔
      h.result .fixedInput (.fin q) ≠ .fin 0 := by
  obtain ⟨y, hy, hy0⟩ := Hop.amountOut_fin hfee hq.le (Or.inr hq)
  show better .fixedInput (h.amountOut (.fin q)) _ = true ↔ h.amountOut (.fin q) ≠ _
  rw [hy]
  have hdec : better .fixedInput (.fin y) (initialBest .fixedInput) = decide (0 < y) := rfl
  rw [hdec, decide_eq_true_iff, Ne, BigNumber.fin.injEq]
  exact hy0.lt_iff_ne.trans ne_comm

/-- With a fixed output they differ on the whole reserve only, and where
both accept the computed amounts are the same. -/
theorem rejects_fixedOutput {h : Hop} (hfee : IsFee h.pair.totalFeePercent) {q : ℚ}
    (hq : 0 < q) :
    (q < h.reserveOut ∧ h.result .fixedOutput (.fin q) ≠ .fin 0 ∧
      composed .fixedOutput [h] (.fin q) = h.result .fixedOutput (.fin q) ∧
      better .fixedOutput (composed .fixedOutput [h] (.fin q)) (initialBest .fixedOutput)
        = true) ∨
    (h.reserveOut < q ∧ h.result .fixedOutput (.fin q) = .fin 0 ∧
      better .fixedOutput (composed .fixedOutput [h] (.fin q)) (initialBest .fixedOutput)
        = false) ∨
    (q = h.reserveOut ∧ h.result .fixedOutput (.fin q) ≠ .fin 0 ∧
      better .fixedOutput (composed .fixedOutput [h] (.fin q)) (initialBest .fixedOutput)
        = false) := by
  have hcomp : composed .fixedOutput [h] (.fin q) = h.requiredFrom (.fin q) := rfl
  have hres : h.result .fixedOutput (.fin q) = h.amountIn (.fin q) := rfl
  rw [hcomp, hres]
  rcases lt_trichotomy q h.reserveOut with hlt | heq | hgt
  · -- a feasible request: a positive number of units either way
    obtain ⟨n, hin, hreq, hn⟩ := Hop.requiredFrom_of_lt hfee hq.le hlt
    refine Or.inl ⟨hlt, ?_, by rw [hin, hreq], ?_⟩
    · rw [hin, BigNumber.ofNat, Ne, BigNumber.fin.injEq]
      exact_mod_cast hn.ne'
    · rw [hreq]
      rfl
  · -- the whole reserve: the formula divides by zero
    have hpos : 0 < h.reserveOut := by
      rw [heq] at hq
      exact_mod_cast hq
    have hdiv : h.amountIn (.fin q) = if h.reserveIn = 0 then .nan else .infinity := by
      rw [heq]
      exact (h.amountIn_eq _).trans (getAmountIn_of_eq_reserve _ _ hpos)
    refine Or.inr (Or.inr ⟨heq, ?_, ?_⟩)
    · rw [hdiv]
      split <;> simp
    · unfold Hop.requiredFrom
      rw [hdiv]
      by_cases hr : h.reserveIn = 0
      · simp [hr, better, initialBest, BigNumber.isEqualTo, BigNumber.isGreaterThan,
          BigNumber.isLessThan]
      · simp [hr, better, initialBest, BigNumber.isGreaterThan]
  · -- more than the reserve: the sentinel, before any division
    have hzero : h.amountIn (.fin q) = .fin 0 :=
      (h.amountIn_eq _).trans (getAmountIn_of_reserve_lt hgt)
    refine Or.inr (Or.inl ⟨hgt, hzero, ?_⟩)
    simp [Hop.requiredFrom, hzero, better, initialBest, BigNumber.isGreaterThan]

/-- Whatever is quoted for an accepted result, the two branches quote the
same unless the whole reserve is asked for. -/
theorem quotes_agree_iff {α : Type} {h : Hop} (hfee : IsFee h.pair.totalFeePercent) {q : ℚ}
    (hq : 0 < q) (swapType : SWAP_TYPE) (f : BigNumber → α) :
    ((if h.result swapType (.fin q) = .fin 0 then none
        else some (f (h.result swapType (.fin q))))
      = (if better swapType (composed swapType [h] (.fin q)) (initialBest swapType) = true
          then some (f (composed swapType [h] (.fin q))) else none)) ↔
      ¬ (swapType = .fixedOutput ∧ q = h.reserveOut) := by
  cases swapType with
  | fixedInput =>
    refine iff_of_true ?_ (fun h => absurd h.1 (by simp))
    have hiff := rejects_iff_fixedInput hfee hq
    by_cases hzero : h.result .fixedInput (.fin q) = .fin 0
    · rw [if_pos hzero, if_neg (fun hb => hiff.mp hb hzero)]
    · rw [if_neg hzero, if_pos (hiff.mpr hzero)]
      rfl
  | fixedOutput =>
    rcases rejects_fixedOutput hfee hq with
      ⟨hlt, hzero, hcomp, hb⟩ | ⟨hgt, hzero, hb⟩ | ⟨heq, hzero, hb⟩
    · refine iff_of_true ?_ (fun h => hlt.ne h.2)
      rw [if_neg hzero, if_pos hb, hcomp]
    · refine iff_of_true ?_ (fun h => hgt.ne' h.2)
      rw [if_pos hzero, if_neg (by rw [hb]; simp)]
    · -- the direct branch quotes an input that is not a number
      refine iff_of_false ?_ (fun h => h ⟨rfl, heq⟩)
      rw [if_neg hzero, if_neg (by rw [hb]; simp)]
      simp

/-- The same environment with multi-hop swaps enabled or disabled. -/
def Env.withMultiSwap (env : Env) (status : Bool) : Env := { env with multiSwapStatus := status }

/-- The two tokens of a request as the pairs know them, traded by `pair`
directly and known to be connected by nothing else. -/
structure DirectOnly (env : Env) (args : AutoRouterArgs) (tin tout : TokenID)
    (pair : PairModel) : Prop where
  tokenIn : toWrappedIfEGLD env args.tokenInID = tin
  tokenOut : toWrappedIfEGLD env args.tokenOutID = tout
  different : tin ≠ tout
  direct : (getAllActivePairs env).find? (trades tin tout) = some pair
  paths : getAllPaths env tin tout = [[tin, tout]]

/-- On one hop and one given amount the branches agree unless the amount is
the whole output reserve. -/
theorem agree_iff_of_gives {env : Env} {args : AutoRouterArgs} {tin tout : TokenID}
    {pair : PairModel} {swapType : SWAP_TYPE} {q : ℚ}
    (hd : DirectOnly env args tin tout pair) (hfee : IsFee pair.totalFeePercent)
    (hg : Gives (withDefault env args) swapType (.fin q)) (hq : 0 < q) :
    Agree (swap (env.withMultiSwap false) args) (swap (env.withMultiSwap true) args) ↔
      ¬ (swapType = .fixedOutput ∧ q = (Hop.mk tin tout pair).reserveOut) := by
  obtain ⟨htin, htout, hne, hfind, hpath⟩ := hd
  have htr := List.find?_some hfind
  obtain ⟨address, -, rfl⟩ := List.mem_map.mp (List.mem_of_find?_eq_some hfind)
  have hwin : toWrappedIfEGLD env tin = tin := by rw [← htin, toWrappedIfEGLD_idem]
  have hwout : toWrappedIfEGLD env tout = tout := by rw [← htout, toWrappedIfEGLD_idem]
  -- nothing but the choice of the branch reads the status
  have hsingle : swap (env.withMultiSwap false) args
      = singleSwap (env.withMultiSwap false) (withDefault env args) tin tout
          (getPair (env.withMultiSwap false) address) (getTokenMetadata env tin)
          (getTokenMetadata env tout) swapType := by
    rw [swap_of_gives (env.withMultiSwap false) hg]
    show (match (getAllActivePairs env).find? (trades (toWrappedIfEGLD env args.tokenInID)
      (toWrappedIfEGLD env args.tokenOutID)) with | some _ => _ | none => _) = _
    rw [htin, htout, hfind]
    subst htin htout
    rfl
  have hmulti : swap (env.withMultiSwap true) args
      = multiSwap (env.withMultiSwap true) (withDefault env args) tin tout
          (getAllActivePairs env) (getTokenMetadata env tin) (getTokenMetadata env tout)
          swapType := by
    subst htin htout
    exact swap_of_gives (env.withMultiSwap true) hg
  have hs := singleSwap_eq (env.withMultiSwap false) htr hne hwin hwout hg
  have hm := multiSwap_eq (env.withMultiSwap true) hfind hpath hg
  unfold Agree
  rw [hsingle, hmulti]
  refine (iff_of_eq (congrArg₂ (· = ·) hs hm)).trans ?_
  exact quotes_agree_iff (h := ⟨tin, tout, getPair env address⟩) hfee hq swapType _

/-- Direct path and routed path: when two tokens are connected by one pair
only, `swap` answers alike with multi-hop swaps disabled and enabled, except
to requests of the whole output reserve. -/
theorem swap_agrees_iff {env : Env} {args : AutoRouterArgs} {tin tout : TokenID}
    {pair : PairModel} (hd : DirectOnly env args tin tout pair)
    (hfee : IsFee pair.totalFeePercent)
    (hin : ∀ a, args.amountIn = some a → ∃ q : ℚ, a = .fin q ∧ 0 < q)
    (hout : ∀ a, args.amountOut = some a → ∃ q : ℚ, a = .fin q ∧ 0 < q) :
    Agree (swap (env.withMultiSwap false) args) (swap (env.withMultiSwap true) args) ↔
      ¬ (args.amountIn = none ∧
        args.amountOut = some (.ofNat (Hop.mk tin tout pair).reserveOut)) := by
  rcases request_cases env args with hboth | ⟨swapType, amount, hg, hcase⟩
  · rw [swap_of_both hboth, swap_of_both hboth]
    refine iff_of_true rfl (fun h => ?_)
    rw [h.1] at hboth
    exact absurd hboth.1 (by simp)
  · rcases hcase with ⟨rfl, hsrc⟩ | ⟨rfl, hnone, hsome⟩
    · -- a fixed input, from the request or by default
      have hpos : ∃ q : ℚ, amount = .fin q ∧ 0 < q := by
        rcases hsrc with hsome | ⟨-, rfl⟩
        · exact hin amount hsome
        · refine ⟨_, rfl, ?_⟩
          have hten : ((10 : ℚ) ^ env.tokenDecimals (toWrappedIfEGLD env args.tokenInID))
              = ((10 ^ env.tokenDecimals (toWrappedIfEGLD env args.tokenInID) : ℕ) : ℚ) := by
            push_cast
            rfl
          rw [hten, truncate_natCast]
          positivity
      obtain ⟨q, rfl, hq⟩ := hpos
      rw [agree_iff_of_gives hd hfee hg hq]
      refine iff_of_true (fun h => absurd h.1 (by simp)) (fun h => ?_)
      have := hg.2
      simp [withDefault, h.2] at this
    · obtain ⟨q, rfl, hq⟩ := hout amount hsome
      rw [agree_iff_of_gives hd hfee hg hq, hnone, hsome]
      simp [BigNumber.ofNat]

/-- One pair with 1000 units on both sides. -/
def onePairEnv : Env where
  wrappedEgldTokenID := "WEGLD-1"
  tokenDecimals := fun _ => 18
  tokenPriceUSD := fun _ => .fin 1
  multiSwapStatus := true
  MAX_SWAP_SPREAD := .ofRat (5 / 100)
  pairsAddress := ["erd1ab"]
  state := fun _ => "Active"
  firstTokenID := fun _ => "TOKA-1"
  secondTokenID := fun _ => "TOKB-1"
  pairInfoMetadata := fun _ => ⟨1000, 1000, 1000⟩
  totalFeePercent := fun _ => .ofRat (3 / 1000)
  hasLockedTokensInfo := fun _ => false
  trustedSwapPairs := fun _ => []
  cachedPathsPairs := fun _ _ => none
  graphPairs := [samplePair "erd1ab" "TOKA-1" "TOKB-1" 1000]

/-- A request of so many units of the second token. -/
def requestOut (amountOut : ℕ) : AutoRouterArgs where
  tokenInID := "TOKA-1"
  tokenOutID := "TOKB-1"
  amountIn := none
  amountOut := some (.ofNat amountOut)
  tolerance := .ofRat (1 / 100)

/-- The whole reserve: an infinite input on the direct path, a rejection on
the routed one. -/
theorem swap_wholeReserve :
    (swap (onePairEnv.withMultiSwap false) (requestOut 1000)).toOption.map (·.amountIn)
      = some .infinity ∧
    swap (onePairEnv.withMultiSwap true) (requestOut 1000) = .error "No route found" ∧
    ¬ Agree (swap (onePairEnv.withMultiSwap false) (requestOut 1000))
      (swap (onePairEnv.withMultiSwap true) (requestOut 1000)) := by
  refine ⟨by decide +kernel, by decide +kernel, ?_⟩
  unfold Agree
  decide +kernel

theorem onePairEnv_directOnly (amountOut : ℕ) :
    DirectOnly onePairEnv (requestOut amountOut) "TOKA-1" "TOKB-1"
      (getPair onePairEnv "erd1ab") where
  tokenIn := if_neg (by simp [requestOut, EGLDIdentifier])
  tokenOut := if_neg (by simp [requestOut, EGLDIdentifier])
  different := by decide
  direct := by decide +kernel
  paths := by decide +kernel

/-- Half of it: the same quote on both. -/
theorem swap_agrees_halfReserve :
    Agree (swap (onePairEnv.withMultiSwap false) (requestOut 500))
      (swap (onePairEnv.withMultiSwap true) (requestOut 500)) := by
  refine (swap_agrees_iff (onePairEnv_directOnly 500) ⟨by decide +kernel, by decide +kernel⟩
    (fun a ha => ?_) (fun a ha => ?_)).mpr ?_
  · exact absurd ha (by simp [requestOut])
  · exact ⟨500, (Option.some.inj ha).symm, by norm_num⟩
  · intro h
    exact absurd h.2 (by decide +kernel)

end MxExchange.AutoRouter
