import MxExchange.Pair.PairUtils
import MxExchange.Collections.SimplePaths
import MxExchange.Collections.FirstBest

/-!
# `auto-router.compute.service.ts`: the best swap route

Three loops look the hops of a path up in the pair list: one computes the
amounts forwards, one backwards, one collects the pair addresses. Each of
them skips a hop no pair trades. What is left of a path is `knownHops`, and
over it the loops are a left scan, a right scan and a map
(`amountsAlong_eq`, `getAddressRoute_eq`).

A path that kept all its hops is `Realizable`. The best path is the first
best element of the composed results (`computeBestSwapRoute_ok_iff`), so a
returned route can be executed exactly when that path is realizable
(`executableOrThrows_iff`). Which path is the best depends on the reserves; a
path that has lost a hop needs only to be the best at some of them, and alone
it is (`one_le_composed`). So what is returned can be executed, whatever the
reserves are and whichever of the paths compete, exactly if every path is
realizable (`computeBestSwapRoute_executable_iff`). In that case the route is
the optimum (`computeBestSwapRoute_optimal`): an unreachable hop turns the
whole backward chain into `Infinity`, which never beats the initial
`Infinity` (`composed_fixedOutput_cases`).
-/

namespace MxExchange.AutoRouter

open MxExchange.Num MxExchange.Pair MxExchange.Collections

/-- Which end of the route is given. -/
inductive SWAP_TYPE where
  | fixedInput
  | fixedOutput
  deriving DecidableEq

/-- What the computation answers: the path by tokens and by pairs, and the
amounts along it. -/
structure BestSwapRoute where
  tokenRoute : List TokenID
  intermediaryAmounts : List BigNumber
  addressRoute : List Address
  bestResult : BigNumber
  deriving DecidableEq

/-- The first pair of the list that trades the two tokens, in either direction.
-/
def getPairByTokens (pairs : List PairModel) (tokenIn tokenOut : TokenID) : Option PairModel :=
  pairs.find? (trades tokenIn tokenOut)

/-- The reserve of the token that goes in, and the other one. -/
def getOrderedReserves (tokenInID : TokenID) (pair : PairModel) : BigNumber × BigNumber :=
  if tokenInID = pair.firstToken.identifier then
    (.ofNat pair.info.reserves0, .ofNat pair.info.reserves1)
  else (.ofNat pair.info.reserves1, .ofNat pair.info.reserves0)

/-! ## The loops -/

/-- One round of the forward loop: `push` the next amount. -/
def pushAmountOut (pairs : List PairModel) (pathAmounts : List BigNumber)
    (hop : TokenID × TokenID) : List BigNumber :=
  match getPairByTokens pairs hop.1 hop.2 with
  -- `continue`: the hop is left out, the path is not
  | none => pathAmounts
  | some pair =>
    let (tokenInReserves, tokenOutReserves) := getOrderedReserves hop.1 pair
    pathAmounts ++ [getAmountOut (pathAmounts.getLast?.getD .nan) tokenInReserves
      tokenOutReserves pair.totalFeePercent]

/-- For each path the amounts along it, starting with what goes in. -/
def computeIntermediaryAmountsFixedInput (paths : List (List TokenID)) (pairs : List PairModel)
    (initialAmountIn : BigNumber) : List (List BigNumber) :=
  paths.map fun path => (hops path).foldl (pushAmountOut pairs) [initialAmountIn]

/-- One round of the backward loop: `unshift` the amount before. -/
def unshiftAmountIn (pairs : List PairModel) (hop : TokenID × TokenID)
    (pathAmounts : List BigNumber) : List BigNumber :=
  match getPairByTokens pairs hop.1 hop.2 with
  | none => pathAmounts
  | some pair =>
    let (tokenInReserves, tokenOutReserves) := getOrderedReserves hop.1 pair
    -- the string `Infinity` is compared before it could reach the formula
    let amountIn :=
      if pathAmounts.head?.getD .nan = .infinity then .fin 0
      else getAmountIn (pathAmounts.head?.getD .nan) tokenInReserves tokenOutReserves
        pair.totalFeePercent
    (if amountIn.isEqualTo (.fin 0) then .infinity else amountIn) :: pathAmounts

/-- The index runs down from the end of the path, hence a right fold. -/
def computeIntermediaryAmountsFixedOutput (paths : List (List TokenID)) (pairs : List PairModel)
    (fixedAmountOut : BigNumber) : List (List BigNumber) :=
  paths.map fun path => (hops path).foldr (unshiftAmountIn pairs) [fixedAmountOut]

/-- The sentinel `getBestAmountAndIndex` starts from. -/
def initialBest : SWAP_TYPE → BigNumber
  | .fixedInput => .fin 0
  | .fixedOutput => .infinity

/-- Its test for replacing the best amount. -/
def better : SWAP_TYPE → BigNumber → BigNumber → Bool
  | .fixedInput, compareAmount, bestAmount => bestAmount.isLessThan compareAmount
  | .fixedOutput, compareAmount, bestAmount => bestAmount.isGreaterThan compareAmount

/-- The end of the amounts it compares. -/
def compareAmount : SWAP_TYPE → List BigNumber → BigNumber
  | .fixedInput, amount => amount.getLast?.getD .nan
  | .fixedOutput, amount => amount.head?.getD .nan

/-- The index is `none` for `-1`. -/
def getBestAmountAndIndex (amounts : List (List BigNumber)) (swapType : SWAP_TYPE) :
    BigNumber × Option ℕ :=
  scanBest (better swapType) 0 (initialBest swapType, none) (amounts.map (compareAmount swapType))

/-- The pairs of a path; hops that no pair trades are left out. -/
def getAddressRoute (pairs : List PairModel) (tokensRoute : List TokenID) : List Address :=
  (hops tokensRoute).filterMap fun hop =>
    (getPairByTokens pairs hop.1 hop.2).map (·.address)

/-- The first path that is strictly better than all before it. -/
def computeBestSwapRoute (paths : List (List TokenID)) (pairs : List PairModel)
    (amount : BigNumber) (swapType : SWAP_TYPE) : Except String BestSwapRoute :=
  let amounts :=
    match swapType with
    | .fixedInput => computeIntermediaryAmountsFixedInput paths pairs amount
    | .fixedOutput => computeIntermediaryAmountsFixedOutput paths pairs amount
  match getBestAmountAndIndex amounts swapType with
  | (_, none) => .error "No route found"
  | (bestAmount, some pathIndex) =>
    .ok {
      tokenRoute := paths[pathIndex]?.getD []
      intermediaryAmounts := amounts[pathIndex]?.getD []
      addressRoute := getAddressRoute pairs (paths[pathIndex]?.getD [])
      bestResult := bestAmount }

/-! ## What is left of a path -/

/-- A hop together with the pair found for it. -/
structure Hop where
  tokenInID : TokenID
  tokenOutID : TokenID
  pair : PairModel

/-- What a hop gives for an amount. -/
def Hop.amountOut (h : Hop) (amountIn : BigNumber) : BigNumber :=
  getAmountOut amountIn (getOrderedReserves h.tokenInID h.pair).1
    (getOrderedReserves h.tokenInID h.pair).2 h.pair.totalFeePercent

/-- What a hop asks for an amount. -/
def Hop.amountIn (h : Hop) (amountOut : BigNumber) : BigNumber :=
  getAmountIn amountOut (getOrderedReserves h.tokenInID h.pair).1
    (getOrderedReserves h.tokenInID h.pair).2 h.pair.totalFeePercent

/-- `amountIn` as the backward loop records it: an impossible hop is
`Infinity`, and so is everything before it. -/
def Hop.requiredFrom (h : Hop) (amountOut : BigNumber) : BigNumber :=
  if amountOut = .infinity ∨ (h.amountIn amountOut).isEqualTo (.fin 0) then .infinity
  else h.amountIn amountOut

/-- The hop of two neighbouring tokens, if some pair trades them. -/
def findHop (pairs : List PairModel) (hop : TokenID × TokenID) : Option Hop :=
  (getPairByTokens pairs hop.1 hop.2).map (Hop.mk hop.1 hop.2)

/-- The hops of a path that the loops do not skip. -/
def knownHops (pairs : List PairModel) (path : List TokenID) : List Hop :=
  (hops path).filterMap (findHop pairs)

/-- The amounts along the hops. -/
def amountsAlong : SWAP_TYPE → List Hop → BigNumber → List BigNumber
  | .fixedInput, hs, amount => hs.scanl (fun a h => h.amountOut a) amount
  | .fixedOutput, hs, amount => hs.scanr Hop.requiredFrom amount

/-- The amount at the far end. -/
def composed : SWAP_TYPE → List Hop → BigNumber → BigNumber
  | .fixedInput, hs, amount => hs.foldl (fun a h => h.amountOut a) amount
  | .fixedOutput, hs, amount => hs.foldr Hop.requiredFrom amount

/-- The route the code builds from one path. -/
def routeAlong (swapType : SWAP_TYPE) (pairs : List PairModel) (amount : BigNumber)
    (path : List TokenID) : BestSwapRoute where
  tokenRoute := path
  intermediaryAmounts := amountsAlong swapType (knownHops pairs path) amount
  addressRoute := (knownHops pairs path).map (·.pair.address)
  bestResult := composed swapType (knownHops pairs path) amount

/-- Paths are compared by the amount at the end that is not given. -/
theorem compareAmount_amountsAlong (swapType : SWAP_TYPE) (hs : List Hop) (amount : BigNumber) :
    compareAmount swapType (amountsAlong swapType hs amount) = composed swapType hs amount := by
  cases swapType with
  | fixedInput =>
    show (hs.scanl _ amount).getLast?.getD _ = _
    rw [List.getLast?_scanl]
    rfl
  | fixedOutput =>
    show (hs.scanr _ amount).head?.getD _ = _
    rw [List.head?_scanr]
    rfl

/-- One amount more than there are hops. -/
theorem length_amountsAlong (swapType : SWAP_TYPE) (hs : List Hop) (amount : BigNumber) :
    (amountsAlong swapType hs amount).length = hs.length + 1 := by
  cases swapType with
  | fixedInput => exact List.length_scanl
  | fixedOutput => exact List.length_scanr

/-- A hop is there if a pair is. -/
theorem findHop_of_none {pairs : List PairModel} {e : TokenID × TokenID}
    (h : getPairByTokens pairs e.1 e.2 = none) : findHop pairs e = none := by
  rw [findHop, h]
  rfl

theorem findHop_of_some {pairs : List PairModel} {e : TokenID × TokenID} {pair : PairModel}
    (h : getPairByTokens pairs e.1 e.2 = some pair) :
    findHop pairs e = some ⟨e.1, e.2, pair⟩ := by
  rw [findHop, h]
  rfl

/-- A round of the loop forward: a hop without a pair adds no amount. -/
theorem pushAmountOut_of_none {pairs : List PairModel} {e : TokenID × TokenID}
    (h : getPairByTokens pairs e.1 e.2 = none) (as : List BigNumber) :
    pushAmountOut pairs as e = as := by
  unfold pushAmountOut
  rw [h]

/-- A hop with a pair adds what it gives for the last amount. -/
theorem pushAmountOut_of_some {pairs : List PairModel} {e : TokenID × TokenID}
    {pair : PairModel} (h : getPairByTokens pairs e.1 e.2 = some pair) (as : List BigNumber) :
    pushAmountOut pairs as e
      = as ++ [(Hop.mk e.1 e.2 pair).amountOut (as.getLast?.getD .nan)] := by
  unfold pushAmountOut
  rw [h]
  rfl

/-- A round of the loop backward. -/
theorem unshiftAmountIn_of_none {pairs : List PairModel} {e : TokenID × TokenID}
    (h : getPairByTokens pairs e.1 e.2 = none) (as : List BigNumber) :
    unshiftAmountIn pairs e as = as := by
  unfold unshiftAmountIn
  rw [h]

/-- A hop with a pair puts in front what it asks for the first amount. -/
theorem unshiftAmountIn_of_some {pairs : List PairModel} {e : TokenID × TokenID}
    {pair : PairModel} (h : getPairByTokens pairs e.1 e.2 = some pair) (as : List BigNumber) :
    unshiftAmountIn pairs e as
      = (Hop.mk e.1 e.2 pair).requiredFrom (as.head?.getD .nan) :: as := by
  unfold unshiftAmountIn
  rw [h]
  dsimp only
  generalize as.head?.getD .nan = a
  unfold Hop.requiredFrom Hop.amountIn
  -- after an impossible hop the next one counts as impossible too
  by_cases ha : a = .infinity
  · simp [ha]
  · simp [ha]

/-- The forward loop skips unknown hops. Of the amounts pushed so far only
the last one matters. -/
theorem foldl_pushAmountOut (pairs : List PairModel) (l : List (TokenID × TokenID)) :
    ∀ (pre : List BigNumber) (a : BigNumber),
      l.foldl (pushAmountOut pairs) (pre ++ [a])
        = pre ++ (l.filterMap (findHop pairs)).scanl (fun a h => h.amountOut a) a := by
  induction l with
  | nil => intro pre a; simp
  | cons e l ih =>
    intro pre a
    rw [List.foldl_cons, List.filterMap_cons]
    cases hp : getPairByTokens pairs e.1 e.2 with
    | none => rw [pushAmountOut_of_none hp, findHop_of_none hp, ih]
    | some pair =>
      rw [pushAmountOut_of_some hp, findHop_of_some hp, ih]
      simp [List.scanl_cons]

/-- The backward loop skips the same hops. -/
theorem foldr_unshiftAmountIn (pairs : List PairModel) (amount : BigNumber)
    (l : List (TokenID × TokenID)) :
    l.foldr (unshiftAmountIn pairs) [amount]
      = (l.filterMap (findHop pairs)).scanr Hop.requiredFrom amount := by
  induction l with
  | nil => simp
  | cons e l ih =>
    rw [List.foldr_cons, List.filterMap_cons, ih]
    cases hp : getPairByTokens pairs e.1 e.2 with
    | none => rw [unshiftAmountIn_of_none hp, findHop_of_none hp]
    | some pair =>
      rw [unshiftAmountIn_of_some hp, findHop_of_some hp, List.head?_scanr, List.scanr_cons]
      rfl

/-- The addresses of the pairs of the known hops. -/
theorem getAddressRoute_eq (pairs : List PairModel) (path : List TokenID) :
    getAddressRoute pairs path = (knownHops pairs path).map (·.pair.address) := by
  unfold getAddressRoute knownHops findHop
  rw [List.map_filterMap]
  simp only [Option.map_map]
  rfl

/-- What both loops compute is `amountsAlong` over the known hops. -/
theorem amounts_eq (paths : List (List TokenID)) (pairs : List PairModel) (amount : BigNumber)
    (swapType : SWAP_TYPE) :
    (match swapType with
      | .fixedInput => computeIntermediaryAmountsFixedInput paths pairs amount
      | .fixedOutput => computeIntermediaryAmountsFixedOutput paths pairs amount)
      = paths.map fun path => amountsAlong swapType (knownHops pairs path) amount := by
  cases swapType with
  | fixedInput =>
    refine List.map_congr_left fun path _ => ?_
    exact foldl_pushAmountOut pairs (hops path) [] amount
  | fixedOutput =>
    refine List.map_congr_left fun path _ => ?_
    exact foldr_unshiftAmountIn pairs amount (hops path)

/-! ## The best path -/

/-- Being better is a strict order, above where the search starts. -/
theorem better_comparison (swapType : SWAP_TYPE) :
    Comparison (better swapType) (initialBest swapType) := by
  cases swapType with
  | fixedInput =>
    refine ⟨?_, ?_, ?_⟩
    · intro x y z hxy hyz
      exact BigNumber.isLessThan_trans hyz hxy
    · exact BigNumber.isLessThan_irrefl
    · intro x y z hxz hy
      exact (BigNumber.isLessThan_or_of_lt hxz (BigNumber.ne_nan_of_isLessThan_right hy)).symm
  | fixedOutput =>
    refine ⟨?_, ?_, ?_⟩
    · intro x y z hxy hyz
      exact BigNumber.isLessThan_trans hxy hyz
    · exact BigNumber.isLessThan_irrefl
    · intro x y z hxz hy
      exact BigNumber.isLessThan_or_of_lt hxz (BigNumber.ne_nan_of_isLessThan_left hy)

/-- The composed result of each path. -/
def results (swapType : SWAP_TYPE) (paths : List (List TokenID)) (pairs : List PairModel)
    (amount : BigNumber) : List BigNumber :=
  paths.map fun path => composed swapType (knownHops pairs path) amount

/-- The path the comparison settles on. -/
def IsBestPath (swapType : SWAP_TYPE) (paths : List (List TokenID)) (pairs : List PairModel)
    (amount : BigNumber) (path : List TokenID) : Prop :=
  ∃ i, paths[i]? = some path ∧
    IsFirstBest (better swapType) (initialBest swapType) (results swapType paths pairs amount) i
      (composed swapType (knownHops pairs path) amount)

/-- The loop over the amounts is a scan for the first best. -/
theorem getBestAmountAndIndex_amounts (swapType : SWAP_TYPE) (paths : List (List TokenID))
    (pairs : List PairModel) (amount : BigNumber) :
    getBestAmountAndIndex
        (paths.map fun path => amountsAlong swapType (knownHops pairs path) amount) swapType
      = scanBest (better swapType) 0 (initialBest swapType, none)
          (results swapType paths pairs amount) := by
  unfold getBestAmountAndIndex results
  rw [List.map_map]
  congr 1
  refine List.map_congr_left fun path _ => ?_
  exact compareAmount_amountsAlong swapType (knownHops pairs path) amount

/-- What is returned is the route along the best path. -/
theorem computeBestSwapRoute_ok_iff {paths : List (List TokenID)} {pairs : List PairModel}
    {amount : BigNumber} {swapType : SWAP_TYPE} {r : BestSwapRoute} :
    computeBestSwapRoute paths pairs amount swapType = .ok r ↔
      ∃ path, IsBestPath swapType paths pairs amount path ∧
        r = routeAlong swapType pairs amount path := by
  have hc := better_comparison swapType
  unfold computeBestSwapRoute
  simp only [amounts_eq, getBestAmountAndIndex_amounts]
  cases hs : scanBest (better swapType) 0 (initialBest swapType, none)
      (results swapType paths pairs amount) with
  | mk best index =>
    cases index with
    | none =>
      constructor
      · intro h
        exact absurd h (by simp)
      · intro h
        obtain ⟨path, ⟨i, hi, hbest⟩, -⟩ := h
        have := (scanBest_eq_some_iff hc).mpr hbest
        rw [hs] at this
        exact absurd (Prod.mk.inj this).2 (by simp)
    | some i =>
      have hfirst := (scanBest_eq_some_iff hc).mp hs
      -- the best result belongs to a path
      obtain ⟨path, hpath, hres⟩ : ∃ path, paths[i]? = some path ∧
          composed swapType (knownHops pairs path) amount = best := by
        have hget := hfirst.get
        unfold results at hget
        rw [List.getElem?_map] at hget
        obtain ⟨path, hpath, hres⟩ := Option.map_eq_some_iff.mp hget
        exact ⟨path, hpath, hres⟩
      subst hres
      have hroute : (BestSwapRoute.mk (paths[i]?.getD [])
          ((paths.map fun path => amountsAlong swapType (knownHops pairs path) amount)[i]?.getD [])
          (getAddressRoute pairs (paths[i]?.getD []))
          (composed swapType (knownHops pairs path) amount))
            = routeAlong swapType pairs amount path := by
        rw [List.getElem?_map, hpath, getAddressRoute_eq]
        rfl
      constructor
      · intro h
        refine ⟨path, ⟨i, hpath, hfirst⟩, ?_⟩
        rw [← hroute]
        exact (Except.ok.inj h).symm
      · intro h
        obtain ⟨path', ⟨j, hj, hbest⟩, rfl⟩ := h
        obtain ⟨rfl, -⟩ := hfirst.unique hbest
        rw [hpath] at hj
        rw [← Option.some.inj hj, ← hroute]

/-- There is no route if no path is better than where the search starts. -/
theorem computeBestSwapRoute_error_iff {paths : List (List TokenID)} {pairs : List PairModel}
    {amount : BigNumber} {swapType : SWAP_TYPE} {e : String} :
    computeBestSwapRoute paths pairs amount swapType = .error e ↔
      e = "No route found" ∧ ∀ path ∈ paths,
        better swapType (composed swapType (knownHops pairs path) amount) (initialBest swapType)
          = false := by
  have hnone := scanBest_eq_none_iff (better_comparison swapType)
    (l := results swapType paths pairs amount)
  unfold computeBestSwapRoute
  simp only [amounts_eq, getBestAmountAndIndex_amounts]
  have hall : (∀ y ∈ results swapType paths pairs amount,
      better swapType y (initialBest swapType) = false) ↔ ∀ path ∈ paths,
        better swapType (composed swapType (knownHops pairs path) amount) (initialBest swapType)
          = false := by
    unfold results
    exact List.forall_mem_map
  rw [← hall, ← hnone]
  cases hs : scanBest (better swapType) 0 (initialBest swapType, none)
      (results swapType paths pairs amount) with
  | mk best index =>
    cases index with
    | none => simp [eq_comm]
    | some i => simp

/-! ## Executable routes -/

/-- Every hop of the path is traded, and there is one. -/
structure Realizable (pairs : List PairModel) (path : List TokenID) : Prop where
  length : 2 ≤ path.length
  traded : ∀ e ∈ hops path, ∃ pair ∈ pairs, trades e.1 e.2 pair

/-- How neighbouring amounts are related by the pair between them. -/
def AmountsAgree : SWAP_TYPE → Hop → BigNumber → BigNumber → Prop
  | .fixedInput, h, a, b => b = h.amountOut a
  | .fixedOutput, h, a, b => a = h.amountIn b

/-- Position `i` of a route is a swap on the pair at `addressRoute[i]`. -/
def SwapAt (swapType : SWAP_TYPE) (pairs : List PairModel) (r : BestSwapRoute) (i : ℕ) : Prop :=
  ∃ pair ∈ pairs, ∃ u v a b,
    r.addressRoute[i]? = some pair.address ∧
    r.tokenRoute[i]? = some u ∧ r.tokenRoute[i + 1]? = some v ∧
    r.intermediaryAmounts[i]? = some a ∧ r.intermediaryAmounts[i + 1]? = some b ∧
    trades u v pair = true ∧ AmountsAgree swapType ⟨u, v, pair⟩ a b

/-- The route can be executed as it stands. -/
structure Executable (swapType : SWAP_TYPE) (pairs : List PairModel) (r : BestSwapRoute) :
    Prop where
  nonempty : r.addressRoute ≠ []
  addresses : r.addressRoute.length = r.tokenRoute.length - 1
  amounts : r.intermediaryAmounts.length = r.tokenRoute.length
  swaps : ∀ i < r.addressRoute.length, SwapAt swapType pairs r i

/-- A hop is known if some pair trades it. -/
theorem isSome_findHop_iff {pairs : List PairModel} {e : TokenID × TokenID} :
    (findHop pairs e).isSome ↔ ∃ pair ∈ pairs, trades e.1 e.2 pair := by
  unfold findHop getPairByTokens
  rw [Option.isSome_map, List.find?_isSome]

/-- The pair of a known hop is one of the list, and trades it. -/
theorem mem_of_findHop {pairs : List PairModel} {e : TokenID × TokenID} {h : Hop}
    (hf : findHop pairs e = some h) :
    h.pair ∈ pairs ∧ trades e.1 e.2 h.pair = true ∧ e = (h.tokenInID, h.tokenOutID) := by
  obtain ⟨pair, hp, rfl⟩ := Option.map_eq_some_iff.mp hf
  exact ⟨List.mem_of_find?_eq_some hp, List.find?_some hp, rfl⟩

theorem mem_of_mem_knownHops {pairs : List PairModel} {path : List TokenID} {h : Hop}
    (hh : h ∈ knownHops pairs path) : h.pair ∈ pairs := by
  obtain ⟨e, -, he⟩ := List.mem_filterMap.mp hh
  exact (mem_of_findHop he).1

/-- No hop is skipped exactly when all are traded. -/
theorem length_knownHops_iff {pairs : List PairModel} {path : List TokenID} :
    (knownHops pairs path).length = (hops path).length ↔
      ∀ e ∈ hops path, ∃ pair ∈ pairs, trades e.1 e.2 pair := by
  unfold knownHops
  rw [List.filterMap_length_eq_length]
  refine forall₂_congr fun e _ => ?_
  exact isSome_findHop_iff

/-- Then the hops kept are at the positions of the path's own. -/
theorem getElem?_knownHops {pairs : List PairModel} {path : List TokenID}
    (hp : ∀ e ∈ hops path, ∃ pair ∈ pairs, trades e.1 e.2 pair) {i : ℕ} {h : Hop}
    (hi : (knownHops pairs path)[i]? = some h) :
    (hops path)[i]? = some (h.tokenInID, h.tokenOutID) ∧ h.pair ∈ pairs ∧
      trades h.tokenInID h.tokenOutID h.pair = true := by
  -- nothing is filtered out, so the filter is a map
  have hmap : (knownHops pairs path).map some = (hops path).map (findHop pairs) := by
    unfold knownHops
    rw [List.map_filterMap, ← List.filterMap_eq_map]
    refine List.filterMap_congr fun e he => ?_
    obtain ⟨h', hh⟩ := Option.isSome_iff_exists.mp (isSome_findHop_iff.mpr (hp e he))
    simp [hh]
  have hget := congrArg (·[i]?) hmap
  simp only [List.getElem?_map, hi, Option.map_some] at hget
  obtain ⟨e, he, hf⟩ := Option.map_eq_some_iff.mp hget.symm
  obtain ⟨hmem, htr, rfl⟩ := mem_of_findHop hf
  exact ⟨he, hmem, htr⟩

/-- A chain that does not end in `Infinity` never was `Infinity`, and each
amount is the plain `getAmountIn` of the next one. -/
theorem foldr_requiredFrom_ne_infinity {h : Hop} {a : BigNumber}
    (hne : h.requiredFrom a ≠ .infinity) :
    a ≠ .infinity ∧ h.requiredFrom a = h.amountIn a := by
  unfold Hop.requiredFrom at hne ⊢
  split at hne
  next hcase => exact absurd rfl hne
  next hcase =>
    rw [if_neg hcase]
    exact ⟨fun ha => hcase (Or.inl ha), rfl⟩

/-- Backward, each amount is what its hop asks for the next, unless all is lost.
-/
theorem amountsAgree_fixedOutput {hs : List Hop} {amount : BigNumber} :
    hs.foldr Hop.requiredFrom amount ≠ .infinity → ∀ (i : ℕ) (h : Hop), hs[i]? = some h →
      ∃ a b, (hs.scanr Hop.requiredFrom amount)[i]? = some a ∧
        (hs.scanr Hop.requiredFrom amount)[i + 1]? = some b ∧ a = h.amountIn b := by
  induction hs with
  | nil => intro _ i h hi; simp at hi
  | cons h' hs ih =>
    intro hne i h hi
    rw [List.foldr_cons] at hne
    -- the front is not `Infinity`, so neither is what it was computed from
    obtain ⟨hrest, heq⟩ := foldr_requiredFrom_ne_infinity hne
    cases i with
    | zero =>
      obtain rfl : h' = h := by simpa using hi
      refine ⟨_, hs.foldr Hop.requiredFrom amount, List.getElem?_scanr_zero, ?_, ?_⟩
      · rw [List.scanr_cons, List.getElem?_cons_succ, List.getElem?_scanr_zero]
      · rw [List.foldr_cons]
        exact heq
    | succ i =>
      obtain ⟨a, b, ha, hb, hab⟩ := ih hrest i h (by simpa using hi)
      refine ⟨a, b, ?_, ?_, hab⟩
      · rw [List.scanr_cons, List.getElem?_cons_succ, ha]
      · rw [List.scanr_cons, List.getElem?_cons_succ, hb]

/-- Forward, each amount is what its hop gives for the one before. -/
theorem amountsAgree_fixedInput {hs : List Hop} {amount : BigNumber} {i : ℕ} {h : Hop}
    (hi : hs[i]? = some h) :
    ∃ a b, (hs.scanl (fun a h => h.amountOut a) amount)[i]? = some a ∧
      (hs.scanl (fun a h => h.amountOut a) amount)[i + 1]? = some b ∧ b = h.amountOut a := by
  have hlt : i < hs.length := (List.getElem?_eq_some_iff.mp hi).1
  have hget : (hs.scanl (fun a h => h.amountOut a) amount)[i]?
      = some ((hs.take i).foldl (fun a h => h.amountOut a) amount) := by
    rw [List.getElem?_scanl, if_pos (by omega)]
  refine ⟨_, _, hget, ?_, rfl⟩
  rw [List.getElem?_succ_scanl, hget, hi]
  rfl

/-- Amounts that beat the initial sentinel agree hop by hop. -/
theorem amountsAgree {swapType : SWAP_TYPE} {hs : List Hop} {amount : BigNumber}
    (hbeats : better swapType (composed swapType hs amount) (initialBest swapType) = true)
    {i : ℕ} {h : Hop} (hi : hs[i]? = some h) :
    ∃ a b, (amountsAlong swapType hs amount)[i]? = some a ∧
      (amountsAlong swapType hs amount)[i + 1]? = some b ∧ AmountsAgree swapType h a b := by
  cases swapType with
  | fixedInput => exact amountsAgree_fixedInput hi
  | fixedOutput =>
    refine amountsAgree_fixedOutput ?_ i h hi
    exact (BigNumber.isLessThan_infinity_iff.mp hbeats).2

/-- The route along a path can be executed exactly when the path kept all
its hops. -/
theorem executable_routeAlong_iff {swapType : SWAP_TYPE} {pairs : List PairModel}
    {amount : BigNumber} {path : List TokenID}
    (hbeats : better swapType (composed swapType (knownHops pairs path) amount)
      (initialBest swapType) = true) :
    Executable swapType pairs (routeAlong swapType pairs amount path) ↔
      Realizable pairs path := by
  -- a route has an address for each hop that is known, so none is missing exactly if
  -- all are
  have hlen := length_hops path
  constructor
  · intro h
    have hne := List.length_pos_of_ne_nil h.nonempty
    have haddr := h.addresses
    simp only [routeAlong, List.length_map] at hne haddr
    refine ⟨by omega, length_knownHops_iff.mp ?_⟩
    omega
  · intro h
    have hknown := length_knownHops_iff.mpr h.traded
    have h2 := h.length
    refine ⟨?_, ?_, ?_, ?_⟩
    · apply List.ne_nil_of_length_pos
      simp only [routeAlong, List.length_map]
      omega
    · simp only [routeAlong, List.length_map]
      omega
    · simp only [routeAlong, length_amountsAlong]
      omega
    · intro i hi
      simp only [routeAlong, List.length_map] at hi
      have hget := List.getElem?_eq_getElem hi
      obtain ⟨hhop, hmem, htr⟩ := getElem?_knownHops h.traded hget
      obtain ⟨hu, hv⟩ := getElem?_hops.mp hhop
      obtain ⟨a, b, ha, hb, hab⟩ := amountsAgree hbeats hget
      refine ⟨_, hmem, _, _, a, b, ?_, hu, hv, ha, hb, htr, hab⟩
      simp only [routeAlong]
      rw [List.getElem?_map, hget]
      rfl

/-- A route is returned only if it can be executed, and otherwise the call
throws. -/
def ExecutableOrThrows (swapType : SWAP_TYPE) (paths : List (List TokenID))
    (pairs : List PairModel) (amount : BigNumber) : Prop :=
  (∃ r, computeBestSwapRoute paths pairs amount swapType = .ok r ∧
    Executable swapType pairs r) ∨
  computeBestSwapRoute paths pairs amount swapType = .error "No route found"

/-- One call: it depends on the best path. -/
theorem executableOrThrows_iff {paths : List (List TokenID)} {pairs : List PairModel}
    {amount : BigNumber} {swapType : SWAP_TYPE} :
    ExecutableOrThrows swapType paths pairs amount ↔
      ∀ path, IsBestPath swapType paths pairs amount path → Realizable pairs path := by
  unfold ExecutableOrThrows
  cases hres : computeBestSwapRoute paths pairs amount swapType with
  | error e =>
    obtain ⟨rfl, hall⟩ := computeBestSwapRoute_error_iff.mp hres
    refine ⟨fun _ path hpath => ?_, fun _ => Or.inr rfl⟩
    obtain ⟨i, hi, hbest⟩ := hpath
    have := hall path (List.mem_of_getElem? hi)
    rw [hbest.beats] at this
    exact absurd this (by simp)
  | ok r =>
    obtain ⟨path, hpath, rfl⟩ := computeBestSwapRoute_ok_iff.mp hres
    have hiff := executable_routeAlong_iff hpath.choose_spec.2.beats
    constructor
    · intro h path' hpath'
      -- two best paths would be two results of one call
      have hok := computeBestSwapRoute_ok_iff.mpr ⟨path', hpath', rfl⟩
      rw [hres] at hok
      have hsame : path = path' := congrArg BestSwapRoute.tokenRoute (Except.ok.inj hok)
      subst hsame
      rcases h with ⟨r, hr, hex⟩ | herr
      · rw [← Except.ok.inj hr] at hex
        exact hiff.mp hex
      · exact absurd herr (by simp)
    · intro h
      exact Or.inl ⟨_, rfl, hiff.mpr (h path hpath)⟩

/-- A pair of two tokens with equal reserves and a fee of 0.3%. -/
def samplePair (address : Address) (u v : TokenID) (reserves : ℕ) : PairModel where
  address := address
  firstToken := ⟨u, 18⟩
  secondToken := ⟨v, 18⟩
  info := ⟨reserves, reserves, reserves⟩
  totalFeePercent := .ofRat (3 / 1000)

/-- The path was cached while a second pair was active. -/
theorem computeBestSwapRoute_pausedHop :
    computeBestSwapRoute [["TOKA-1", "TOKB-1", "TOKC-1"]]
        [samplePair "erd1ab" "TOKA-1" "TOKB-1" 1000000] (.fin 1000) .fixedInput
      = .ok ⟨["TOKA-1", "TOKB-1", "TOKC-1"], [.fin 1000, .fin 996], ["erd1ab"], .fin 996⟩ ∧
    ¬ Executable .fixedInput [samplePair "erd1ab" "TOKA-1" "TOKB-1" 1000000]
        ⟨["TOKA-1", "TOKB-1", "TOKC-1"], [.fin 1000, .fin 996], ["erd1ab"], .fin 996⟩ := by
  refine ⟨by decide +kernel, fun h => ?_⟩
  have := h.addresses
  simp at this

/-! ## Optimal routes

From here on every pair has reserves on both sides and a fee in `[0, 1)`. -/

/-- A pair that can be traded on: both reserves are positive, and the fee is
below one. -/
structure IsFunded (pair : PairModel) : Prop where
  reserves0_pos : 0 < pair.info.reserves0
  reserves1_pos : 0 < pair.info.reserves1
  fee : IsFee pair.totalFeePercent

/-- The reserve of the token that goes in. -/
def Hop.reserveIn (h : Hop) : ℕ :=
  if h.tokenInID = h.pair.firstToken.identifier then h.pair.info.reserves0
  else h.pair.info.reserves1

/-- The reserve of the token that comes out. -/
def Hop.reserveOut (h : Hop) : ℕ :=
  if h.tokenInID = h.pair.firstToken.identifier then h.pair.info.reserves1
  else h.pair.info.reserves0

theorem getOrderedReserves_eq (h : Hop) :
    getOrderedReserves h.tokenInID h.pair = (.ofNat h.reserveIn, .ofNat h.reserveOut) := by
  unfold getOrderedReserves Hop.reserveIn Hop.reserveOut
  split <;> rfl

/-- The formula on the hop's reserves. -/
theorem Hop.amountOut_eq (h : Hop) (x : BigNumber) :
    h.amountOut x
      = getAmountOut x (.ofNat h.reserveIn) (.ofNat h.reserveOut) h.pair.totalFeePercent := by
  rw [Hop.amountOut, getOrderedReserves_eq]

theorem Hop.amountIn_eq (h : Hop) (y : BigNumber) :
    h.amountIn y
      = getAmountIn y (.ofNat h.reserveIn) (.ofNat h.reserveOut) h.pair.totalFeePercent := by
  rw [Hop.amountIn, getOrderedReserves_eq]

theorem Hop.reserveIn_pos {h : Hop} (hf : IsFunded h.pair) : 0 < h.reserveIn := by
  unfold Hop.reserveIn
  split
  · exact hf.reserves0_pos
  · exact hf.reserves1_pos

theorem Hop.reserveOut_pos {h : Hop} (hf : IsFunded h.pair) : 0 < h.reserveOut := by
  unfold Hop.reserveOut
  split
  · exact hf.reserves1_pos
  · exact hf.reserves0_pos

/-- Going backwards, every requested output is below the output reserve. -/
def Feasible (amountOut : BigNumber) : List Hop → Prop
  | [] => True
  | h :: hs => Feasible amountOut hs ∧
      (hs.foldr Hop.amountIn amountOut).isLessThan (.ofNat h.reserveOut) = true

/-- A forward hop delivers a finite amount. -/
theorem Hop.amountOut_fin {h : Hop} (hfee : IsFee h.pair.totalFeePercent) {x : ℚ} (hx : 0 ≤ x)
    (hpos : 0 < h.reserveIn ∨ 0 < x) : ∃ y : ℚ, h.amountOut (.fin x) = .fin y ∧ 0 ≤ y := by
  have hF := feeFactor_pos hfee
  have hden : (0 : ℚ) < h.reserveIn * 100000 + x * feeFactor h.pair.totalFeePercent := by
    rcases hpos with hr | hx'
    · have hrq : (0 : ℚ) < h.reserveIn := by exact_mod_cast hr
      have := mul_nonneg hx hF.le
      positivity
    · positivity
  refine ⟨_, (h.amountOut_eq _).trans (getAmountOut_fin hden.ne'), ?_⟩
  exact_mod_cast truncate_nonneg (truncatePlaces_nonneg (curveOut_nonneg hfee hx))

/-- Over funded pairs every amount forward is finite and not negative. -/
theorem composed_fixedInput_fin {hs : List Hop} (hf : ∀ h ∈ hs, IsFunded h.pair) :
    ∀ {x : ℚ}, 0 ≤ x → ∃ y : ℚ, composed .fixedInput hs (.fin x) = .fin y ∧ 0 ≤ y := by
  induction hs with
  | nil => intro x hx; exact ⟨x, rfl, hx⟩
  | cons h hs ih =>
    intro x hx
    have hfh := hf h (List.mem_cons_self ..)
    obtain ⟨y, hy, hy0⟩ := Hop.amountOut_fin hfh.fee hx (Or.inl (Hop.reserveIn_pos hfh))
    obtain ⟨z, hz, hz0⟩ := ih (fun h' hh' => hf h' (List.mem_cons_of_mem _ hh')) hy0
    refine ⟨z, ?_, hz0⟩
    show hs.foldl (fun a h => h.amountOut a) (h.amountOut (.fin x)) = _
    rw [hy]
    exact hz

/-- A request below the reserve costs a positive number of units. -/
theorem Hop.requiredFrom_of_lt {h : Hop} (hfee : IsFee h.pair.totalFeePercent) {y : ℚ}
    (hy : 0 ≤ y) (hlt : y < h.reserveOut) :
    ∃ n : ℕ, h.amountIn (.fin y) = .ofNat n ∧ h.requiredFrom (.fin y) = .ofNat n ∧ 0 < n := by
  have hone := one_le_getAmountIn h.reserveIn hfee hy hlt
  have heq := (h.amountIn_eq (.fin y)).trans (getAmountIn_eq_floor h.reserveIn hfee hy hlt)
  obtain ⟨n, hn⟩ := Int.eq_ofNat_of_zero_le (by omega : 0 ≤
    ⌊curveIn y h.reserveIn h.reserveOut h.pair.totalFeePercent⌋ + 1)
  rw [hn] at hone heq
  have hpos : 0 < n := by omega
  have hamount : h.amountIn (.fin y) = .ofNat n := by
    rw [heq, BigNumber.ofNat]
    norm_cast
  refine ⟨n, hamount, ?_, hpos⟩
  unfold Hop.requiredFrom
  rw [hamount, if_neg]
  simpa [BigNumber.ofNat] using hpos.ne'

/-- Any other request counts as impossible, whether the formula says zero
or divides by it. -/
theorem Hop.requiredFrom_of_le {h : Hop} (hf : IsFunded h.pair) {y : ℚ}
    (hle : (h.reserveOut : ℚ) ≤ y) : h.requiredFrom (.fin y) = .infinity := by
  rcases hle.lt_or_eq with hlt | heq
  · have hzero : h.amountIn (.fin y) = .fin 0 :=
      (h.amountIn_eq (.fin y)).trans (getAmountIn_of_reserve_lt hlt)
    simp [Hop.requiredFrom, hzero]
  · subst heq
    have hdiv : h.amountIn (.fin h.reserveOut) = .infinity := by
      have := getAmountIn_of_eq_reserve h.reserveIn h.pair.totalFeePercent
        (Hop.reserveOut_pos hf)
      rw [if_neg (Hop.reserveIn_pos hf).ne'] at this
      exact (h.amountIn_eq _).trans this
    simp [Hop.requiredFrom, hdiv]

/-- What cannot be had at the end cannot be had at the start. -/
theorem Hop.requiredFrom_infinity (h : Hop) : h.requiredFrom .infinity = .infinity := by
  unfold Hop.requiredFrom
  rw [if_pos (Or.inl rfl)]

/-- The sentinel tells feasible chains from the others: on a feasible one it
never shows, on any other it wins through to the front. -/
theorem composed_fixedOutput_cases (hs : List Hop) (hf : ∀ h ∈ hs, IsFunded h.pair) {q : ℚ}
    (hq : 0 < q) :
    (Feasible (.fin q) hs ∧ ∃ x : ℚ, hs.foldr Hop.amountIn (.fin q) = .fin x ∧
      composed .fixedOutput hs (.fin q) = .fin x ∧ 0 < x) ∨
    (¬ Feasible (.fin q) hs ∧ composed .fixedOutput hs (.fin q) = .infinity) := by
  induction hs with
  | nil => exact Or.inl ⟨trivial, q, rfl, rfl, hq⟩
  | cons h hs ih =>
    -- the hops behind `h` ask it for a finite amount, or have failed already
    have hfh := hf h (List.mem_cons_self ..)
    have hstep : composed .fixedOutput (h :: hs) (.fin q)
        = h.requiredFrom (composed .fixedOutput hs (.fin q)) := rfl
    rcases ih (fun h' hh' => hf h' (List.mem_cons_of_mem _ hh')) with
      ⟨hfeas, x, hin, hcomp, hx⟩ | ⟨hinf, hcomp⟩
    · rcases lt_or_ge x h.reserveOut with hlt | hge
      · obtain ⟨n, hn, hnr, hn0⟩ := Hop.requiredFrom_of_lt hfh.fee hx.le hlt
        refine Or.inl ⟨⟨hfeas, ?_⟩, n, ?_, ?_, by exact_mod_cast hn0⟩
        · rw [hin]
          simpa [BigNumber.ofNat] using hlt
        · rw [List.foldr_cons, hin, hn]
          rfl
        · rw [hstep, hcomp, hnr]
          rfl
      · refine Or.inr ⟨fun hfe => ?_, ?_⟩
        · have hlt := hfe.2
          rw [hin] at hlt
          have : x < h.reserveOut := by simpa [BigNumber.ofNat] using hlt
          exact absurd this (not_lt.mpr hge)
        · rw [hstep, hcomp, Hop.requiredFrom_of_le hfh hge]
    · refine Or.inr ⟨fun hfe => hinf hfe.1, ?_⟩
      rw [hstep, hcomp, Hop.requiredFrom_infinity]

/-- The best path is one of the paths. -/
theorem IsBestPath.mem {swapType : SWAP_TYPE} {paths : List (List TokenID)}
    {pairs : List PairModel} {amount : BigNumber} {path : List TokenID}
    (h : IsBestPath swapType paths pairs amount path) : path ∈ paths :=
  List.mem_of_getElem? h.choose_spec.1

/-- No path is better. -/
theorem IsBestPath.best {swapType : SWAP_TYPE} {paths : List (List TokenID)}
    {pairs : List PairModel} {amount : BigNumber} {path path' : List TokenID}
    (h : IsBestPath swapType paths pairs amount path) (hp : path' ∈ paths) :
    better swapType (composed swapType (knownHops pairs path') amount)
      (composed swapType (knownHops pairs path) amount) = false :=
  h.choose_spec.2.best _ (List.mem_map_of_mem hp)

/-- It is better than where the search starts. -/
theorem IsBestPath.beats {swapType : SWAP_TYPE} {paths : List (List TokenID)}
    {pairs : List PairModel} {amount : BigNumber} {path : List TokenID}
    (h : IsBestPath swapType paths pairs amount path) :
    better swapType (composed swapType (knownHops pairs path) amount) (initialBest swapType)
      = true :=
  h.choose_spec.2.beats

/-- A route that is answered is the best path's. -/
theorem IsBestPath.ok {swapType : SWAP_TYPE} {paths : List (List TokenID)}
    {pairs : List PairModel} {amount : BigNumber} {r : BestSwapRoute}
    (h : computeBestSwapRoute paths pairs amount swapType = .ok r) :
    IsBestPath swapType paths pairs amount r.tokenRoute ∧
      r = routeAlong swapType pairs amount r.tokenRoute := by
  obtain ⟨path, hpath, rfl⟩ := computeBestSwapRoute_ok_iff.mp h
  exact ⟨hpath, rfl⟩

/-! ## Whatever the reserves are -/

/-- The same pairs with other reserves and fees. -/
def atReserves (pairs : List PairModel) (info : PairModel → PairInfoModel)
    (totalFeePercent : PairModel → Double) : List PairModel :=
  pairs.map fun pair => { pair with info := info pair, totalFeePercent := totalFeePercent pair }

/-- Who trades what is not a matter of the reserves. -/
theorem realizable_atReserves_iff {pairs : List PairModel} {info : PairModel → PairInfoModel}
    {totalFeePercent : PairModel → Double} {path : List TokenID} :
    Realizable (atReserves pairs info totalFeePercent) path ↔ Realizable pairs path := by
  have htraded : ∀ e : TokenID × TokenID,
      (∃ pair ∈ atReserves pairs info totalFeePercent, trades e.1 e.2 pair = true) ↔
        ∃ pair ∈ pairs, trades e.1 e.2 pair = true := by
    intro e
    constructor
    · rintro ⟨pair, hpair, htrades⟩
      obtain ⟨other, hother, rfl⟩ := List.mem_map.mp hpair
      exact ⟨other, hother, htrades⟩
    · rintro ⟨pair, hpair, htrades⟩
      exact ⟨_, List.mem_map_of_mem hpair, htrades⟩
  constructor
  · intro h
    exact ⟨h.length, fun e he => (htraded e).mp (h.traded e he)⟩
  · intro h
    exact ⟨h.length, fun e he => (htraded e).mpr (h.traded e he)⟩

/-- Without a fee, and with as much on either side as the square of what is
swapped. -/
structure Deep (x : ℕ) (pair : PairModel) : Prop where
  reserves : ∃ reserve, x ^ 2 ≤ reserve ∧ 0 < reserve ∧ pair.info.reserves0 = reserve ∧
    pair.info.reserves1 = reserve
  fee : pair.totalFeePercent = Double.ofRat 0

/-- A swap in such a pair costs no more than one unit. -/
theorem Deep.amountOut {h : Hop} {x m : ℕ} (hdeep : Deep m h.pair) (hx : x ≤ m) :
    ∃ y : ℕ, h.amountOut (.ofNat x) = .ofNat y ∧ y ≤ x ∧ x ≤ y + 1 := by
  obtain ⟨reserve, hsquare, hpos, h0, h1⟩ := hdeep.reserves
  -- both reserves are the same, so it does not matter which way the hop goes
  have hin : h.reserveIn = reserve := by
    unfold Hop.reserveIn
    split
    · exact h0
    · exact h1
  have hout : h.reserveOut = reserve := by
    unfold Hop.reserveOut
    split
    · exact h1
    · exact h0
  have hquote := getAmountOut_eq_floor reserve isFee_zero hpos (Nat.cast_nonneg x)
  have hcurve : curveOut x reserve reserve (Double.ofRat 0) =
      ((x * reserve : ℕ) : ℚ) / ((reserve + x : ℕ) : ℚ) := by
    rw [curveOut, feeFactor_zero, ← add_mul, mul_right_comm, mul_div_mul_right _ _ (by norm_num)]
    push_cast
    rfl
  rw [hcurve, Rat.floor_natCast_div_natCast, ← hdeep.fee, ← Int.natCast_div,
    Int.cast_natCast] at hquote
  refine ⟨x * reserve / (reserve + x), ?_, ?_, ?_⟩
  · rw [h.amountOut_eq, hin, hout]
    exact hquote
  · exact Nat.div_le_of_le_mul (by nlinarith)
  · -- `x * reserve` is short of `x * (reserve + x)` by `x * x`, which the reserve covers
    have hxx : x * x ≤ reserve := by nlinarith
    have hone : (x - 1) * (reserve + x) ≤ x * reserve := by
      rcases Nat.eq_zero_or_pos x with rfl | hxpos
      · simp
      · obtain ⟨k, rfl⟩ : ∃ k, x = k + 1 := ⟨x - 1, by omega⟩
        rw [Nat.add_sub_cancel]
        nlinarith
    have := (Nat.le_div_iff_mul_le (by omega)).mpr hone
    omega

/-- So a chain of them delivers something of an amount larger than its
length. -/
theorem one_le_composed {m : ℕ} {hs : List Hop} (hdeep : ∀ h ∈ hs, Deep m h.pair) :
    ∀ {x : ℕ}, x ≤ m → hs.length < x →
      ∃ y : ℕ, composed .fixedInput hs (.ofNat x) = .ofNat y ∧ 0 < y := by
  induction hs with
  | nil => intro x _ hx; exact ⟨x, rfl, hx⟩
  | cons h hs ih =>
    intro x hxm hx
    rw [List.length_cons] at hx
    obtain ⟨y, hy, hle, hge⟩ := (hdeep h (List.mem_cons_self ..)).amountOut hxm
    obtain ⟨z, hz, hpos⟩ := ih (fun h' hh' => hdeep h' (List.mem_cons_of_mem _ hh'))
      (hle.trans hxm) (by omega)
    refine ⟨z, ?_, hpos⟩
    show hs.foldl (fun a h => h.amountOut a) (h.amountOut (.ofNat x)) = _
    rw [hy]
    exact hz

/-- A path alone, in deep pairs: it is returned. -/
theorem exists_isBestPath_alone (pairs : List PairModel) (path : List TokenID) :
    ∃ info totalFeePercent q, 0 < q ∧
      IsBestPath .fixedInput [path] (atReserves pairs info totalFeePercent) (.fin q) path := by
  obtain ⟨x, hx⟩ : ∃ x, x = (hops path).length + 1 := ⟨_, rfl⟩
  have hsquare : 0 < x ^ 2 := by
    rw [hx]
    positivity
  -- reserves of the square of one more than the hops lose at most one at each hop
  refine ⟨fun _ => ⟨x ^ 2, x ^ 2, x ^ 2⟩, fun _ => Double.ofRat 0, (x : ℕ), ?_, 0, rfl, ?_⟩
  · rw [hx]
    positivity
  · have hdeep : ∀ h ∈ knownHops (atReserves pairs (fun _ => ⟨x ^ 2, x ^ 2, x ^ 2⟩)
        fun _ => Double.ofRat 0) path, Deep x h.pair := by
      intro h hh
      obtain ⟨pair, -, heq⟩ := List.mem_map.mp (mem_of_mem_knownHops hh)
      rw [← heq]
      exact ⟨⟨x ^ 2, le_rfl, hsquare, rfl, rfl⟩, rfl⟩
    have hlength := List.length_filterMap_le (findHop (atReserves pairs
      (fun _ => ⟨x ^ 2, x ^ 2, x ^ 2⟩) fun _ => Double.ofRat 0)) (hops path)
    obtain ⟨y, hy, hpos⟩ := one_le_composed hdeep le_rfl (by unfold knownHops; omega)
    have hbeats : better .fixedInput (.ofNat y) (initialBest .fixedInput) = true := by
      show (BigNumber.fin 0).isLessThan (.ofNat y) = true
      simpa [BigNumber.ofNat] using hpos
    have hresult : results .fixedInput [path] (atReserves pairs (fun _ => ⟨x ^ 2, x ^ 2, x ^ 2⟩)
        fun _ => Double.ofRat 0) (.ofNat x) = [.ofNat y] := congrArg (fun a => [a]) hy
    show IsFirstBest _ _ (results _ _ _ (.ofNat x)) 0 (composed _ _ (.ofNat x))
    rw [hresult, hy]
    exact
      { get := rfl
        beats := hbeats
        best := fun other hother => by
          rw [List.mem_singleton.mp hother]
          exact BigNumber.isLessThan_irrefl (.ofNat y)
        first := fun j _ hj => absurd hj (Nat.not_lt_zero j) }

/-- **Which paths may compete.** What is returned can be executed, at all
reserves, fees and amounts and whichever of the paths compete, exactly if all
hops of every path are traded. -/
theorem computeBestSwapRoute_executable_iff (paths : List (List TokenID))
    (pairs : List PairModel) :
    (∀ info totalFeePercent, ∀ competing ⊆ paths, ∀ q : ℚ, 0 < q → ∀ swapType,
      ExecutableOrThrows swapType competing (atReserves pairs info totalFeePercent) (.fin q)) ↔
    ∀ path ∈ paths, Realizable pairs path := by
  constructor
  · intro hall path hpath
    obtain ⟨info, totalFeePercent, q, hq, hbest⟩ := exists_isBestPath_alone pairs path
    have halone := hall info totalFeePercent [path] (by simpa using hpath) q hq .fixedInput
    exact realizable_atReserves_iff.mp (executableOrThrows_iff.mp halone path hbest)
  · intro hall info totalFeePercent competing hsub q _ swapType
    rw [executableOrThrows_iff]
    intro path hbest
    exact realizable_atReserves_iff.mpr (hall path (hsub hbest.mem))

/-- The end of the amounts that is given, and the end that is computed. -/
def givenEnd : SWAP_TYPE → List BigNumber → Option BigNumber
  | .fixedInput, amounts => amounts.head?
  | .fixedOutput, amounts => amounts.getLast?

/-- The amount at the end that was not given. -/
def computedEnd : SWAP_TYPE → List BigNumber → Option BigNumber
  | .fixedInput, amounts => amounts.getLast?
  | .fixedOutput, amounts => amounts.head?

/-- All fields of a route belong to its token route. -/
structure BelongsTo (swapType : SWAP_TYPE) (pairs : List PairModel) (amount : BigNumber)
    (r : BestSwapRoute) : Prop where
  executable : Executable swapType pairs r
  given : givenEnd swapType r.intermediaryAmounts = some amount
  computed : computedEnd swapType r.intermediaryAmounts = some r.bestResult

/-- If all paths can be realized, a route that is answered has a pair for each
of its hops. -/
theorem belongsTo_of_ok {swapType : SWAP_TYPE} {paths : List (List TokenID)}
    {pairs : List PairModel} {amount : BigNumber} {r : BestSwapRoute}
    (hpaths : ∀ path ∈ paths, Realizable pairs path)
    (h : computeBestSwapRoute paths pairs amount swapType = .ok r) :
    r.tokenRoute ∈ paths ∧ BelongsTo swapType pairs amount r := by
  obtain ⟨hbest, hr⟩ := IsBestPath.ok h
  have hex := (executable_routeAlong_iff hbest.beats).mpr (hpaths _ hbest.mem)
  rw [← hr] at hex
  refine ⟨hbest.mem, hex, ?_, ?_⟩
  · rw [hr]
    cases swapType with
    | fixedInput => exact List.head?_scanl
    | fixedOutput => exact List.getLast?_scanr
  · rw [hr]
    cases swapType with
    | fixedInput => exact List.getLast?_scanl
    | fixedOutput => exact List.head?_scanr

/-- With a fixed input the best route delivers the most, and none is found
only if none delivers anything. -/
theorem optimal_fixedInput (paths : List (List TokenID)) {pairs : List PairModel} {q : ℚ}
    (hpairs : ∀ pair ∈ pairs, IsFunded pair) (hq : 0 < q) :
    (∀ r, computeBestSwapRoute paths pairs (.fin q) .fixedInput = .ok r → ∃ out : ℚ,
      (knownHops pairs r.tokenRoute).foldl (fun a h => h.amountOut a) (.fin q) = .fin out ∧
      r.bestResult = .fin out ∧
      ∀ path ∈ paths, ∃ out' : ℚ,
        (knownHops pairs path).foldl (fun a h => h.amountOut a) (.fin q) = .fin out' ∧
        out' ≤ out) ∧
    (computeBestSwapRoute paths pairs (.fin q) .fixedInput = .error "No route found" ↔
      ∀ path ∈ paths,
        (knownHops pairs path).foldl (fun a h => h.amountOut a) (.fin q) = .fin 0) := by
  -- funded pairs give finite amounts, so the comparison is the one of numbers
  have hfin : ∀ path, ∃ y : ℚ,
      composed .fixedInput (knownHops pairs path) (.fin q) = .fin y ∧ 0 ≤ y := fun path =>
    composed_fixedInput_fin (fun h hh => hpairs _ (mem_of_mem_knownHops hh)) hq.le
  constructor
  · intro r hr
    obtain ⟨hbest, heq⟩ := IsBestPath.ok hr
    obtain ⟨out, hout, -⟩ := hfin r.tokenRoute
    refine ⟨out, hout, by rw [heq]; exact hout, ?_⟩
    intro path hpath
    obtain ⟨out', hout', -⟩ := hfin path
    refine ⟨out', hout', ?_⟩
    have := hbest.best hpath
    rw [hout, hout'] at this
    simpa [better] using this
  · rw [computeBestSwapRoute_error_iff]
    simp only [true_and]
    refine forall₂_congr fun path _ => ?_
    obtain ⟨out, hout, h0⟩ := hfin path
    show better .fixedInput _ _ = false ↔ composed .fixedInput _ _ = _
    rw [hout]
    have hdec : better .fixedInput (.fin out) (initialBest .fixedInput) = decide (0 < out) := rfl
    rw [hdec, decide_eq_false_iff_not, BigNumber.fin.injEq]
    constructor
    · intro h
      exact le_antisymm (not_lt.mp h) h0
    · intro h
      rw [h]
      exact lt_irrefl 0

/-- With a fixed output the best route costs the least of the feasible ones,
and none is found only if none is feasible. -/
theorem optimal_fixedOutput (paths : List (List TokenID)) {pairs : List PairModel} {q : ℚ}
    (hpairs : ∀ pair ∈ pairs, IsFunded pair) (hq : 0 < q) :
    (∀ r, computeBestSwapRoute paths pairs (.fin q) .fixedOutput = .ok r →
      Feasible (.fin q) (knownHops pairs r.tokenRoute) ∧ ∃ cost : ℚ,
      (knownHops pairs r.tokenRoute).foldr Hop.amountIn (.fin q) = .fin cost ∧
      r.bestResult = .fin cost ∧
      ∀ path ∈ paths, Feasible (.fin q) (knownHops pairs path) → ∃ cost' : ℚ,
        (knownHops pairs path).foldr Hop.amountIn (.fin q) = .fin cost' ∧ cost ≤ cost') ∧
    (computeBestSwapRoute paths pairs (.fin q) .fixedOutput = .error "No route found" ↔
      ∀ path ∈ paths, ¬ Feasible (.fin q) (knownHops pairs path)) := by
  have hcases := fun path =>
    composed_fixedOutput_cases (knownHops pairs path)
      (fun h hh => hpairs _ (mem_of_mem_knownHops hh)) hq
  constructor
  · intro r hr
    obtain ⟨hbest, heq⟩ := IsBestPath.ok hr
    have hbeats := hbest.beats
    rcases hcases r.tokenRoute with ⟨hfeas, cost, hcost, hcomp, -⟩ | ⟨-, hcomp⟩
    · refine ⟨hfeas, cost, hcost, by rw [heq]; exact hcomp, ?_⟩
      intro path hpath hfe
      rcases hcases path with ⟨-, cost', hcost', hcomp', -⟩ | ⟨hinf, -⟩
      · refine ⟨cost', hcost', ?_⟩
        have := hbest.best hpath
        rw [hcomp, hcomp'] at this
        simpa [better] using this
      · exact absurd hfe hinf
    · rw [hcomp] at hbeats
      exact absurd hbeats (by decide)
  · rw [computeBestSwapRoute_error_iff]
    simp only [true_and]
    refine forall₂_congr fun path _ => ?_
    rcases hcases path with ⟨hfeas, cost, -, hcomp, -⟩ | ⟨hinf, hcomp⟩
    · rw [hcomp]
      refine iff_of_false ?_ (fun h => h hfeas)
      simp [better, initialBest, BigNumber.isGreaterThan, BigNumber.isLessThan]
    · rw [hcomp]
      exact iff_of_true (by decide) hinf

/-- On paths whose hops all exist, the route returned is the optimal one and
all its fields belong to it. Nothing is returned only when there is no
route. -/
theorem computeBestSwapRoute_optimal {paths : List (List TokenID)} {pairs : List PairModel}
    {q : ℚ} (hpairs : ∀ pair ∈ pairs, IsFunded pair)
    (hpaths : ∀ path ∈ paths, Realizable pairs path) (hq : 0 < q) :
    (∀ swapType r, computeBestSwapRoute paths pairs (.fin q) swapType = .ok r →
      r.tokenRoute ∈ paths ∧ BelongsTo swapType pairs (.fin q) r) ∧
    (∀ r, computeBestSwapRoute paths pairs (.fin q) .fixedInput = .ok r → ∃ out : ℚ,
      (knownHops pairs r.tokenRoute).foldl (fun a h => h.amountOut a) (.fin q) = .fin out ∧
      r.bestResult = .fin out ∧
      ∀ path ∈ paths, ∃ out' : ℚ,
        (knownHops pairs path).foldl (fun a h => h.amountOut a) (.fin q) = .fin out' ∧
        out' ≤ out) ∧
    (computeBestSwapRoute paths pairs (.fin q) .fixedInput = .error "No route found" ↔
      ∀ path ∈ paths,
        (knownHops pairs path).foldl (fun a h => h.amountOut a) (.fin q) = .fin 0) ∧
    (∀ r, computeBestSwapRoute paths pairs (.fin q) .fixedOutput = .ok r →
      Feasible (.fin q) (knownHops pairs r.tokenRoute) ∧ ∃ cost : ℚ,
      (knownHops pairs r.tokenRoute).foldr Hop.amountIn (.fin q) = .fin cost ∧
      r.bestResult = .fin cost ∧
      ∀ path ∈ paths, Feasible (.fin q) (knownHops pairs path) → ∃ cost' : ℚ,
        (knownHops pairs path).foldr Hop.amountIn (.fin q) = .fin cost' ∧ cost ≤ cost') ∧
    (computeBestSwapRoute paths pairs (.fin q) .fixedOutput = .error "No route found" ↔
      ∀ path ∈ paths, ¬ Feasible (.fin q) (knownHops pairs path)) := by
  obtain ⟨hin, hinErr⟩ := optimal_fixedInput paths hpairs hq
  obtain ⟨hout, houtErr⟩ := optimal_fixedOutput paths hpairs hq
  exact ⟨fun _ _ h => belongsTo_of_ok hpaths h, hin, hinErr, hout, houtErr⟩

/-- A pool of the two tokens themselves, a larger one by way of a third token,
and a small one by way of a fourth. -/
def samplePairs : List PairModel :=
  [samplePair "erd1ab" "TOKA-1" "TOKB-1" 1000000, samplePair "erd1ac" "TOKA-1" "TOKC-1" 9000000,
    samplePair "erd1cb" "TOKC-1" "TOKB-1" 9000000, samplePair "erd1ad" "TOKA-1" "TOKD-1" 500,
    samplePair "erd1db" "TOKD-1" "TOKB-1" 500]

/-- A direct path, and two through a token in between. -/
def samplePaths : List (List TokenID) :=
  [["TOKA-1", "TOKB-1"], ["TOKA-1", "TOKC-1", "TOKB-1"], ["TOKA-1", "TOKD-1", "TOKB-1"]]

theorem samplePairs_funded : ∀ pair ∈ samplePairs, IsFunded pair := by
  have hfee : IsFee (Double.ofRat (3 / 1000)) := ⟨by decide +kernel, by decide +kernel⟩
  intro pair hp
  simp only [samplePairs, List.mem_cons, List.not_mem_nil, or_false] at hp
  rcases hp with rfl | rfl | rfl | rfl | rfl
  all_goals exact ⟨by decide, by decide, hfee⟩

theorem samplePaths_realizable : ∀ path ∈ samplePaths, Realizable samplePairs path := by
  intro path hp
  simp only [samplePaths, List.mem_cons, List.not_mem_nil, or_false] at hp
  rcases hp with rfl | rfl | rfl
  all_goals exact ⟨by decide, by decide⟩

/-- Ten thousand units: the way by the third token delivers more than the pool
of the two, and costs less. The way by the fourth delivers the least, and is out
of reach when the output is given. -/
theorem computeBestSwapRoute_optimal_sample :
    ∃ given asked : BestSwapRoute,
      computeBestSwapRoute samplePaths samplePairs (.fin 10000) .fixedInput = .ok given ∧
      computeBestSwapRoute samplePaths samplePairs (.fin 10000) .fixedOutput = .ok asked ∧
      given.tokenRoute = ["TOKA-1", "TOKC-1", "TOKB-1"] ∧
      asked.tokenRoute = ["TOKA-1", "TOKC-1", "TOKB-1"] ∧
      ¬Feasible (.fin 10000) (knownHops samplePairs ["TOKA-1", "TOKD-1", "TOKB-1"]) ∧
      BelongsTo .fixedInput samplePairs (.fin 10000) given ∧
      BelongsTo .fixedOutput samplePairs (.fin 10000) asked ∧
      (∃ out : ℚ, given.bestResult = .fin out ∧ ∀ path ∈ samplePaths, ∃ out' : ℚ,
        (knownHops samplePairs path).foldl (fun a h => h.amountOut a) (.fin 10000) = .fin out' ∧
          out' ≤ out) ∧
      ∃ cost : ℚ, asked.bestResult = .fin cost ∧ ∀ path ∈ samplePaths,
        Feasible (.fin 10000) (knownHops samplePairs path) → ∃ cost' : ℚ,
          (knownHops samplePairs path).foldr Hop.amountIn (.fin 10000) = .fin cost' ∧
            cost ≤ cost' := by
  have hopt := computeBestSwapRoute_optimal samplePairs_funded samplePaths_realizable
    (q := 10000) (by norm_num)
  obtain ⟨hbelongs, hmost, -, hleast, -⟩ := hopt
  have hgiven : computeBestSwapRoute samplePaths samplePairs (.fin 10000) .fixedInput =
      .ok ⟨["TOKA-1", "TOKC-1", "TOKB-1"], [.fin 10000, .fin 9958, .fin 9917],
        ["erd1ac", "erd1cb"], .fin 9917⟩ := by
    decide +kernel
  have hasked : computeBestSwapRoute samplePaths samplePairs (.fin 10000) .fixedOutput =
      .ok ⟨["TOKA-1", "TOKC-1", "TOKB-1"], [.fin 10084, .fin 10042, .fin 10000],
        ["erd1ac", "erd1cb"], .fin 10084⟩ := by
    decide +kernel
  obtain ⟨out, -, hout, hbest⟩ := hmost _ hgiven
  obtain ⟨-, cost, -, hcost, hcheapest⟩ := hleast _ hasked
  refine ⟨_, _, hgiven, hasked, rfl, rfl, ?_, (hbelongs _ _ hgiven).2, (hbelongs _ _ hasked).2,
    ⟨out, hout, hbest⟩, cost, hcost, hcheapest⟩
  -- the last hop has five hundred units
  intro hfeasible
  have hlast := hfeasible.1.2
  revert hlast
  decide +kernel

end MxExchange.AutoRouter
