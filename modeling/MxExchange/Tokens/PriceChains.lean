import MxExchange.Tokens.Price
import MxExchange.Pair.PairCompute

/-!
# Where a price comes from

A price that `computeTokenPriceDerivedEGLD` answers is zero, or the product
of the spot prices along a chain of pairs that ends in a token with a price
of its own (`computeTokenPriceDerivedEGLD_chain`): the token the provider
quotes, or the stable coin.

The walk reads a pair from one side at a time, and the pairs of a token are
flattened to their sides here (`tokenSides`), so that one round of its loop
is one recursive call (`computeTokenPriceDerivedEGLD_cases`). The chain is
built from its end: a branch that wins puts its pair in front of the chain
of its own price. The pairs of that chain were not visited when the branch
was called, and its own pair was, so no pair comes twice.
-/

namespace MxExchange.Tokens

open MxExchange.Num MxExchange.Pair MxExchange.Collections

/-! ## The loop, one side of a pair at a time -/

/-- The branches of the loop body that a pair takes. -/
def pairSides (env : TokenEnv) (tokenID : TokenID) (pair : PairMetadata) : List PairSide :=
  (if pair.firstTokenID = tokenID then [fromFirstToken env pair] else []) ++
    (if pair.secondTokenID = tokenID then [fromSecondToken env pair] else [])

/-- All branches that the loop over some pairs takes, in their order. -/
def tokenSides (env : TokenEnv) (tokenID : TokenID) (tokenPairs : List PairMetadata) :
    List PairSide :=
  (tokenPairs.filter (hasLiquidity env)).flatMap (pairSides env tokenID)

/-- The loop over branches instead of pairs. -/
def visitSides (env : TokenEnv)
    (compute : TokenID → List PairMetadata → Option (BigNumber × List PairMetadata))
    (sides : List PairSide) (s : PriceSearch) : Option PriceSearch :=
  sides.foldlM (fun s side => visitSide env compute side s) s

/-- The price of a token the walk stops at. -/
def stopPrice (env : TokenEnv) (tokenID : TokenID) : Option BigNumber :=
  if tokenID = env.tokenProviderUSD then some (.fin 1)
  else if tokenID = env.USDC_TOKEN_ID then
    some ((BigNumber.fin 1).dividedBy env.getEgldPriceInUSD)
  else none

section Loop

variable {env : TokenEnv} {pairs visited visited' tokenPairs : List PairMetadata}
  {compute : TokenID → List PairMetadata → Option (BigNumber × List PairMetadata)}
  {p : PairMetadata} {side : PairSide} {sides sides' : List PairSide} {z : TokenID}
  {s s' : PriceSearch} {v : BigNumber}

theorem visitSides_append : visitSides env compute (sides ++ sides') s =
    (visitSides env compute sides s).bind (visitSides env compute sides') := by
  unfold visitSides
  rw [List.foldlM_append]
  rfl

/-- A pair is its branches. -/
theorem visitPair_eq_visitSides (hlive : hasLiquidity env p = true) :
    visitPair env compute z s p = visitSides env compute (pairSides env z p) s := by
  have hside : ∀ (side : PairSide) (token : TokenID) (s : PriceSearch),
      visitSides env compute (if token = z then [side] else []) s =
        if token = z then visitSide env compute side s else some s := by
    intro side token s
    split
    · rw [visitSides, List.foldlM_cons]
      simp
    · rfl
  unfold visitPair pairSides
  rw [if_pos hlive, visitSides_append, hside]
  simp only [hside]

/-- The loop over pairs is the loop over their branches. -/
theorem foldlM_visitPair : tokenPairs.foldlM (visitPair env compute z) s =
    visitSides env compute (tokenSides env z tokenPairs) s := by
  induction tokenPairs generalizing s with
  | nil => rfl
  | cons p rest ih =>
    rw [List.foldlM_cons, tokenSides]
    cases hlive : hasLiquidity env p with
    | false =>
      rw [List.filter_cons_of_neg (by simp [hlive]), visitPair, if_neg (by simp [hlive])]
      exact ih
    | true =>
      rw [List.filter_cons_of_pos hlive, List.flatMap_cons, visitSides_append,
        visitPair_eq_visitSides hlive]
      exact congrArg _ (funext fun _ => ih)

/-- A branch belongs to a pair with liquidity that has the token on that side.
-/
theorem mem_tokenSides : side ∈ tokenSides env z tokenPairs ↔
    ∃ p ∈ tokenPairs, hasLiquidity env p = true ∧
      ((p.firstTokenID = z ∧ side = fromFirstToken env p) ∨
        (p.secondTokenID = z ∧ side = fromSecondToken env p)) := by
  have hsides : ∀ p, side ∈ pairSides env z p ↔
      (p.firstTokenID = z ∧ side = fromFirstToken env p) ∨
        (p.secondTokenID = z ∧ side = fromSecondToken env p) := by
    intro p
    unfold pairSides
    rw [List.mem_append]
    split <;> split <;> simp [*]
  unfold tokenSides
  rw [List.mem_flatMap]
  simp only [List.mem_filter, hsides, and_assoc]

/-- What a call with fuel left can have done. -/
theorem computeTokenPriceDerivedEGLD_cases {fuel : ℕ}
    (h : computeTokenPriceDerivedEGLD env pairs (fuel + 1) z visited = some (v, visited')) :
    (stopPrice env z = some v ∧ visited <+: visited') ∨
      (stopPrice env z = none ∧ ∃ s,
        visitSides env (computeTokenPriceDerivedEGLD env pairs fuel)
          (tokenSides env z (unvisited visited (usablePairs env pairs z)))
          ⟨.fin 0, .fin 0, visited ++ unvisited visited (usablePairs env pairs z)⟩ = some s ∧
        v = s.priceSoFar ∧ visited' = s.pairsNotToVisit) := by
  unfold computeTokenPriceDerivedEGLD at h
  unfold stopPrice
  by_cases hz : z = env.tokenProviderUSD
  · rw [if_pos hz] at h
    obtain ⟨rfl, rfl⟩ := Prod.mk.inj (Option.some.inj h)
    exact Or.inl ⟨if_pos hz, List.prefix_refl _⟩
  · rw [if_neg hz] at h
    dsimp only at h
    by_cases hz' : z = env.USDC_TOKEN_ID
    · rw [if_pos hz'] at h
      obtain ⟨rfl, rfl⟩ := Prod.mk.inj (Option.some.inj h)
      exact Or.inl ⟨by rw [if_neg hz, if_pos hz'], List.prefix_append _ _⟩
    · rw [if_neg hz', foldlM_visitPair] at h
      obtain ⟨s, hs, heq⟩ := Option.map_eq_some_iff.mp h
      obtain ⟨rfl, rfl⟩ := Prod.mk.inj heq
      exact Or.inr ⟨by rw [if_neg hz, if_neg hz'], s, hs, rfl, rfl⟩

/-- A branch leaves the array as its call does, whether it wins or not. -/
theorem visitSide_grows (hcompute : ∀ y visited x visited',
      compute y visited = some (x, visited') → visited <+: visited')
    (h : visitSide env compute side s = some s') : s.pairsNotToVisit <+: s'.pairsNotToVisit := by
  obtain ⟨x, visited, hcall, rfl⟩ := visitSide_eq_some.mp h
  split
  · exact hcompute _ _ _ _ hcall
  · exact hcompute _ _ _ _ hcall

/-- A call only ever adds to the array. -/
theorem computeTokenPriceDerivedEGLD_grows {fuel : ℕ}
    (h : computeTokenPriceDerivedEGLD env pairs fuel z visited = some (v, visited')) :
    visited <+: visited' := by
  induction fuel generalizing z visited v visited' with
  | zero => simp [computeTokenPriceDerivedEGLD] at h
  | succ fuel ih =>
    rcases computeTokenPriceDerivedEGLD_cases h with ⟨-, hgrow⟩ | ⟨-, s, hs, -, rfl⟩
    · exact hgrow
    · refine (List.prefix_append _ _).trans (foldlM_invariant
        (fun _ t => visited ++ unvisited visited (usablePairs env pairs z) <+: t.pairsNotToVisit)
        (List.prefix_refl _) ?_ hs)
      intro pre side post t t' _ ht hvisit
      exact ht.trans (visitSide_grows (fun y U x U' hcall => ih hcall) hvisit)

end Loop

/-! ## Chains of pairs -/

/-- A step the walk may take: from a token through one of its usable pairs
that somebody provides liquidity to. -/
inductive Hop (env : TokenEnv) (pairs : List PairMetadata) (z : TokenID) :
    PairMetadata → PairSide → Prop
  | first {p : PairMetadata} (hz : p.firstTokenID = z) (hp : p ∈ usablePairs env pairs z)
    (hlive : hasLiquidity env p = true) : Hop env pairs z p (fromFirstToken env p)
  | second {p : PairMetadata} (hz : p.secondTokenID = z) (hp : p ∈ usablePairs env pairs z)
    (hlive : hasLiquidity env p = true) : Hop env pairs z p (fromSecondToken env p)

/-- A chain of steps, each from the token the one before leads to. -/
inductive PairChain (env : TokenEnv) (pairs : List PairMetadata) :
    TokenID → List (PairMetadata × PairSide) → TokenID → Prop
  | nil (z : TokenID) : PairChain env pairs z [] z
  | cons {z w : TokenID} {p : PairMetadata} {side : PairSide}
    {chain : List (PairMetadata × PairSide)} (hop : Hop env pairs z p side)
    (rest : PairChain env pairs side.otherTokenID chain w) :
    PairChain env pairs z ((p, side) :: chain) w

/-- The price at the end, carried back along the chain. -/
def chainPrice (chain : List (PairMetadata × PairSide)) (endPrice : BigNumber) : BigNumber :=
  chain.foldr (fun hop price => hop.2.tokenPrice.multipliedBy price) endPrice

/-- Prices that `computeFirstTokenPrice` and `computeSecondTokenPrice` have
answered at some time; the getters keep an answer for a while. -/
structure SpotPrices (env : TokenEnv) : Prop where
  first : ∀ address, ∃ cfg pair, env.firstTokenPrice address = computeFirstTokenPrice cfg pair
  second : ∀ address, ∃ cfg pair,
    env.secondTokenPrice address = computeSecondTokenPrice cfg pair
  egld : ∃ cfg pair, env.getEgldPriceInUSD = computeFirstTokenPrice cfg pair

/-- The price is that of a chain of distinct pairs from the token to one with
a price of its own, none of them visited before. -/
def ChainPriced (env : TokenEnv) (pairs : List PairMetadata) (tokenID : TokenID)
    (pairsNotToVisit : List PairMetadata) (price : BigNumber) : Prop :=
  ∃ chain w endPrice, PairChain env pairs tokenID chain w ∧ stopPrice env w = some endPrice ∧
    (chain.map fun hop => hop.1.address).Nodup ∧
    (∀ hop ∈ chain, isVisited pairsNotToVisit hop.1 = false) ∧ price = chainPrice chain endPrice

section Chains

variable {env : TokenEnv} {pairs visited visited' : List PairMetadata} {p : PairMetadata}
  {side : PairSide} {z w : TokenID} {s s' : PriceSearch} {v x : BigNumber}
  {chain : List (PairMetadata × PairSide)}
  {compute : TokenID → List PairMetadata → Option (BigNumber × List PairMetadata)}

theorem Hop.live (h : Hop env pairs z p side) : hasLiquidity env p = true := by
  cases h with
  | first _ _ hlive => exact hlive
  | second _ _ hlive => exact hlive

/-- A step goes through a usable pair. -/
theorem Hop.usable (h : Hop env pairs z p side) : p ∈ usablePairs env pairs z := by
  cases h with
  | first _ hp _ => exact hp
  | second _ hp _ => exact hp

/-- The sides the loop of a call looks at are the steps from its token
through a pair that is not visited. -/
theorem mem_tokenSides_unvisited :
    side ∈ tokenSides env z (unvisited visited (usablePairs env pairs z)) ↔
      ∃ p, Hop env pairs z p side ∧ isVisited visited p = false := by
  rw [mem_tokenSides]
  constructor
  · rintro ⟨p, hp, hlive, ⟨hz, rfl⟩ | ⟨hz, rfl⟩⟩
    · exact ⟨p, .first hz (mem_unvisited.mp hp).1 hlive, (mem_unvisited.mp hp).2⟩
    · exact ⟨p, .second hz (mem_unvisited.mp hp).1 hlive, (mem_unvisited.mp hp).2⟩
  · rintro ⟨p, hop, hnew⟩
    refine ⟨p, mem_unvisited.mpr ⟨hop.usable, hnew⟩, hop.live, ?_⟩
    cases hop with
    | first hz _ _ => exact Or.inl ⟨hz, rfl⟩
    | second hz _ _ => exact Or.inr ⟨hz, rfl⟩

/-! ### The chain of a price -/

/-- A token without a price locks nothing. -/
theorem egldLocked_zero (env : TokenEnv) (side : PairSide) :
    egldLocked env side (.fin 0) = .fin 0 ∨ egldLocked env side (.fin 0) = .nan := by
  unfold egldLocked
  rcases BigNumber.multipliedBy_zero
    (side.otherTokenReserves.multipliedBy (.fin (1 / 10 ^ side.otherTokenDecimals))) with h | h
  · left
    rw [h, BigNumber.multipliedBy_fin, zero_mul, BigNumber.integerValue_fin, truncate_zero,
      Int.cast_zero]
  · right
    rw [h, BigNumber.nan_multipliedBy]
    rfl

/-- A branch that wins, from a search that has not gone below nothing, has a
price to carry back. -/
theorem ne_zero_of_locksMore (hs : s.largestLiquidityEGLD.isLessThan (.fin 0) = false)
    (h : (egldLocked env side x).isGreaterThan s.largestLiquidityEGLD = true) : x ≠ .fin 0 := by
  rintro rfl
  rcases egldLocked_zero env side with hlocked | hlocked
  · rw [hlocked, BigNumber.isGreaterThan, hs] at h
    exact absurd h (by simp)
  · rw [hlocked] at h
    exact BigNumber.ne_nan_of_isLessThan_right h rfl

/-- A step in front of a chain: its pair is marked for the rest of it, so no
pair comes twice. -/
theorem ChainPriced.cons (hop : Hop env pairs z p side) (hnew : isVisited visited p = false)
    (hmark : isVisited visited' p = true) (hgrow : visited <+: visited')
    (h : ChainPriced env pairs side.otherTokenID visited' x) :
    ChainPriced env pairs z visited (side.tokenPrice.multipliedBy x) := by
  obtain ⟨chain, w, endPrice, hchain, hstop, hdistinct, hfresh, rfl⟩ := h
  refine ⟨(p, side) :: chain, w, endPrice, .cons hop hchain, hstop, ?_, ?_, rfl⟩
  · -- a pair of the chain with the address of `p` would have been found visited
    refine List.nodup_cons.mpr ⟨?_, hdistinct⟩
    intro hmem
    obtain ⟨hop', hhop', haddr⟩ := List.mem_map.mp hmem
    have hvisited : isVisited visited' hop'.1 = true := by
      obtain ⟨q, hq, hqp⟩ := isVisited_iff.mp hmark
      exact isVisited_iff.mpr ⟨q, hq, hqp.trans haddr.symm⟩
    rw [hfresh hop' hhop'] at hvisited
    exact absurd hvisited (by simp)
  · intro hop' hhop'
    rcases List.mem_cons.mp hhop' with rfl | hrest
    · exact hnew
    · rw [Bool.eq_false_iff]
      intro hold
      have hstill := isVisited_mono hgrow hold
      rw [hfresh hop' hrest] at hstill
      exact absurd hstill (by simp)

/-- The loop of a call: what was pushed stays, and the price so far is that
of a chain. -/
structure ChainLoop (env : TokenEnv) (pairs visited pushed : List PairMetadata) (z : TokenID)
    (s : PriceSearch) : Prop where
  grown : pushed <+: s.pairsNotToVisit
  largest : s.largestLiquidityEGLD.isLessThan (.fin 0) = false
  price : s.priceSoFar = .fin 0 ∨ ChainPriced env pairs z visited s.priceSoFar

/-- One branch keeps the price so far that of a chain, or zero. -/
theorem chainLoop_step {pushed : List PairMetadata} (hpushed : visited <+: pushed)
    (hop : Hop env pairs z p side) (hnew : isVisited visited p = false)
    (hmark : isVisited pushed p = true)
    (hcompute : ∀ y U x U', compute y U = some (x, U') →
      U <+: U' ∧ (x = .fin 0 ∨ ChainPriced env pairs y U x))
    (hinv : ChainLoop env pairs visited pushed z s)
    (hrun : visitSide env compute side s = some s') :
    ChainLoop env pairs visited pushed z s' := by
  obtain ⟨x, U', hcall, hs'⟩ := visitSide_eq_some.mp hrun
  obtain ⟨hgrow, hprice⟩ := hcompute _ _ _ _ hcall
  have hgrown := hinv.grown.trans hgrow
  cases hwins : (egldLocked env side x).isGreaterThan s.largestLiquidityEGLD with
  | false =>
    rw [hwins, if_neg (by simp)] at hs'
    rw [hs']
    exact ⟨hgrown, hinv.largest, hinv.price⟩
  | true =>
    rw [hwins, if_pos rfl] at hs'
    rw [hs']
    refine ⟨hgrown, ?_, Or.inr ?_⟩
    · rw [Bool.eq_false_iff]
      intro hneg
      have hlower := BigNumber.isLessThan_trans hwins hneg
      rw [hinv.largest] at hlower
      exact absurd hlower (by simp)
    · have hchain := hprice.resolve_left (ne_zero_of_locksMore hinv.largest hwins)
      exact hchain.cons hop hnew (isVisited_mono hinv.grown hmark) (hpushed.trans hinv.grown)

/-- A price other than zero is that of a chain. -/
theorem chainPriced_of_compute {fuel : ℕ}
    (h : computeTokenPriceDerivedEGLD env pairs fuel z visited = some (v, visited')) :
    v = .fin 0 ∨ ChainPriced env pairs z visited v := by
  induction fuel generalizing z visited v visited' with
  | zero => simp [computeTokenPriceDerivedEGLD] at h
  | succ fuel ih =>
    rcases computeTokenPriceDerivedEGLD_cases h with ⟨hstop, -⟩ | ⟨-, s, hs, rfl, -⟩
    · exact Or.inr ⟨[], z, v, .nil z, hstop, List.nodup_nil, by simp, rfl⟩
    · let pushed := visited ++ unvisited visited (usablePairs env pairs z)
      have hloop : ChainLoop env pairs visited pushed z s := by
        refine foldlM_invariant (fun _ t => ChainLoop env pairs visited pushed z t)
          ⟨List.prefix_refl _, by simp, Or.inl rfl⟩ ?_ hs
        intro pre side post t t' hsides ht hvisit
        have hside : side ∈ tokenSides env z (unvisited visited (usablePairs env pairs z)) := by
          rw [hsides]
          simp
        obtain ⟨p, hop, hnew⟩ := mem_tokenSides_unvisited.mp hside
        have hmark : isVisited pushed p = true :=
          isVisited_of_mem (List.mem_append_right _ (mem_unvisited.mpr ⟨hop.usable, hnew⟩))
        exact chainLoop_step (List.prefix_append _ _) hop hnew hmark
          (fun y U x U' hcall => ⟨computeTokenPriceDerivedEGLD_grows hcall, ih hcall⟩) ht hvisit
      exact hloop.price

/-! ### No price is negative -/

/-- A spot price is a quotient of reserves. -/
theorem isNegative_spotPrice (cfg : WrapConfig) (pair : PairModel) (token other : EsdtToken) :
    (spotPrice cfg pair token other).isNegative = false := by
  obtain ⟨q, hq, hnonneg, -⟩ := spotPrice_spec cfg pair token other
  rw [hq, BigNumber.isNegative_fin, decide_eq_false_iff_not]
  exact not_lt.mpr hnonneg

/-- Nor is a price the walk stops at. -/
theorem isNegative_stopPrice (hspot : SpotPrices env) (h : stopPrice env w = some v) :
    v.isNegative = false := by
  unfold stopPrice at h
  split at h
  · rw [← Option.some.inj h]
    simp
  · split at h
    · obtain ⟨cfg, pair, hegld⟩ := hspot.egld
      obtain ⟨q, hq, hnonneg, -⟩ := spotPrice_spec cfg pair pair.firstToken pair.secondToken
      rw [← Option.some.inj h, hegld, computeFirstTokenPrice, hq]
      by_cases h0 : q = 0
      · rw [h0, BigNumber.dividedBy_zero one_pos]
        rfl
      · rw [BigNumber.dividedBy_fin _ h0, BigNumber.isNegative_fin, decide_eq_false_iff_not]
        exact not_lt.mpr (truncatePlaces_nonneg (div_nonneg zero_le_one hnonneg))
    · cases h

theorem Hop.isNegative_tokenPrice (hspot : SpotPrices env) (hop : Hop env pairs z p side) :
    side.tokenPrice.isNegative = false := by
  cases hop with
  | first _ _ _ =>
    obtain ⟨cfg, pair, hprice⟩ := hspot.first p.address
    show (env.firstTokenPrice p.address).isNegative = false
    rw [hprice]
    exact isNegative_spotPrice _ _ _ _
  | second _ _ _ =>
    obtain ⟨cfg, pair, hprice⟩ := hspot.second p.address
    show (env.secondTokenPrice p.address).isNegative = false
    rw [hprice]
    exact isNegative_spotPrice _ _ _ _

/-- Nor a product of such prices. -/
theorem isNegative_chainPrice (hspot : SpotPrices env) (hchain : PairChain env pairs z chain w)
    (hend : v.isNegative = false) : (chainPrice chain v).isNegative = false := by
  induction hchain with
  | nil => exact hend
  | cons hop _ ih => exact BigNumber.isNegative_multipliedBy (hop.isNegative_tokenPrice hspot) ih

/-! ### Every price is a number -/

/-- Spot prices are finite. -/
theorem Hop.tokenPrice_fin (hspot : SpotPrices env) (hop : Hop env pairs z p side) :
    ∃ q, side.tokenPrice = .fin q := by
  cases hop with
  | first _ _ _ =>
    obtain ⟨cfg, pair, hprice⟩ := hspot.first p.address
    obtain ⟨q, hq, -⟩ := spotPrice_spec cfg pair pair.firstToken pair.secondToken
    exact ⟨q, hprice.trans hq⟩
  | second _ _ _ =>
    obtain ⟨cfg, pair, hprice⟩ := hspot.second p.address
    obtain ⟨q, hq, -⟩ := spotPrice_spec cfg pair pair.secondToken pair.firstToken
    exact ⟨q, hprice.trans hq⟩

/-- The price the walk stops at is finite if the price of EGLD is positive. -/
theorem stopPrice_fin (hspot : SpotPrices env)
    (hegld : env.getEgldPriceInUSD.isGreaterThan (.fin 0) = true)
    (h : stopPrice env w = some v) : ∃ q, v = .fin q := by
  unfold stopPrice at h
  split at h
  · exact ⟨1, (Option.some.inj h).symm⟩
  · split at h
    · obtain ⟨cfg, pair, hprice⟩ := hspot.egld
      obtain ⟨q, hq, -⟩ := spotPrice_spec cfg pair pair.firstToken pair.secondToken
      rw [hprice, computeFirstTokenPrice, hq] at h hegld
      rw [BigNumber.isGreaterThan_fin, decide_eq_true_iff] at hegld
      rw [BigNumber.dividedBy_fin _ hegld.ne'] at h
      exact ⟨_, (Option.some.inj h).symm⟩
    · cases h

/-- Finite prices have a finite product. -/
theorem chainPrice_fin (hspot : SpotPrices env) (hchain : PairChain env pairs z chain w)
    (hend : ∃ q, v = .fin q) : ∃ q, chainPrice chain v = .fin q := by
  induction hchain with
  | nil => exact hend
  | cons hop _ ih =>
    obtain ⟨r, hr⟩ := hop.tokenPrice_fin hspot
    obtain ⟨q, hq⟩ := ih
    refine ⟨r * q, ?_⟩
    rw [chainPrice, List.foldr_cons, ← chainPrice, hq, hr, BigNumber.multipliedBy_fin]

end Chains

/-! ## The supplies only say which pairs have liquidity -/

/-- The loop body reads the supplies through `hasLiquidity` only. -/
theorem visitPair_totalSupply {env : TokenEnv} {totalSupply : String → BigNumber}
    (hlive : ∀ p, hasLiquidity { env with totalSupply } p = hasLiquidity env p)
    (compute : TokenID → List PairMetadata → Option (BigNumber × List PairMetadata))
    (z : TokenID) : visitPair { env with totalSupply } compute z = visitPair env compute z := by
  funext s p
  unfold visitPair
  rw [hlive p]
  rfl

/-- Supplies that leave the same pairs with liquidity give the same walk. -/
theorem computeTokenPriceDerivedEGLD_totalSupply {env : TokenEnv}
    {totalSupply : String → BigNumber}
    (hlive : ∀ p, hasLiquidity { env with totalSupply } p = hasLiquidity env p)
    (pairs : List PairMetadata) (fuel : ℕ) :
    computeTokenPriceDerivedEGLD { env with totalSupply } pairs fuel =
      computeTokenPriceDerivedEGLD env pairs fuel := by
  induction fuel with
  | zero => rfl
  | succ fuel ih =>
    funext z visited
    unfold computeTokenPriceDerivedEGLD
    rw [ih, visitPair_totalSupply hlive]
    rfl

/-! ## Pairs at one point in time -/

/-- What the getters answer when no pair changes in between: prices and
reserves of the same state. -/
structure PairsSnapshot where
  cfg : WrapConfig
  tokenProviderUSD : TokenID
  USDC_TOKEN_ID : TokenID
  EGLDDecimals : ℕ
  WEGLD_USDC : Address
  state : Address → String
  pair : Address → PairModel

/-- The getters of a snapshot. -/
def PairsSnapshot.env (snapshot : PairsSnapshot) : TokenEnv where
  tokenProviderUSD := snapshot.tokenProviderUSD
  USDC_TOKEN_ID := snapshot.USDC_TOKEN_ID
  EGLDDecimals := snapshot.EGLDDecimals
  getEgldPriceInUSD := computeFirstTokenPrice snapshot.cfg (snapshot.pair snapshot.WEGLD_USDC)
  state := snapshot.state
  totalSupply address := .ofNat (snapshot.pair address).info.totalSupply
  firstTokenReserve address := .ofNat (snapshot.pair address).info.reserves0
  secondTokenReserve address := .ofNat (snapshot.pair address).info.reserves1
  firstTokenPrice address := computeFirstTokenPrice snapshot.cfg (snapshot.pair address)
  secondTokenPrice address := computeSecondTokenPrice snapshot.cfg (snapshot.pair address)
  firstTokenDecimals address := (snapshot.pair address).firstToken.decimals
  secondTokenDecimals address := (snapshot.pair address).secondToken.decimals

/-- Its prices are spot prices by construction. -/
theorem PairsSnapshot.spotPrices (snapshot : PairsSnapshot) : SpotPrices snapshot.env where
  first address := ⟨snapshot.cfg, snapshot.pair address, rfl⟩
  second address := ⟨snapshot.cfg, snapshot.pair address, rfl⟩
  egld := ⟨snapshot.cfg, snapshot.pair snapshot.WEGLD_USDC, rfl⟩

/-! ## The price of a token -/

/-- A price is zero or the product along a chain of distinct pairs, each
read from the side it is left on, down to a token with a price of its own;
and no price is negative. -/
theorem computeTokenPriceDerivedEGLD_chain {env : TokenEnv}
    {pairs visited visited' : List PairMetadata} {fuel : ℕ} {z : TokenID} {v : BigNumber}
    (hspot : SpotPrices env)
    (h : computeTokenPriceDerivedEGLD env pairs fuel z visited = some (v, visited')) :
    (v = .fin 0 ∨
      ∃ chain w endPrice, PairChain env pairs z chain w ∧ stopPrice env w = some endPrice ∧
        (chain.map fun hop => hop.1.address).Nodup ∧
        (∀ hop ∈ chain, isVisited visited hop.1 = false) ∧ v = chainPrice chain endPrice) ∧
      v.isNegative = false := by
  have hprice := chainPriced_of_compute h
  refine ⟨hprice, ?_⟩
  rcases hprice with rfl | ⟨chain, w, endPrice, hchain, hstop, -, -, rfl⟩
  · simp
  · exact isNegative_chainPrice hspot hchain (isNegative_stopPrice hspot hstop)

/-- With a price of EGLD every token has one, and it is not negative. -/
theorem tokenPriceDerivedEGLD_fin {env : TokenEnv} (hspot : SpotPrices env)
    (hegld : env.getEgldPriceInUSD.isGreaterThan (.fin 0) = true) (pairs : List PairMetadata)
    (z : TokenID) : ∃ q, tokenPriceDerivedEGLD env pairs z = some (.fin q) ∧ 0 ≤ q := by
  obtain ⟨v, visited, hrun, hprice⟩ := tokenPriceDerivedEGLD_isSome env pairs z
  have hvalue : (∃ q, v = .fin q) ∧ v.isNegative = false := by
    rcases chainPriced_of_compute hrun with rfl | ⟨chain, w, endPrice, hchain, hstop, -, -, rfl⟩
    · exact ⟨⟨0, rfl⟩, by simp⟩
    · exact ⟨chainPrice_fin hspot hchain (stopPrice_fin hspot hegld hstop),
        isNegative_chainPrice hspot hchain (isNegative_stopPrice hspot hstop)⟩
  obtain ⟨⟨q, rfl⟩, hneg⟩ := hvalue
  refine ⟨q, hprice, ?_⟩
  rwa [BigNumber.isNegative_fin, decide_eq_false_iff_not, not_lt] at hneg

/-- EGLD at forty dollars, and a token at a twentieth of an EGLD. -/
def rideSnapshot : PairsSnapshot where
  cfg := ⟨"EGLD", "WEGLD-a28c59"⟩
  tokenProviderUSD := "WEGLD-a28c59"
  USDC_TOKEN_ID := "USDC-a63f36"
  EGLDDecimals := 18
  WEGLD_USDC := "wegld-usdc"
  state := fun _ => "Active"
  pair := fun address =>
    if address = "wegld-usdc" then
      { address, firstToken := ⟨"WEGLD-a28c59", 18⟩, secondToken := ⟨"USDC-a63f36", 6⟩,
        info := ⟨10 ^ 21, 4 * 10 ^ 10, 10 ^ 21⟩, totalFeePercent := .ofRat (3 / 1000) }
    else
      { address, firstToken := ⟨"RIDE-7d18e9", 18⟩, secondToken := ⟨"WEGLD-a28c59", 18⟩,
        info := ⟨2 * 10 ^ 22, 10 ^ 21, 10 ^ 21⟩, totalFeePercent := .ofRat (3 / 1000) }

def ridePairs : List PairMetadata :=
  [⟨"wegld-usdc", "WEGLD-a28c59", "USDC-a63f36"⟩, ⟨"ride-wegld", "RIDE-7d18e9", "WEGLD-a28c59"⟩]

theorem computeTokenPriceDerivedEGLD_chain_ride :
    ∃ v visited, computeTokenPriceDerivedEGLD rideSnapshot.env ridePairs 3 "RIDE-7d18e9" [] =
        some (v, visited) ∧ v = .fin (1 / 20) ∧
      (v = .fin 0 ∨ ∃ chain w endPrice,
        PairChain rideSnapshot.env ridePairs "RIDE-7d18e9" chain w ∧
        stopPrice rideSnapshot.env w = some endPrice ∧
        (chain.map fun hop => hop.1.address).Nodup ∧
        (∀ hop ∈ chain, isVisited [] hop.1 = false) ∧ v = chainPrice chain endPrice) ∧
      v.isNegative = false := by
  have hrun : computeTokenPriceDerivedEGLD rideSnapshot.env ridePairs 3 "RIDE-7d18e9" [] =
      some (.fin (1 / 20), [⟨"ride-wegld", "RIDE-7d18e9", "WEGLD-a28c59"⟩]) := by
    decide +kernel
  exact ⟨_, _, hrun, rfl, computeTokenPriceDerivedEGLD_chain rideSnapshot.spotPrices hrun⟩

end MxExchange.Tokens
