import MxExchange.Tokens.PriceChains
import MxExchange.Collections.ClosedSearch

/-!
# Which tokens get a price

Where a chain of usable pairs leads from a token to one with a price of its
own, and no value on the way is lost by rounding, the price of the token is
positive (`tokenPriceDerivedEGLD_pos`). The calls of the walk may find their
pairs taken by earlier branches and answer zero for a token that has such a
chain; the token the walk started from never suffers from it.

A call that answers zero leaves a dead end (`DeadEnd`): a set of tokens that
have no price of their own and that no pair leaves, except pairs that were
visited before the call. The array of visited pairs is empty at the start,
so the dead end of the outermost call holds every token a chain can reach.

Rounding can lose a value in two places. The EGLD a pair locks is rounded to
whole units and a pair that locks nothing is not used. And the price of the
stable coin is a division, which keeps twenty decimals: with EGLD above
`10 ^ 20` dollars the stable coin is worth nothing, and so is every token
priced through it (`tokenPriceDerivedEGLD_stable_lost`).
-/

namespace MxExchange.Tokens

open MxExchange.Num MxExchange.Pair MxExchange.Collections

/-! ## The liquidity a walk computes -/

/-- The EGLD a pair locks on the other side, before its decimals are cut off. -/
def egldLiquidity (env : TokenEnv) (side : PairSide) (derivedEGLD : BigNumber) : BigNumber :=
  ((side.otherTokenReserves.multipliedBy (.fin (1 / 10 ^ side.otherTokenDecimals))).multipliedBy
    derivedEGLD).multipliedBy (.fin (10 ^ env.EGLDDecimals))

/-- What the loop over the sides of a token computes, and what the calls it
makes compute (`below`). -/
def loopLiquidities (env : TokenEnv)
    (compute : TokenID → List PairMetadata → Option (BigNumber × List PairMetadata))
    (below : TokenID → List PairMetadata → List BigNumber) :
    List PairSide → List PairMetadata → List BigNumber
  | [], _ => []
  | side :: sides, pairsNotToVisit =>
    match compute side.otherTokenID pairsNotToVisit with
    | none => []
    | some (derivedEGLD, pairsNotToVisit') =>
      below side.otherTokenID pairsNotToVisit ++ egldLiquidity env side derivedEGLD ::
        loopLiquidities env compute below sides pairsNotToVisit'

/-- All the liquidity computed on the way by one call. -/
def liquiditiesOnTheWay (env : TokenEnv) (pairsMetadata : List PairMetadata) :
    ℕ → TokenID → List PairMetadata → List BigNumber
  | 0, _, _ => []
  | fuel + 1, tokenID, pairsNotToVisit =>
    let tokenPairs := unvisited pairsNotToVisit (usablePairs env pairsMetadata tokenID)
    if stopPrice env tokenID = none then
      loopLiquidities env (computeTokenPriceDerivedEGLD env pairsMetadata fuel)
        (liquiditiesOnTheWay env pairsMetadata fuel) (tokenSides env tokenID tokenPairs)
        (pairsNotToVisit ++ tokenPairs)
    else []

/-- Liquidity is not lost by the rounding: if positive it is at least one. -/
def survivesRounding (liquidity : BigNumber) : Bool :=
  liquidity.isGreaterThan (.fin 0) → liquidity.integerValue.isLessThan (.fin 1) = false

section Liquidity

variable {env : TokenEnv} {pairs visited visited' : List PairMetadata} {p : PairMetadata}
  {compute : TokenID → List PairMetadata → Option (BigNumber × List PairMetadata)}
  {below : TokenID → List PairMetadata → List BigNumber} {side : PairSide}
  {pre post : List PairSide} {s t : PriceSearch} {x l : BigNumber}

/-- A round of the loop is accounted for, wherever it stands. -/
theorem mem_loopLiquidities (hpre : visitSides env compute pre s = some t)
    (hcall : compute side.otherTokenID t.pairsNotToVisit = some (x, visited'))
    (hl : l = egldLiquidity env side x ∨ l ∈ below side.otherTokenID t.pairsNotToVisit) :
    l ∈ loopLiquidities env compute below (pre ++ side :: post) s.pairsNotToVisit := by
  induction pre generalizing s with
  | nil =>
    obtain rfl : s = t := Option.some.inj hpre
    rw [List.nil_append, loopLiquidities, hcall]
    rcases hl with rfl | hl
    · simp
    · simp [hl]
  | cons first rest ih =>
    rw [visitSides, List.foldlM_cons] at hpre
    obtain ⟨s₁, hs₁, hrest⟩ := Option.bind_eq_some_iff.mp hpre
    obtain ⟨y, U, hfirst, heq⟩ := visitSide_eq_some.mp hs₁
    have hvisited : s₁.pairsNotToVisit = U := by
      rw [heq]
      split <;> rfl
    rw [List.cons_append, loopLiquidities, hfirst]
    refine List.mem_append_right _ (List.mem_cons_of_mem _ ?_)
    rw [← hvisited]
    exact ih hrest

/-- A branch with a positive price and reserves wins against no branch, if its
liquidity is not rounded away. -/
theorem egldLocked_pos (hround : survivesRounding (egldLiquidity env side x) = true)
    (hreserves : side.otherTokenReserves.isGreaterThan (.fin 0) = true)
    (hx : x.isGreaterThan (.fin 0) = true) :
    (egldLocked env side x).isGreaterThan (.fin 0) = true := by
  have hliquidity : (egldLiquidity env side x).isGreaterThan (.fin 0) = true := by
    have hscale : (BigNumber.fin (1 / 10 ^ side.otherTokenDecimals)).isGreaterThan (.fin 0) =
        true := by
      rw [BigNumber.isGreaterThan_fin, decide_eq_true_iff]
      positivity
    have hunit : (BigNumber.fin (10 ^ env.EGLDDecimals)).isGreaterThan (.fin 0) = true := by
      rw [BigNumber.isGreaterThan_fin, decide_eq_true_iff]
      positivity
    exact BigNumber.isGreaterThan_multipliedBy (BigNumber.isGreaterThan_multipliedBy
      (BigNumber.isGreaterThan_multipliedBy hreserves hscale) hx) hunit
  have hlarge := of_decide_eq_true hround hliquidity
  show (egldLiquidity env side x).integerValue.isGreaterThan (.fin 0) = true
  cases hvalue : egldLiquidity env side x with
  | fin q =>
    rw [hvalue, BigNumber.integerValue_fin, BigNumber.isLessThan_fin, decide_eq_false_iff_not,
      not_lt] at hlarge
    rw [BigNumber.integerValue_fin, BigNumber.isGreaterThan_fin, decide_eq_true_iff]
    linarith
  | infinity => rfl
  | nan => simp [hvalue, BigNumber.isGreaterThan, BigNumber.isLessThan] at hliquidity
  | negInfinity => simp [hvalue, BigNumber.isGreaterThan, BigNumber.isLessThan] at hliquidity

end Liquidity

/-! ## Dead ends -/

/-- The tokens a pair leads to. -/
def Leads (env : TokenEnv) (pairs : List PairMetadata) (u : TokenID) (p : PairMetadata)
    (w : TokenID) : Prop :=
  ∃ side, Hop env pairs u p side ∧ side.otherTokenID = w

/-- The pairs a call for the token marks. -/
def Marks (env : TokenEnv) (pairs : List PairMetadata) (u : TokenID) (p : PairMetadata) : Prop :=
  p ∈ usablePairs env pairs u

/-- The pairs a search has visited. -/
def marked (pairs visited : List PairMetadata) : Set PairMetadata :=
  {p | p ∈ pairs ∧ isVisited visited p = true}

/-- What a call for `z` has ruled out. -/
def DeadEnd (env : TokenEnv) (pairs visited : List PairMetadata) (z : TokenID)
    (visited' : List PairMetadata) : Prop :=
  ∃ S : Set TokenID, z ∈ S ∧ (∀ u ∈ S, stopPrice env u = none) ∧
    Closed (Leads env pairs) (Marks env pairs) (marked pairs visited) S (marked pairs visited')

/-- Nothing that enters a price is zero. -/
structure PositivePrices (env : TokenEnv) (pairs : List PairMetadata) : Prop where
  prices : ∀ p ∈ pairs, (env.firstTokenPrice p.address).isGreaterThan (.fin 0) = true ∧
    (env.secondTokenPrice p.address).isGreaterThan (.fin 0) = true
  reserves : ∀ p ∈ pairs, (env.firstTokenReserve p.address).isGreaterThan (.fin 0) = true ∧
    (env.secondTokenReserve p.address).isGreaterThan (.fin 0) = true
  stable : ((BigNumber.fin 1).dividedBy env.getEgldPriceInUSD).isGreaterThan (.fin 0) = true

/-- The loop of a call for `z`, after the sides `pre`: a branch had a price,
or all of them were dead ends. -/
structure SearchInv (env : TokenEnv) (pairs visited : List PairMetadata) (z : TokenID)
    (compute : TokenID → List PairMetadata → Option (BigNumber × List PairMetadata))
    (start : PriceSearch) (pre : List PairSide) (s : PriceSearch) : Prop where
  run : visitSides env compute pre start = some s
  outcome : (s.largestLiquidityEGLD.isGreaterThan (.fin 0) = true ∧
      s.priceSoFar.isGreaterThan (.fin 0) = true) ∨
    (s.largestLiquidityEGLD = .fin 0 ∧ s.priceSoFar = .fin 0 ∧
      ∃ S : Set TokenID, (∀ u ∈ S, stopPrice env u = none) ∧
        (∀ side ∈ pre, side.otherTokenID ∈ S) ∧
        ClosedBut (Leads env pairs) (Marks env pairs) z (marked pairs visited) S
          (marked pairs s.pairsNotToVisit))

section Search

variable {env : TokenEnv} {pairs visited visited' : List PairMetadata} {p : PairMetadata}
  {compute : TokenID → List PairMetadata → Option (BigNumber × List PairMetadata)}
  {side : PairSide} {pre : List PairSide} {start s s' : PriceSearch} {x : BigNumber}
  {u w z : TokenID}

/-- A pair has two tokens and no third. -/
theorem twoEnds : TwoEnds (Leads env pairs) (Marks env pairs) := by
  rintro u p _ w ⟨side, hop, rfl⟩ hmarks huw
  have hhas := has_iff.mp (mem_usablePairs hmarks).2
  cases hop with
  | first hz _ _ => exact hhas.resolve_left fun h => huw (hz.symm.trans h)
  | second hz _ _ => exact hhas.resolve_right fun h => huw (hz.symm.trans h)

/-- A step multiplies with a positive price. -/
theorem Hop.tokenPrice_pos (hpos : PositivePrices env pairs) (hop : Hop env pairs z p side) :
    side.tokenPrice.isGreaterThan (.fin 0) = true := by
  have hp := (mem_usablePairs hop.usable).1
  cases hop with
  | first _ _ _ => exact (hpos.prices p hp).1
  | second _ _ _ => exact (hpos.prices p hp).2

/-- A step leads to a side with reserves. -/
theorem Hop.reserves_pos (hpos : PositivePrices env pairs) (hop : Hop env pairs z p side) :
    side.otherTokenReserves.isGreaterThan (.fin 0) = true := by
  have hp := (mem_usablePairs hop.usable).1
  cases hop with
  | first _ _ _ => exact (hpos.reserves p hp).2
  | second _ _ _ => exact (hpos.reserves p hp).1

/-- One round: a search that has a price keeps one, a branch with a price
gives it one, and a dead end is added to the others. -/
theorem searchInv_step (hpos : PositivePrices env pairs) (hop : Hop env pairs z p side)
    (hround : ∀ x U, compute side.otherTokenID s.pairsNotToVisit = some (x, U) →
      survivesRounding (egldLiquidity env side x) = true)
    (hcompute : ∀ x U, compute side.otherTokenID s.pairsNotToVisit = some (x, U) →
      x.isGreaterThan (.fin 0) = true ∨
        (x = .fin 0 ∧ DeadEnd env pairs s.pairsNotToVisit side.otherTokenID U))
    (hinv : SearchInv env pairs visited z compute start pre s)
    (hrun : visitSide env compute side s = some s') :
    SearchInv env pairs visited z compute start (pre ++ [side]) s' := by
  refine ⟨?_, ?_⟩
  · rw [visitSides_append, hinv.run, Option.bind_some, visitSides, List.foldlM_cons, hrun]
    rfl
  obtain ⟨x, U, hcall, hs'⟩ := visitSide_eq_some.mp hrun
  have hlocked := egldLocked_pos (hround x U hcall) (hop.reserves_pos hpos) (x := x)
  have hprice := BigNumber.isGreaterThan_multipliedBy (hop.tokenPrice_pos hpos) (y := x)
  rcases hcompute x U hcall with hx | ⟨rfl, S', hz', hstop', hclosed'⟩
  · -- whichever of the two locks more, it has a price
    left
    rcases hinv.outcome with ⟨hlargest, hsofar⟩ | ⟨hlargest, -, -⟩
    · rw [hs']
      split
      · exact ⟨hlocked hx, hprice hx⟩
      · exact ⟨hlargest, hsofar⟩
    · rw [hs', hlargest, if_pos (hlocked hx)]
      exact ⟨hlocked hx, hprice hx⟩
  · -- a branch without a price never locks more
    have hloses : ∀ y : BigNumber, y.isLessThan (.fin 0) = false →
        (egldLocked env side (.fin 0)).isGreaterThan y = false := by
      intro y hy
      rcases egldLocked_zero env side with hzero | hzero
      · rw [hzero]
        exact hy
      · rw [hzero]
        cases y <;> rfl
    rcases hinv.outcome with ⟨hlargest, hsofar⟩ | ⟨hlargest, hsofar, S, hstop, hpre, hclosed⟩
    · left
      have hnonneg : s.largestLiquidityEGLD.isLessThan (.fin 0) = false := by
        rw [Bool.eq_false_iff]
        exact BigNumber.isLessThan_asymm hlargest
      rw [hs', hloses _ hnonneg, if_neg (by simp)]
      exact ⟨hlargest, hsofar⟩
    · right
      rw [hs', hloses _ (by simp [hlargest]), if_neg (by simp)]
      refine ⟨hlargest, hsofar, S ∪ S', ?_, ?_, hclosed.branch twoEnds hclosed'⟩
      · rintro u (hu | hu)
        · exact hstop u hu
        · exact hstop' u hu
      · intro other hother
        rcases List.mem_append.mp hother with h | h
        · exact Or.inl (hpre other h)
        · rw [List.mem_singleton.mp h]
          exact Or.inr hz'

/-- A call answers a price or leaves a dead end. -/
theorem priced_or_deadEnd (hdistinct : (pairs.map PairMetadata.address).Nodup)
    (hpos : PositivePrices env pairs) {fuel : ℕ}
    (hround : ∀ l ∈ liquiditiesOnTheWay env pairs fuel z visited, survivesRounding l = true)
    (h : computeTokenPriceDerivedEGLD env pairs fuel z visited = some (x, visited')) :
    x.isGreaterThan (.fin 0) = true ∨ (x = .fin 0 ∧ DeadEnd env pairs visited z visited') := by
  induction fuel generalizing z visited x visited' with
  | zero => simp [computeTokenPriceDerivedEGLD] at h
  | succ fuel ih =>
    rcases computeTokenPriceDerivedEGLD_cases h with ⟨hstop, -⟩ | ⟨hstop, s, hs, rfl, rfl⟩
    · left
      unfold stopPrice at hstop
      split at hstop
      · rw [← Option.some.inj hstop]
        simp
      · split at hstop
        · rw [← Option.some.inj hstop]
          exact hpos.stable
        · cases hstop
    · let tokenPairs := unvisited visited (usablePairs env pairs z)
      let start : PriceSearch := ⟨.fin 0, .fin 0, visited ++ tokenPairs⟩
      have hloop : SearchInv env pairs visited z (computeTokenPriceDerivedEGLD env pairs fuel)
          start (tokenSides env z tokenPairs) s := by
        refine foldlM_invariant (SearchInv env pairs visited z _ start) ?_ ?_ hs
        · refine ⟨rfl, Or.inr ⟨rfl, rfl, {z}, ?_, by simp, .enter ?_⟩⟩
          · rintro u rfl
            exact hstop
          · rintro r ⟨hr, hvisited⟩
            exact (isVisited_pushed hdistinct hr hvisited).imp_left fun hold => ⟨hr, hold⟩
        · intro pre side post t t' hsides hinv hvisit
          have hside : side ∈ tokenSides env z tokenPairs := by
            rw [hsides]
            simp
          obtain ⟨p, hop, -⟩ := mem_tokenSides_unvisited.mp hside
          -- the liquidity of this round and of the call it makes is on the way
          have haccount : ∀ l y U, computeTokenPriceDerivedEGLD env pairs fuel side.otherTokenID
                t.pairsNotToVisit = some (y, U) →
              (l = egldLiquidity env side y ∨
                l ∈ liquiditiesOnTheWay env pairs fuel side.otherTokenID t.pairsNotToVisit) →
              survivesRounding l = true := by
            intro l y U hcall hl
            refine hround l ?_
            rw [liquiditiesOnTheWay, if_pos hstop,
              show tokenSides env z (unvisited visited (usablePairs env pairs z)) =
                pre ++ side :: post from hsides]
            exact mem_loopLiquidities hinv.run hcall hl
          refine searchInv_step hpos hop ?_ ?_ hinv hvisit
          · exact fun y U hcall => haccount _ y U hcall (Or.inl rfl)
          · exact fun y U hcall => ih (fun l hl => haccount l y U hcall (Or.inr hl)) hcall
      rcases hloop.outcome with ⟨-, hprice⟩ | ⟨-, hzero, S, hstops, hsides, hclosed⟩
      · exact Or.inl hprice
      · refine Or.inr ⟨hzero, S, hclosed.entered, hstops, hclosed.leave ?_⟩
        rintro p _ ⟨side, hop, rfl⟩ hnew
        refine hsides side (mem_tokenSides_unvisited.mpr ⟨p, hop, ?_⟩)
        rw [Bool.eq_false_iff]
        exact fun hvisited => hnew ⟨(mem_usablePairs hop.usable).1, hvisited⟩

/-- A chain is a way through the graph. -/
theorem leads_of_pairChain {chain : List (PairMetadata × PairSide)}
    (h : PairChain env pairs z chain w) :
    Relation.ReflTransGen (fun u v => ∃ p, Leads env pairs u p v) z w := by
  induction h with
  | nil => exact .refl
  | cons hop _ ih => exact .head ⟨_, _, hop, rfl⟩ ih

end Search

/-! ## Every token with a chain has a price -/

section Complete

variable {snapshot : PairsSnapshot} {pairs : List PairMetadata} {z w : TokenID}
  {chain : List (PairMetadata × PairSide)}

theorem isGreaterThan_ofNat {n : ℕ} (h : 0 < n) :
    (BigNumber.ofNat n).isGreaterThan (.fin 0) = true := by
  rw [BigNumber.ofNat, BigNumber.isGreaterThan_fin, decide_eq_true_iff]
  exact_mod_cast h

/-- Where the prices are positive the reserves they come from are. -/
theorem PairsSnapshot.positivePrices
    (hspot : ∀ p ∈ pairs,
      (snapshot.env.firstTokenPrice p.address).isGreaterThan (.fin 0) = true ∧
        (snapshot.env.secondTokenPrice p.address).isGreaterThan (.fin 0) = true)
    (hstable : ((BigNumber.fin 1).dividedBy snapshot.env.getEgldPriceInUSD).isGreaterThan
      (.fin 0) = true) :
    PositivePrices snapshot.env pairs where
  prices := hspot
  reserves p hp := by
    obtain ⟨hfirst, hsecond⟩ := reserves_pos_of_spotPrice (hspot p hp).1
    exact ⟨isGreaterThan_ofNat hfirst, isGreaterThan_ofNat hsecond⟩
  stable := hstable

/-- A token with a chain of usable pairs to one that has a price of its own
is priced, if no price and no liquidity is rounded to nothing. -/
theorem tokenPriceDerivedEGLD_pos (hdistinct : (pairs.map PairMetadata.address).Nodup)
    (hchain : PairChain snapshot.env pairs z chain w)
    (hend : w = snapshot.tokenProviderUSD ∨ w = snapshot.USDC_TOKEN_ID)
    (hspot : ∀ p ∈ pairs,
      (snapshot.env.firstTokenPrice p.address).isGreaterThan (.fin 0) = true ∧
        (snapshot.env.secondTokenPrice p.address).isGreaterThan (.fin 0) = true)
    (hstable : ((BigNumber.fin 1).dividedBy snapshot.env.getEgldPriceInUSD).isGreaterThan
      (.fin 0) = true)
    (hround : ∀ l ∈ liquiditiesOnTheWay snapshot.env pairs (pairs.length + 1) z [],
      survivesRounding l = true) :
    ∃ price, tokenPriceDerivedEGLD snapshot.env pairs z = some price ∧
      price.isGreaterThan (.fin 0) = true := by
  obtain ⟨price, visited, hrun, hprice⟩ := tokenPriceDerivedEGLD_isSome snapshot.env pairs z
  refine ⟨price, hprice, ?_⟩
  rcases priced_or_deadEnd hdistinct (PairsSnapshot.positivePrices hspot hstable) hround hrun with
    hpos | ⟨-, S, hz, hstop, hclosed⟩
  · exact hpos
  · -- nothing was visited at the start, so the dead end holds the end of the chain
    have hempty : marked pairs [] = ∅ := by simp [marked, isVisited]
    rw [hempty] at hclosed
    have hnone := hstop w (hclosed.mem_of_walk hz (leads_of_pairChain hchain))
    have hsome : stopPrice snapshot.env w ≠ none := by
      show (if w = snapshot.tokenProviderUSD then _ else
        if w = snapshot.USDC_TOKEN_ID then _ else none) ≠ none
      rcases hend with h | h
      · rw [if_pos h]
        simp
      · rw [if_pos h]
        split <;> simp
    exact absurd hnone hsome

theorem tokenPriceDerivedEGLD_pos_ride :
    ∃ price, tokenPriceDerivedEGLD rideSnapshot.env ridePairs "RIDE-7d18e9" = some price ∧
      price.isGreaterThan (.fin 0) = true := by
  have hhop : Hop rideSnapshot.env ridePairs "RIDE-7d18e9"
      ⟨"ride-wegld", "RIDE-7d18e9", "WEGLD-a28c59"⟩ _ :=
    .first rfl (by decide +kernel) (by decide +kernel)
  exact tokenPriceDerivedEGLD_pos (by decide) (.cons hhop (.nil _)) (Or.inl rfl)
    (by decide +kernel) (by decide +kernel) (by decide +kernel)

/-- EGLD at three hundred million million million dollars. -/
def dearSnapshot : PairsSnapshot where
  cfg := ⟨"EGLD", "WEGLD-a28c59"⟩
  tokenProviderUSD := "WEGLD-a28c59"
  USDC_TOKEN_ID := "USDC-a63f36"
  EGLDDecimals := 18
  WEGLD_USDC := "wegld-usdc"
  state := fun _ => "Active"
  pair := fun address =>
    if address = "wegld-usdc" then
      { address, firstToken := ⟨"WEGLD-a28c59", 18⟩, secondToken := ⟨"USDC-a63f36", 6⟩,
        info := ⟨1, 3 * 10 ^ 8, 1000⟩, totalFeePercent := .ofRat (3 / 1000) }
    else
      { address, firstToken := ⟨"UTK-2f80e9", 18⟩, secondToken := ⟨"USDC-a63f36", 6⟩,
        info := ⟨10 ^ 21, 10 ^ 9, 10 ^ 21⟩, totalFeePercent := .ofRat (3 / 1000) }

def dearPairs : List PairMetadata :=
  [⟨"wegld-usdc", "WEGLD-a28c59", "USDC-a63f36"⟩, ⟨"utk-usdc", "UTK-2f80e9", "USDC-a63f36"⟩]

/-- The stable coin's price is rounded to nothing, and a token that is paired
with it has no price although nothing else is lost. -/
theorem tokenPriceDerivedEGLD_stable_lost :
    (dearPairs.map PairMetadata.address).Nodup ∧
      (∃ chain, PairChain dearSnapshot.env dearPairs "UTK-2f80e9" chain
        dearSnapshot.USDC_TOKEN_ID) ∧
      (∀ p ∈ dearPairs,
        (dearSnapshot.env.firstTokenPrice p.address).isGreaterThan (.fin 0) = true ∧
          (dearSnapshot.env.secondTokenPrice p.address).isGreaterThan (.fin 0) = true) ∧
      dearSnapshot.env.getEgldPriceInUSD.isGreaterThan (.fin 0) = true ∧
      (∀ l ∈ liquiditiesOnTheWay dearSnapshot.env dearPairs (dearPairs.length + 1)
        "UTK-2f80e9" [], survivesRounding l = true) ∧
      tokenPriceDerivedEGLD dearSnapshot.env dearPairs "UTK-2f80e9" = some (.fin 0) := by
  have hhop : Hop dearSnapshot.env dearPairs "UTK-2f80e9"
      ⟨"utk-usdc", "UTK-2f80e9", "USDC-a63f36"⟩ _ :=
    .first rfl (by decide +kernel) (by decide +kernel)
  refine ⟨by decide, ⟨_, .cons hhop (.nil _)⟩, ?_, ?_, ?_, ?_⟩
  · decide +kernel
  · decide +kernel
  · decide +kernel
  · decide +kernel

end Complete

end MxExchange.Tokens
