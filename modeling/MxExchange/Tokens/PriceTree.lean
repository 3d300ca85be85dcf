import MxExchange.Tokens.Price
import MxExchange.Collections.Bridges

/-!
# Prices along a tree of pairs

What the walk of `computeTokenPriceDerivedEGLD` is for, without its array of
visited pairs: a token is priced by the pair that locks the most EGLD among
those it was not reached through, and the token on the other side of a pair
is priced in the same way (`TreePrice`).

Where the pairs around a token form a tree the walk computes just that
(`treePrice_of_compute`). The invariant is `Admissible`: behind the pair a
call came through, nothing is visited yet that could matter there. A call
marks pairs of the tokens it can reach only, and the loop of the caller
hands disjoint parts of the tree to its branches (`admissible_child`), so
the invariant survives from one branch to the next.
-/

namespace MxExchange.Tokens

open MxExchange.Num MxExchange.Pair MxExchange.Collections

/-! ## The graph the walk moves in -/

def otherTokenID (tokenID : TokenID) (pair : PairMetadata) : TokenID :=
  if pair.firstTokenID = tokenID then pair.secondTokenID else pair.firstTokenID

/-- Pairs somebody provides liquidity to, between tokens the walk does not
stop at, as far as it would take them from one side or the other. -/
def priceGraph (env : TokenEnv) (pairs : List PairMetadata) : Graph TokenID PairMetadata where
  vertexSet := Set.univ
  IsLink p u w := hasLiquidity env p = true ∧ u ≠ env.tokenProviderUSD ∧
    w ≠ env.tokenProviderUSD ∧ (p ∈ usablePairs env pairs u ∨ p ∈ usablePairs env pairs w) ∧
    ((p.firstTokenID = u ∧ p.secondTokenID = w) ∨ (p.firstTokenID = w ∧ p.secondTokenID = u))
  isLink_symm := by
    intro p _
    constructor
    rintro u w ⟨hlive, hu, hw, huse, hends⟩
    exact ⟨hlive, hw, hu, huse.symm, hends.symm⟩
  eq_or_eq_of_isLink_of_isLink := by
    rintro p u w u' w' ⟨-, -, -, -, hends⟩ ⟨-, -, -, -, hends'⟩
    rcases hends with ⟨h₁, h₂⟩ | ⟨h₁, h₂⟩ <;> rcases hends' with ⟨h₃, h₄⟩ | ⟨h₃, h₄⟩
    · exact Or.inl (h₁.symm.trans h₃)
    · exact Or.inr (h₁.symm.trans h₃)
    · exact Or.inr (h₂.symm.trans h₄)
    · exact Or.inl (h₂.symm.trans h₄)
  left_mem_of_isLink := fun _ _ _ _ => trivial

section Graph

variable {env : TokenEnv} {pairs pairs' : List PairMetadata} {p r : PairMetadata}
  {t u v z : TokenID} {g : Option PairMetadata}

theorem has_otherTokenID (h : p.has z = true) :
    (p.firstTokenID = z ∧ p.secondTokenID = otherTokenID z p) ∨
      (p.firstTokenID = otherTokenID z p ∧ p.secondTokenID = z) := by
  unfold otherTokenID
  by_cases hfirst : p.firstTokenID = z
  · rw [if_pos hfirst]
    exact Or.inl ⟨hfirst, rfl⟩
  · rw [if_neg hfirst]
    exact Or.inr ⟨rfl, (has_iff.mp h).resolve_left hfirst⟩

theorem isLink_otherTokenID (hp : p ∈ usablePairs env pairs z)
    (hlive : hasLiquidity env p = true) (hz : z ≠ env.tokenProviderUSD)
    (hother : otherTokenID z p ≠ env.tokenProviderUSD) :
    (priceGraph env pairs).IsLink p z (otherTokenID z p) :=
  ⟨hlive, hz, hother, Or.inl hp, has_otherTokenID (mem_usablePairs hp).2⟩

/-- A usable pair of one token that is a pair of another as well joins them. -/
theorem isLink_of_has (hr : r ∈ usablePairs env pairs u) (hlive : hasLiquidity env r = true)
    (hu : u ≠ env.tokenProviderUSD) (hv : v ≠ env.tokenProviderUSD) (hhas : r.has v = true)
    (hne : v ≠ u) : (priceGraph env pairs).IsLink r u v := by
  refine ⟨hlive, hu, hv, Or.inl hr, ?_⟩
  rcases has_iff.mp (mem_usablePairs hr).2 with h | h <;> rcases has_iff.mp hhas with h' | h'
  · exact absurd (h'.symm.trans h) hne
  · exact Or.inl ⟨h, h'⟩
  · exact Or.inr ⟨h', h⟩
  · exact absurd (h'.symm.trans h) hne

theorem ne_provider_of_reach (h : Reach (priceGraph env pairs) g z u)
    (hz : z ≠ env.tokenProviderUSD) : u ≠ env.tokenProviderUSD := by
  induction h with
  | refl => exact hz
  | tail _ hstep _ =>
    obtain ⟨p, -, hlink⟩ := hstep
    exact hlink.2.2.1

/-- The graph does not know the order of the list. -/
theorem priceGraph_perm (env : TokenEnv) (h : pairs.Perm pairs') :
    priceGraph env pairs = priceGraph env pairs' := by
  have husable : ∀ (p : PairMetadata) (u : TokenID),
      p ∈ usablePairs env pairs u ↔ p ∈ usablePairs env pairs' u :=
    fun p u => (usablePairs_perm h u).mem_iff
  refine Graph.ext rfl ?_
  intro p u w
  simp only [priceGraph, husable]

end Graph

/-! ## The price along the tree -/

/-- The view of a pair from one of its tokens. -/
def sideFrom (env : TokenEnv) (tokenID : TokenID) (pair : PairMetadata) : PairSide :=
  if pair.firstTokenID = tokenID then fromFirstToken env pair else fromSecondToken env pair

theorem sideFrom_otherTokenID (env : TokenEnv) (z : TokenID) (p : PairMetadata) :
    (sideFrom env z p).otherTokenID = otherTokenID z p := by
  unfold sideFrom otherTokenID
  split <;> rfl

/-- The EGLD a pair locks on the other side, and the price it offers. -/
def offer (env : TokenEnv) (tokenID : TokenID) (pair : PairMetadata) (derivedEGLD : BigNumber) :
    BigNumber × BigNumber :=
  (egldLocked env (sideFrom env tokenID pair) derivedEGLD,
    (sideFrom env tokenID pair).tokenPrice.multipliedBy derivedEGLD)

/-- The comparison of the loop. -/
def locksMore (x y : BigNumber × BigNumber) : Bool := x.1.isGreaterThan y.1

theorem locksMore_comparison : Comparison locksMore (.fin 0, .fin 0) where
  trans hxy hyz := BigNumber.isLessThan_trans hyz hxy
  irrefl x := BigNumber.isLessThan_irrefl x.1
  split hxz hy := (BigNumber.isLessThan_or_of_lt hxz (BigNumber.ne_nan_of_isLessThan_right hy)).symm

def bestOffer (offers : List (BigNumber × BigNumber)) : BigNumber × BigNumber :=
  firstBest locksMore (.fin 0, .fin 0) offers

/-- The pairs of a token that may price it, coming through the pair `g`. -/
def branches (env : TokenEnv) (pairs : List PairMetadata) (tokenID : TokenID)
    (g : Option PairMetadata) : List PairMetadata :=
  (usablePairs env pairs tokenID).filter fun pair => hasLiquidity env pair ∧ some pair ≠ g

/-- The price of a token reached through the pair `g`, each token being
priced by its best offer. -/
inductive TreePrice (env : TokenEnv) (pairs : List PairMetadata) :
    TokenID → Option PairMetadata → BigNumber → Prop
  | provider {z : TokenID} {g : Option PairMetadata} (hz : z = env.tokenProviderUSD) :
    TreePrice env pairs z g (.fin 1)
  | usdc {z : TokenID} {g : Option PairMetadata} (hz : z ≠ env.tokenProviderUSD)
    (hz' : z = env.USDC_TOKEN_ID) :
    TreePrice env pairs z g ((BigNumber.fin 1).dividedBy env.getEgldPriceInUSD)
  | best {z : TokenID} {g : Option PairMetadata} (derivedEGLD : PairMetadata → BigNumber)
    (hz : z ≠ env.tokenProviderUSD) (hz' : z ≠ env.USDC_TOKEN_ID)
    (hbelow : ∀ p ∈ branches env pairs z g,
      TreePrice env pairs (otherTokenID z p) (some p) (derivedEGLD p)) :
    TreePrice env pairs z g
      (bestOffer ((branches env pairs z g).map fun p => offer env z p (derivedEGLD p))).2

section TreePrice

variable {env : TokenEnv} {pairs pairs' : List PairMetadata} {p q : PairMetadata}
  {t z : TokenID} {g : Option PairMetadata} {x y : BigNumber}

theorem mem_branches : p ∈ branches env pairs z g ↔
    p ∈ usablePairs env pairs z ∧ hasLiquidity env p = true ∧ some p ≠ g := by
  simp [branches]

theorem TreePrice.eq_of_provider (h : TreePrice env pairs z g x) (hz : z = env.tokenProviderUSD) :
    x = .fin 1 := by
  cases h with
  | provider => rfl
  | usdc hne => exact absurd hz hne
  | best _ hne => exact absurd hz hne

theorem TreePrice.eq_of_usdc (h : TreePrice env pairs z g x) (hz : z ≠ env.tokenProviderUSD)
    (hz' : z = env.USDC_TOKEN_ID) : x = (BigNumber.fin 1).dividedBy env.getEgldPriceInUSD := by
  cases h with
  | provider heq => exact absurd heq hz
  | usdc => rfl
  | best _ _ hne => exact absurd hz' hne

/-- Any other token has the price of its best offer. -/
theorem TreePrice.exists_best (h : TreePrice env pairs z g x) (hz : z ≠ env.tokenProviderUSD)
    (hz' : z ≠ env.USDC_TOKEN_ID) :
    ∃ derivedEGLD : PairMetadata → BigNumber,
      (∀ p ∈ branches env pairs z g,
        TreePrice env pairs (otherTokenID z p) (some p) (derivedEGLD p)) ∧
      x = (bestOffer ((branches env pairs z g).map fun p => offer env z p (derivedEGLD p))).2 := by
  cases h with
  | provider heq => exact absurd heq hz
  | usdc _ heq => exact absurd heq hz'
  | best d _ _ hbelow => exact ⟨d, hbelow, rfl⟩

/-- There is one tree price at most. -/
theorem TreePrice.unique (hx : TreePrice env pairs z g x) (hy : TreePrice env pairs z g y) :
    x = y := by
  induction hx generalizing y with
  | provider hz => exact (hy.eq_of_provider hz).symm
  | usdc hz hz' => exact (hy.eq_of_usdc hz hz').symm
  | best d hz hz' _ ih =>
    obtain ⟨d', hbelow', rfl⟩ := hy.exists_best hz hz'
    congr 2
    refine List.map_congr_left ?_
    intro p hp
    rw [ih p hp (hbelow' p hp)]

end TreePrice

/-! ## What a call may find visited, and what it leaves visited -/

/-- A call for `z`, come through `g`: behind `g` no pair is visited that the
walk could still want, but `g` itself is. -/
structure Admissible (env : TokenEnv) (pairs visited : List PairMetadata) (z : TokenID)
    (g : Option PairMetadata) : Prop where
  behind : ∀ u r, Reach (priceGraph env pairs) g z u → r ∈ usablePairs env pairs u →
    hasLiquidity env r = true → isVisited visited r = true → g = some r
  through : ∀ p, g = some p → isVisited visited p = true ∧ (priceGraph env pairs).Inc p z

/-- What is visited after the branches `pre` of a call for `z`: what was
before, the pairs of `z`, and pairs of tokens behind one of the branches. -/
def Explored (env : TokenEnv) (pairs visited pre : List PairMetadata) (z : TokenID)
    (visited' : List PairMetadata) : Prop :=
  ∀ r ∈ pairs, isVisited visited' r = true → isVisited visited r = true ∨
    r ∈ usablePairs env pairs z ∨
    ∃ q ∈ pre, hasLiquidity env q = true ∧ otherTokenID z q ≠ env.tokenProviderUSD ∧
      ∃ u, Reach (priceGraph env pairs) (some q) (otherTokenID z q) u ∧
        r ∈ usablePairs env pairs u

section Invariant

variable {env : TokenEnv} {pairs visited visited' pre : List PairMetadata} {p q r : PairMetadata}
  {t u v z : TokenID} {g : Option PairMetadata}

theorem through_ne (hadm : Admissible env pairs visited z g) (hnew : isVisited visited p = false) :
    g ≠ some p := by
  intro heq
  rw [(hadm.through p heq).1] at hnew
  exact absurd hnew (by simp)

theorem inc_through (hadm : Admissible env pairs visited z g) :
    ∀ e, g = some e → (priceGraph env pairs).Inc e z :=
  fun e he => (hadm.through e he).2

/-- Behind a new branch of `z` no pair of `z` can be used but the branch. -/
theorem eq_of_usable_near (hG : TreeFrom (priceGraph env pairs) t)
    (ht : Reach (priceGraph env pairs) none t z) (hz : z ≠ env.tokenProviderUSD)
    (hp : (priceGraph env pairs).IsLink p z (otherTokenID z p))
    (hu : Reach (priceGraph env pairs) (some p) (otherTokenID z p) u)
    (hr : r ∈ usablePairs env pairs u) (hlive : hasLiquidity env r = true)
    (hhas : r.has z = true) : r = p := by
  have hne : z ≠ u := by
    rintro rfl
    exact not_reach_near hG ht hp hu
  have hu' := ne_provider_of_reach hu hp.2.2.1
  exact eq_of_isLink_near hG ht hp hu (isLink_of_has hr hlive hu' hz hhas hne)

/-- Two branches of `z` do not meet: a pair usable behind the one is not a
pair of a token behind the other. -/
theorem not_usable_behind_both (hG : TreeFrom (priceGraph env pairs) t)
    (ht : Reach (priceGraph env pairs) none t z)
    (hp : (priceGraph env pairs).IsLink p z (otherTokenID z p))
    (hq : (priceGraph env pairs).IsLink q z (otherTokenID z q)) (hne : q ≠ p)
    (hu : Reach (priceGraph env pairs) (some p) (otherTokenID z p) u)
    (hv : Reach (priceGraph env pairs) (some q) (otherTokenID z q) v)
    (hr : r ∈ usablePairs env pairs u) (hlive : hasLiquidity env r = true)
    (hhas : r.has v = true) : False := by
  have hu' := ne_provider_of_reach hu hp.2.2.1
  have hv' := ne_provider_of_reach hv hq.2.2.1
  refine regions_disjoint (r := r) hG ht hp hq hne hu hv ?_
  by_cases huv : u = v
  · exact Or.inl huv
  · exact Or.inr (isLink_of_has hr hlive hu' hv' hhas (Ne.symm huv))

/-- The call a branch makes is admissible if the caller's was, whatever
branches came before. -/
theorem admissible_child (hG : TreeFrom (priceGraph env pairs) t)
    (ht : Reach (priceGraph env pairs) none t z) (hz : z ≠ env.tokenProviderUSD)
    (hadm : Admissible env pairs visited z g) (hpre : ∀ q ∈ pre, q ∈ usablePairs env pairs z)
    (hexp : Explored env pairs visited pre z visited') (hp : p ∈ usablePairs env pairs z)
    (hlive : hasLiquidity env p = true) (hnew : isVisited visited p = false) (hfresh : p ∉ pre)
    (hmark : isVisited visited' p = true) (hother : otherTokenID z p ≠ env.tokenProviderUSD) :
    Admissible env pairs visited' (otherTokenID z p) (some p) := by
  have hlink := isLink_otherTokenID hp hlive hz hother
  constructor
  · intro u r hu hr hrlive hvis
    have hrp : r = p := by
      rcases hexp r (mem_usablePairs hr).1 hvis with hold | hnear | ⟨q, hq, hqlive, hq', v, hv, hrv⟩
      · -- visited before: it is the pair the caller came through, which is not behind `p`
        have hgu := reach_through hG ht hlink (inc_through hadm) (through_ne hadm hnew) hu
        have hgr := hadm.behind u r hgu hr hrlive hold
        obtain ⟨w, hw⟩ := inc_through hadm r hgr
        refine eq_of_usable_near hG ht hz hlink hu hr hrlive ?_
        exact has_iff.mpr (hw.2.2.2.2.imp And.left And.right)
      · exact eq_of_usable_near hG ht hz hlink hu hr hrlive (mem_usablePairs hnear).2
      · have hqp : q ≠ p := fun heq => hfresh (heq ▸ hq)
        have hqlink := isLink_otherTokenID (hpre q hq) hqlive hz hq'
        exact (not_usable_behind_both hG ht hlink hqlink hqp hu hv hr hrlive
          (mem_usablePairs hrv).2).elim
    rw [hrp]
  · intro q hq
    rw [← Option.some.inj hq]
    exact ⟨hmark, z, hlink.symm⟩

end Invariant

/-! ## The walk computes the tree price -/

/-- What a call for `z`, come through `g`, has done. -/
structure Computed (env : TokenEnv) (pairs visited : List PairMetadata) (z : TokenID)
    (g : Option PairMetadata) (x : BigNumber) (visited' : List PairMetadata) : Prop where
  price : TreePrice env pairs z g x
  grows : visited <+: visited'
  stays : ∀ r ∈ pairs, isVisited visited' r = true → isVisited visited r = true ∨
    z ≠ env.tokenProviderUSD ∧
      ∃ u, Reach (priceGraph env pairs) g z u ∧ r ∈ usablePairs env pairs u

/-- The loop of a call for `z` after the branches `pre`; `pushed` is the
array it started with. -/
structure LoopInv (env : TokenEnv) (pairs visited pushed : List PairMetadata) (z : TokenID)
    (pre : List PairMetadata) (s : PriceSearch) : Prop where
  priced : ∃ d : PairMetadata → BigNumber,
    (∀ p ∈ pre, hasLiquidity env p = true →
      TreePrice env pairs (otherTokenID z p) (some p) (d p)) ∧
    (s.largestLiquidityEGLD, s.priceSoFar) =
      bestOffer ((pre.filter (hasLiquidity env)).map fun p => offer env z p (d p))
  explored : Explored env pairs visited pre z s.pairsNotToVisit
  grown : pushed <+: s.pairsNotToVisit

section Run

variable {env : TokenEnv} {pairs visited visited' pushed pre : List PairMetadata}
  {compute : TokenID → List PairMetadata → Option (BigNumber × List PairMetadata)}
  {p : PairMetadata} {t z : TokenID} {g : Option PairMetadata} {s s' : PriceSearch}

/-- A pair of two tokens takes one branch of the loop body. -/
theorem visitPair_eq (hlive : hasLiquidity env p = true) (hhas : p.has z = true)
    (hloop : otherTokenID z p ≠ z) :
    visitPair env compute z s p = visitSide env compute (sideFrom env z p) s := by
  unfold visitPair sideFrom
  unfold otherTokenID at hloop
  rw [if_pos hlive]
  by_cases hfirst : p.firstTokenID = z
  · rw [if_pos hfirst] at hloop
    rw [if_pos hfirst, if_pos hfirst]
    simp [hloop]
  · rw [if_neg hfirst, if_neg hfirst, Option.bind_some,
      if_pos ((has_iff.mp hhas).resolve_left hfirst)]

theorem otherTokenID_ne (hG : TreeFrom (priceGraph env pairs) t)
    (ht : Reach (priceGraph env pairs) none t z) (hz : z ≠ env.tokenProviderUSD)
    (hp : p ∈ usablePairs env pairs z) (hlive : hasLiquidity env p = true) :
    otherTokenID z p ≠ z := by
  intro heq
  have hlink := isLink_otherTokenID hp hlive hz (by rwa [heq])
  rw [heq] at hlink
  exact hG ht hlink (.refl z)

/-- What the pairs walked through so far left explored stays explored. -/
theorem Explored.concat (h : Explored env pairs visited pre z visited') (p : PairMetadata) :
    Explored env pairs visited (pre ++ [p]) z visited' := by
  intro r hr hvis
  refine (h r hr hvis).imp_right (Or.imp_right ?_)
  rintro ⟨q, hq, hrest⟩
  exact ⟨q, List.mem_append_left _ hq, hrest⟩

/-- A pair that nobody provides liquidity to is skipped. -/
theorem LoopInv.skip (hinv : LoopInv env pairs visited pushed z pre s)
    (hlive : hasLiquidity env p = false) :
    LoopInv env pairs visited pushed z (pre ++ [p]) s := by
  obtain ⟨d, hd, hbest⟩ := hinv.priced
  refine ⟨⟨d, ?_, ?_⟩, hinv.explored.concat p, hinv.grown⟩
  · intro q hq hqlive
    rcases List.mem_append.mp hq with hq' | hq'
    · exact hd q hq' hqlive
    · rw [List.mem_singleton.mp hq', hlive] at hqlive
      exact absurd hqlive (by simp)
  · rw [List.filter_append, List.filter_cons_of_neg (by simp [hlive]), List.filter_nil,
      List.append_nil]
    exact hbest

/-- The branch taken, as a comparison of offers. -/
theorem visitSide_offer {x : BigNumber} {U' : List PairMetadata}
    (hs' : s' = if (egldLocked env (sideFrom env z p) x).isGreaterThan s.largestLiquidityEGLD then
      ⟨egldLocked env (sideFrom env z p) x, (sideFrom env z p).tokenPrice.multipliedBy x, U'⟩
    else { s with pairsNotToVisit := U' }) :
    s'.pairsNotToVisit = U' ∧ (s'.largestLiquidityEGLD, s'.priceSoFar) =
      if locksMore (offer env z p x) (s.largestLiquidityEGLD, s.priceSoFar) then
        offer env z p x
      else (s.largestLiquidityEGLD, s.priceSoFar) := by
  rw [hs']
  refine ⟨by split <;> rfl, ?_⟩
  show _ = if (egldLocked env (sideFrom env z p) x).isGreaterThan s.largestLiquidityEGLD = true
    then offer env z p x else _
  split <;> rfl

/-- The offers of the pairs before do not depend on the price of another one. -/
theorem map_offer_update {d : PairMetadata → BigNumber} (hfresh : p ∉ pre) (x : BigNumber) :
    (pre.filter (hasLiquidity env)).map (fun q => offer env z q (Function.update d p x q)) =
      (pre.filter (hasLiquidity env)).map fun q => offer env z q (d q) := by
  refine List.map_congr_left ?_
  intro q hq
  have hqp : q ≠ p := fun heq => hfresh (heq ▸ List.mem_of_mem_filter hq)
  rw [Function.update_of_ne hqp]

/-- One round of the loop. -/
theorem loopInv_step (hG : TreeFrom (priceGraph env pairs) t)
    (ht : Reach (priceGraph env pairs) none t z) (hz : z ≠ env.tokenProviderUSD)
    (hadm : Admissible env pairs visited z g)
    (hcompute : ∀ y U x U' p, compute y U = some (x, U') →
      (y ≠ env.tokenProviderUSD → Reach (priceGraph env pairs) none t y ∧
        Admissible env pairs U y (some p)) →
      Computed env pairs U y (some p) x U')
    (hpre : ∀ q ∈ pre, q ∈ usablePairs env pairs z) (hp : p ∈ usablePairs env pairs z)
    (hnew : isVisited visited p = false) (hfresh : p ∉ pre) (hmark : p ∈ pushed)
    (hinv : LoopInv env pairs visited pushed z pre s)
    (hrun : visitPair env compute z s p = some s') :
    LoopInv env pairs visited pushed z (pre ++ [p]) s' := by
  -- a pair without liquidity is no branch, and the loop skips it
  cases hlive : hasLiquidity env p with
  | false =>
    have hs : s = s' := by simpa [visitPair, hlive] using hrun
    exact hs ▸ hinv.skip hlive
  | true =>
    obtain ⟨d, hd, hbest⟩ := hinv.priced
    rw [visitPair_eq hlive (mem_usablePairs hp).2 (otherTokenID_ne hG ht hz hp hlive)] at hrun
    obtain ⟨x, U', hcall, hs'⟩ := visitSide_eq_some.mp hrun
    rw [sideFrom_otherTokenID] at hcall
    have hdone : Computed env pairs s.pairsNotToVisit (otherTokenID z p) (some p) x U' := by
      refine hcompute _ _ _ _ _ hcall ?_
      intro hother
      have hlink := isLink_otherTokenID hp hlive hz hother
      refine ⟨ht.tail hlink (by simp), ?_⟩
      exact admissible_child hG ht hz hadm hpre hinv.explored hp hlive hnew hfresh
        (isVisited_mono hinv.grown (isVisited_of_mem hmark)) hother
    obtain ⟨hvisited, hbest'⟩ := visitSide_offer hs'
    -- the new branch comes last among the offers, as the loop goes through the pairs in
    -- order
    refine ⟨⟨Function.update d p x, ?_, ?_⟩, ?_, ?_⟩
    · intro q hq hqlive
      rcases List.mem_append.mp hq with hq' | hq'
      · have hqp : q ≠ p := fun heq => hfresh (heq ▸ hq')
        rw [Function.update_of_ne hqp]
        exact hd q hq' hqlive
      · rw [List.mem_singleton.mp hq', Function.update_self]
        exact hdone.price
    · rw [List.filter_append, List.filter_cons_of_pos hlive, List.filter_nil, List.map_append,
        map_offer_update hfresh, List.map_singleton, Function.update_self, bestOffer,
        firstBest_concat]
      rw [hbest', hbest, bestOffer]
    · rw [hvisited]
      intro r hr hvis
      rcases hdone.stays r hr hvis with hold | ⟨hother, u, hu, hru⟩
      · exact hinv.explored.concat p r hr hold
      · exact Or.inr (Or.inr ⟨p, by simp, hlive, hother, u, hu, hru⟩)
    · rw [hvisited]
      exact hinv.grown.trans hdone.grows

/-- The unvisited pairs of a token are its branches. -/
theorem unvisited_eq_branches (hadm : Admissible env pairs visited z g) :
    (unvisited visited (usablePairs env pairs z)).filter (hasLiquidity env) =
      branches env pairs z g := by
  unfold unvisited branches
  rw [List.filter_filter]
  refine List.filter_congr ?_
  intro p hp
  rw [Bool.eq_iff_iff, Bool.and_eq_true, decide_eq_true_iff, Bool.not_eq_true',
    Bool.eq_false_iff]
  refine and_congr_right ?_
  intro hlive
  constructor
  · intro hnew heq
    exact hnew (hadm.through p heq.symm).1
  · intro hne hvis
    exact hne (hadm.behind z p (.refl z) hp hlive hvis).symm

/-- What the pairs pushed at the start of a call add. -/
theorem explored_init (hdistinct : (pairs.map PairMetadata.address).Nodup) :
    Explored env pairs visited [] z
      (visited ++ unvisited visited (usablePairs env pairs z)) := by
  intro r hr hvis
  exact (isVisited_pushed hdistinct hr hvis).imp_right Or.inl

/-- The whole loop of an admissible call. -/
theorem loopInv_run (hdistinct : (pairs.map PairMetadata.address).Nodup)
    (hG : TreeFrom (priceGraph env pairs) t) (ht : Reach (priceGraph env pairs) none t z)
    (hz : z ≠ env.tokenProviderUSD) (hadm : Admissible env pairs visited z g)
    (hcompute : ∀ y U x U' p, compute y U = some (x, U') →
      (y ≠ env.tokenProviderUSD → Reach (priceGraph env pairs) none t y ∧
        Admissible env pairs U y (some p)) →
      Computed env pairs U y (some p) x U')
    {tokenPairs : List PairMetadata}
    (htokenPairs : tokenPairs = unvisited visited (usablePairs env pairs z))
    (hrun : tokenPairs.foldlM (visitPair env compute z)
      ⟨.fin 0, .fin 0, visited ++ tokenPairs⟩ = some s) :
    LoopInv env pairs visited (visited ++ tokenPairs) z tokenPairs s := by
  have hnodup : tokenPairs.Nodup := by
    rw [htokenPairs]
    exact (usablePairs_nodup (List.Nodup.of_map _ hdistinct)).filter _
  have hmem : ∀ q ∈ tokenPairs, q ∈ usablePairs env pairs z ∧ isVisited visited q = false := by
    intro q hq
    rw [htokenPairs] at hq
    exact mem_unvisited.mp hq
  refine foldlM_invariant (LoopInv env pairs visited (visited ++ tokenPairs) z) ?_ ?_ hrun
  · refine ⟨⟨fun _ => .nan, by simp, rfl⟩, ?_, List.prefix_refl _⟩
    rw [htokenPairs]
    exact explored_init hdistinct
  · intro pre p post s s' hl hinv hvisit
    rw [hl] at hmem hnodup
    have hp := hmem p (by simp)
    refine loopInv_step hG ht hz hadm hcompute ?_ hp.1 hp.2 ?_ ?_ hinv hvisit
    · exact fun q hq => (hmem q (List.mem_append_left _ hq)).1
    · exact fun hq => List.disjoint_of_nodup_append hnodup hq List.mem_cons_self
    · rw [hl]
      simp

/-- An admissible call computes the tree price. -/
theorem treePrice_of_compute (hdistinct : (pairs.map PairMetadata.address).Nodup)
    (hG : TreeFrom (priceGraph env pairs) t) {fuel : ℕ} {x : BigNumber}
    (hadm : z ≠ env.tokenProviderUSD →
      Reach (priceGraph env pairs) none t z ∧ Admissible env pairs visited z g)
    (h : computeTokenPriceDerivedEGLD env pairs fuel z visited = some (x, visited')) :
    Computed env pairs visited z g x visited' := by
  -- induction on the fuel; the calls of the loop are those of the smaller fuel
  induction fuel generalizing z visited g x visited' with
  | zero => simp [computeTokenPriceDerivedEGLD] at h
  | succ fuel ih =>
    unfold computeTokenPriceDerivedEGLD at h
    split at h
    next hz =>
      obtain ⟨rfl, rfl⟩ := Prod.mk.inj (Option.some.inj h)
      exact ⟨.provider hz, List.prefix_refl _, fun r _ hvis => Or.inl hvis⟩
    next hz =>
      obtain ⟨ht, hadm⟩ := hadm hz
      dsimp only at h
      split at h
      next hz' =>
        obtain ⟨rfl, rfl⟩ := Prod.mk.inj (Option.some.inj h)
        refine ⟨.usdc hz hz', List.prefix_append _ _, ?_⟩
        intro r hr hvis
        rcases explored_init hdistinct r hr hvis with hold | hnear | ⟨q, hq, -⟩
        · exact Or.inl hold
        · exact Or.inr ⟨hz, z, .refl z, hnear⟩
        · exact absurd hq (by simp)
      next hz' =>
        obtain ⟨s, hs, heq⟩ := Option.map_eq_some_iff.mp h
        obtain ⟨rfl, rfl⟩ := Prod.mk.inj heq
        have hloop := loopInv_run hdistinct hG ht hz hadm
          (fun y U x U' p hcall hy => ih hy hcall) rfl hs
        obtain ⟨d, hd, hbest⟩ := hloop.priced
        rw [unvisited_eq_branches hadm] at hbest
        have hprice : s.priceSoFar =
            (bestOffer ((branches env pairs z g).map fun p => offer env z p (d p))).2 :=
          congrArg Prod.snd hbest
        refine ⟨?_, (List.prefix_append _ _).trans hloop.grown, ?_⟩
        · rw [hprice]
          refine .best d hz hz' ?_
          intro p hp
          rw [← unvisited_eq_branches hadm, List.mem_filter] at hp
          exact hd p hp.1 hp.2
        · intro r hr hvis
          rcases hloop.explored r hr hvis with hold | hnear | ⟨q, hq, hqlive, hq', u, hu, hru⟩
          · exact Or.inl hold
          · exact Or.inr ⟨hz, z, .refl z, hnear⟩
          · obtain ⟨hquse, hqnew⟩ := mem_unvisited.mp hq
            have hlink := isLink_otherTokenID hquse hqlive hz hq'
            exact Or.inr ⟨hz, u, reach_through hG ht hlink (inc_through hadm)
              (through_ne hadm hqnew) hu, hru⟩

end Run

end MxExchange.Tokens
