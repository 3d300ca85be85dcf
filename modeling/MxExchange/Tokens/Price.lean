import MxExchange.Pair.PairUtils
import MxExchange.Collections.FirstBest
import MxExchange.Collections.Outcome

/-!
# `token.compute.service.ts`: a token's price in EGLD

`computeTokenPriceDerivedEGLD` walks the pair graph from a token towards the
token the prices are quoted in. Every pair of the token offers a price, the
pair's own price times the derived price of the token on its other side, and
the pair that locks the most EGLD on that side wins; later pairs must lock
strictly more.

The pairs not to be visited again are one array for the whole walk: a call
pushes all its pairs to it before it looks at the first, and whatever the
calls below push is still there when the next pair is looked at. The array
is threaded through the recursion here (`PriceSearch`), and what a branch
may use depends on the branches before it.

The getters of the pairs are parameters (`TokenEnv`). The walk ends
(`computeTokenPriceDerivedEGLD_isSome`): a call that recurses has pushed a
pair, and there are only so many; running out of fuel is `none`.
-/

namespace MxExchange.Tokens

open MxExchange.Num MxExchange.Pair MxExchange.Collections

/-- `PairMetadata`. -/
structure PairMetadata where
  address : String
  firstTokenID : TokenID
  secondTokenID : TokenID
  deriving DecidableEq

/-- The configuration and what the services answer, by pair address. -/
structure TokenEnv where
  tokenProviderUSD : TokenID
  USDC_TOKEN_ID : TokenID
  EGLDDecimals : ℕ
  getEgldPriceInUSD : BigNumber
  state : String → String
  totalSupply : String → BigNumber
  firstTokenReserve : String → BigNumber
  secondTokenReserve : String → BigNumber
  firstTokenPrice : String → BigNumber
  secondTokenPrice : String → BigNumber
  firstTokenDecimals : String → ℕ
  secondTokenDecimals : String → ℕ

/-! ## The walk -/

/-- What one branch of the loop awaits about a pair: the token on the other
side with its reserves and decimals, and the price on this side. -/
structure PairSide where
  otherTokenID : TokenID
  otherTokenReserves : BigNumber
  tokenPrice : BigNumber
  otherTokenDecimals : ℕ

/-- The branch for `pair.firstTokenID === tokenID`. -/
def fromFirstToken (env : TokenEnv) (pair : PairMetadata) : PairSide where
  otherTokenID := pair.secondTokenID
  otherTokenReserves := env.secondTokenReserve pair.address
  tokenPrice := env.firstTokenPrice pair.address
  otherTokenDecimals := env.secondTokenDecimals pair.address

/-- The branch for `pair.secondTokenID === tokenID`. -/
def fromSecondToken (env : TokenEnv) (pair : PairMetadata) : PairSide where
  otherTokenID := pair.firstTokenID
  otherTokenReserves := env.firstTokenReserve pair.address
  tokenPrice := env.secondTokenPrice pair.address
  otherTokenDecimals := env.firstTokenDecimals pair.address

/-- What lies on the other side, in EGLD. -/
def egldLocked (env : TokenEnv) (side : PairSide) (derivedEGLD : BigNumber) : BigNumber :=
  (((side.otherTokenReserves.multipliedBy (.fin (1 / 10 ^ side.otherTokenDecimals))).multipliedBy
    derivedEGLD).multipliedBy (.fin (10 ^ env.EGLDDecimals))).integerValue

/-- The variables of the loop over a token's pairs. -/
structure PriceSearch where
  largestLiquidityEGLD : BigNumber
  priceSoFar : BigNumber
  pairsNotToVisit : List PairMetadata

/-- One branch of the loop; `compute` is the recursive call. -/
def visitSide (env : TokenEnv)
    (compute : TokenID → List PairMetadata → Option (BigNumber × List PairMetadata))
    (side : PairSide) (s : PriceSearch) : Option PriceSearch :=
  (compute side.otherTokenID s.pairsNotToVisit).map fun (derivedEGLD, pairsNotToVisit) =>
    if (egldLocked env side derivedEGLD).isGreaterThan s.largestLiquidityEGLD then
      { largestLiquidityEGLD := egldLocked env side derivedEGLD
        priceSoFar := side.tokenPrice.multipliedBy derivedEGLD
        pairsNotToVisit }
    else { s with pairsNotToVisit }

/-- `new BigNumber(liquidity).isGreaterThan(0)`: somebody provides liquidity. -/
def hasLiquidity (env : TokenEnv) (pair : PairMetadata) : Bool :=
  (env.totalSupply pair.address).isGreaterThan (.fin 0)

/-- The body of the loop. The two branches are two `if`s: a pair of a token
with itself would take both. -/
def visitPair (env : TokenEnv)
    (compute : TokenID → List PairMetadata → Option (BigNumber × List PairMetadata))
    (tokenID : TokenID) (s : PriceSearch) (pair : PairMetadata) : Option PriceSearch :=
  if hasLiquidity env pair then
    (if pair.firstTokenID = tokenID then visitSide env compute (fromFirstToken env pair) s
      else some s).bind fun s =>
        if pair.secondTokenID = tokenID then visitSide env compute (fromSecondToken env pair) s
        else some s
  else some s

/-- The token is one of the two. -/
def PairMetadata.has (pair : PairMetadata) (tokenID : TokenID) : Bool :=
  pair.firstTokenID = tokenID ∨ pair.secondTokenID = tokenID

/-- The pairs of a token: of several, the active ones if there are any. -/
def usablePairs (env : TokenEnv) (pairsMetadata : List PairMetadata) (tokenID : TokenID) :
    List PairMetadata :=
  let tokenPairs := pairsMetadata.filter (·.has tokenID)
  if 1 < tokenPairs.length ∧ tokenPairs.any (fun pair => env.state pair.address = "Active") then
    tokenPairs.filter fun pair => env.state pair.address = "Active"
  else tokenPairs

/-- Pairs are compared by address. -/
def isVisited (pairsNotToVisit : List PairMetadata) (pair : PairMetadata) : Bool :=
  pairsNotToVisit.any fun pairNotToVisit => pairNotToVisit.address = pair.address

/-- The pairs that are left to visit. -/
def unvisited (pairsNotToVisit pairs : List PairMetadata) : List PairMetadata :=
  pairs.filter fun pair => !isVisited pairsNotToVisit pair

/-- The price, and the array of visited pairs as the call leaves it. -/
def computeTokenPriceDerivedEGLD (env : TokenEnv) (pairsMetadata : List PairMetadata) :
    ℕ → TokenID → List PairMetadata → Option (BigNumber × List PairMetadata)
  | 0, _, _ => none
  | fuel + 1, tokenID, pairsNotToVisit =>
    if tokenID = env.tokenProviderUSD then some (.fin 1, pairsNotToVisit)
    else
      let tokenPairs := unvisited pairsNotToVisit (usablePairs env pairsMetadata tokenID)
      -- by now the pairs are pushed, although their prices are not looked at
      if tokenID = env.USDC_TOKEN_ID then
        some ((BigNumber.fin 1).dividedBy env.getEgldPriceInUSD, pairsNotToVisit ++ tokenPairs)
      else
        (tokenPairs.foldlM
          (visitPair env (computeTokenPriceDerivedEGLD env pairsMetadata fuel) tokenID)
          { largestLiquidityEGLD := .fin 0
            priceSoFar := .fin 0
            pairsNotToVisit := pairsNotToVisit ++ tokenPairs }).map
          fun s => (s.priceSoFar, s.pairsNotToVisit)

/-- The getter: nothing is visited yet, and one call more than there are
pairs is deep enough. -/
def tokenPriceDerivedEGLD (env : TokenEnv) (pairsMetadata : List PairMetadata)
    (tokenID : TokenID) : Option BigNumber :=
  (computeTokenPriceDerivedEGLD env pairsMetadata (pairsMetadata.length + 1) tokenID []).map
    Prod.fst

/-! ## Pairs -/

section Pairs

variable {env : TokenEnv} {pairs pairs' visited visited' : List PairMetadata}
  {p : PairMetadata} {z : TokenID}

theorem has_iff : p.has z = true ↔ p.firstTokenID = z ∨ p.secondTokenID = z := by
  simp [PairMetadata.has]

theorem mem_usablePairs (h : p ∈ usablePairs env pairs z) : p ∈ pairs ∧ p.has z = true := by
  unfold usablePairs at h
  dsimp only at h
  split at h
  · exact List.mem_filter.mp (List.mem_filter.mp h).1
  · exact List.mem_filter.mp h

/-- The order of the pairs is kept. -/
theorem usablePairs_perm (h : pairs.Perm pairs') (z : TokenID) :
    (usablePairs env pairs z).Perm (usablePairs env pairs' z) := by
  have hfilter := h.filter (·.has z)
  have hany : ∀ f : PairMetadata → Bool,
      (pairs.filter (·.has z)).any f = (pairs'.filter (·.has z)).any f := by
    intro f
    rw [Bool.eq_iff_iff, List.any_eq_true, List.any_eq_true]
    simp only [hfilter.mem_iff]
  unfold usablePairs
  dsimp only
  rw [hany, hfilter.length_eq]
  split
  · exact hfilter.filter _
  · exact hfilter

theorem usablePairs_nodup (h : pairs.Nodup) : (usablePairs env pairs z).Nodup := by
  unfold usablePairs
  dsimp only
  split
  · exact (h.filter _).filter _
  · exact h.filter _

/-- Some pair of the array has the address. -/
theorem isVisited_iff :
    isVisited visited p = true ↔ ∃ q ∈ visited, q.address = p.address := by
  simp [isVisited]

theorem isVisited_append : isVisited (visited ++ visited') p =
    (isVisited visited p || isVisited visited' p) := by
  simp [isVisited, List.any_append]

theorem isVisited_of_mem (h : p ∈ visited) : isVisited visited p = true :=
  isVisited_iff.mpr ⟨p, h, rfl⟩

/-- A visited pair stays visited. -/
theorem isVisited_mono (h : visited <+: visited') (hp : isVisited visited p = true) :
    isVisited visited' p = true := by
  obtain ⟨more, rfl⟩ := h
  rw [isVisited_append, hp, Bool.true_or]

theorem mem_unvisited :
    p ∈ unvisited visited pairs ↔ p ∈ pairs ∧ isVisited visited p = false := by
  simp [unvisited]

/-- Among pairs with distinct addresses a visited one is in the array. -/
theorem isVisited_sublist (hdistinct : (pairs.map PairMetadata.address).Nodup)
    (hsub : ∀ q ∈ visited, q ∈ pairs) (hp : p ∈ pairs) :
    isVisited visited p = true ↔ p ∈ visited := by
  refine ⟨?_, isVisited_of_mem⟩
  intro h
  obtain ⟨q, hq, haddr⟩ := isVisited_iff.mp h
  rwa [← List.inj_on_of_nodup_map hdistinct (hsub q hq) hp haddr]

/-- What a call for a token marks when it pushes: pairs the token may use. -/
theorem isVisited_pushed (hdistinct : (pairs.map PairMetadata.address).Nodup) (hp : p ∈ pairs)
    (h : isVisited (visited ++ unvisited visited (usablePairs env pairs z)) p = true) :
    isVisited visited p = true ∨ p ∈ usablePairs env pairs z := by
  rw [isVisited_append, Bool.or_eq_true] at h
  refine h.imp_right (fun hpushed => ?_)
  have husable : ∀ q ∈ unvisited visited (usablePairs env pairs z), q ∈ usablePairs env pairs z :=
    fun q hq => (mem_unvisited.mp hq).1
  exact husable p ((isVisited_sublist hdistinct
    (fun q hq => (mem_usablePairs (husable q hq)).1) hp).mp hpushed)

/-- A pair that is visited on the way leaves fewer to visit. -/
theorem length_unvisited_lt (h : visited <+: visited') (hp : p ∈ pairs)
    (hnew : isVisited visited p = false) (hold : isVisited visited' p = true) :
    (unvisited visited' pairs).length < (unvisited visited pairs).length := by
  have hsub : (unvisited visited' pairs).Sublist (unvisited visited pairs) := by
    refine List.monotone_filter_right pairs ?_
    intro q hq
    rw [Bool.not_eq_true', Bool.eq_false_iff] at hq ⊢
    exact fun hq' => hq (isVisited_mono h hq')
  refine lt_of_le_of_ne hsub.length_le ?_
  intro heq
  have hmem : p ∈ unvisited visited pairs := mem_unvisited.mpr ⟨hp, hnew⟩
  rw [← hsub.eq_of_length heq, mem_unvisited, hold] at hmem
  exact absurd hmem.2 (by simp)

end Pairs

/-! ## The walk ends -/

section Walk

variable {env : TokenEnv} {pairs : List PairMetadata}
  {compute compute' : TokenID → List PairMetadata → Option (BigNumber × List PairMetadata)}
  {side : PairSide} {s s' : PriceSearch} {p : PairMetadata} {z : TokenID}

/-- A branch calls once, takes over the array, and takes the price if more EGLD
is locked. -/
theorem visitSide_eq_some : visitSide env compute side s = some s' ↔
    ∃ derivedEGLD visited, compute side.otherTokenID s.pairsNotToVisit =
        some (derivedEGLD, visited) ∧
      s' = if (egldLocked env side derivedEGLD).isGreaterThan s.largestLiquidityEGLD then
          ⟨egldLocked env side derivedEGLD, side.tokenPrice.multipliedBy derivedEGLD, visited⟩
        else { s with pairsNotToVisit := visited } := by
  unfold visitSide
  rw [Option.map_eq_some_iff]
  constructor
  · rintro ⟨⟨derivedEGLD, visited⟩, hrun, rfl⟩
    exact ⟨derivedEGLD, visited, hrun, rfl⟩
  · rintro ⟨derivedEGLD, visited, hrun, rfl⟩
    exact ⟨(derivedEGLD, visited), hrun, rfl⟩

/-- The branches of the loop body keep what the recursive call keeps of the
array, and return if it does. -/
theorem visitPair_isSome (Inv : List PairMetadata → Prop)
    (hcompute : ∀ y visited, Inv visited →
      ∃ x visited', compute y visited = some (x, visited') ∧ Inv visited')
    (h : Inv s.pairsNotToVisit) :
    ∃ s', visitPair env compute z s p = some s' ∧ Inv s'.pairsNotToVisit := by
  have hside : ∀ (side : PairSide) (s : PriceSearch), Inv s.pairsNotToVisit →
      ∃ s', visitSide env compute side s = some s' ∧ Inv s'.pairsNotToVisit := by
    intro side s hs
    obtain ⟨x, visited, hrun, hinv⟩ := hcompute side.otherTokenID s.pairsNotToVisit hs
    refine ⟨_, visitSide_eq_some.mpr ⟨x, visited, hrun, rfl⟩, ?_⟩
    split <;> exact hinv
  have hif : ∀ (side : PairSide) (token : TokenID) (s : PriceSearch), Inv s.pairsNotToVisit →
      ∃ s', (if token = z then visitSide env compute side s else some s) = some s' ∧
        Inv s'.pairsNotToVisit := by
    intro side token s hs
    split
    · exact hside side s hs
    · exact ⟨s, rfl, hs⟩
  unfold visitPair
  split
  · obtain ⟨s₁, hs₁, hinv₁⟩ := hif (fromFirstToken env p) p.firstTokenID s h
    obtain ⟨s₂, hs₂, hinv₂⟩ := hif (fromSecondToken env p) p.secondTokenID s₁ hinv₁
    exact ⟨s₂, by rw [hs₁]; exact hs₂, hinv₂⟩
  · exact ⟨s, rfl, h⟩

/-- From enough fuel the call returns, and it only ever adds to the array. -/
theorem computeTokenPriceDerivedEGLD_isSome {fuel : ℕ} {visited : List PairMetadata}
    (hfuel : (unvisited visited pairs).length < fuel) :
    ∃ x visited', computeTokenPriceDerivedEGLD env pairs fuel z visited = some (x, visited') ∧
      visited <+: visited' := by
  induction fuel generalizing z visited with
  | zero => omega
  | succ fuel ih =>
    unfold computeTokenPriceDerivedEGLD
    split
    · exact ⟨_, _, rfl, List.prefix_refl visited⟩
    · dsimp only
      split
      · exact ⟨_, _, rfl, List.prefix_append _ _⟩
      · -- a pair to look at has just been pushed: the calls below have fewer left
        let pushed := visited ++ unvisited visited (usablePairs env pairs z)
        obtain ⟨s, hs, hinv⟩ := foldlM_isSome
          (f := visitPair env (computeTokenPriceDerivedEGLD env pairs fuel) z)
          (l := unvisited visited (usablePairs env pairs z))
          (s := ⟨.fin 0, .fin 0, pushed⟩)
          (fun s => pushed <+: s.pairsNotToVisit) (List.prefix_refl _) (by
            intro p hp t ht
            refine visitPair_isSome (fun v => pushed <+: v) ?_ ht
            intro y v hv
            have hpush : p ∈ pushed := List.mem_append_right _ hp
            obtain ⟨hmem, hnew⟩ := mem_unvisited.mp hp
            have hlt := length_unvisited_lt ((List.prefix_append _ _).trans hv)
              (mem_usablePairs hmem).1 hnew (isVisited_mono hv (isVisited_of_mem hpush))
            obtain ⟨x, v', hrun, hgrow⟩ := @ih y v (by omega)
            exact ⟨x, v', hrun, hv.trans hgrow⟩)
        exact ⟨_, _, by rw [hs]; rfl, (List.prefix_append _ _).trans hinv⟩

/-- One call deeper than there are pairs is enough. -/
theorem tokenPriceDerivedEGLD_isSome (env : TokenEnv) (pairs : List PairMetadata)
    (z : TokenID) :
    ∃ price visited, computeTokenPriceDerivedEGLD env pairs (pairs.length + 1) z [] =
      some (price, visited) ∧ tokenPriceDerivedEGLD env pairs z = some price := by
  have hfuel : (unvisited [] pairs).length < pairs.length + 1 :=
    Nat.lt_succ_of_le (List.length_filter_le _ _)
  obtain ⟨price, visited, hrun, -⟩ := computeTokenPriceDerivedEGLD_isSome (z := z) hfuel
  exact ⟨price, visited, hrun, by rw [tokenPriceDerivedEGLD, hrun]; rfl⟩

end Walk

end MxExchange.Tokens
