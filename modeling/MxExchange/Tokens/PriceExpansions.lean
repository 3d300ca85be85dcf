import MxExchange.Tokens.Price

/-!
# How often a pair is expanded

A pair is expanded where the token on its other side is priced for it. The
walk of `computeTokenPriceDerivedEGLD` is done again here with a record of
the pairs it expands, in order; without the record it is the walk of the
source (`expandTokenPrice_erase`).

A call expands the pairs it pushes, and the calls below it none of these,
since they find them in the array (`Expands`). So a pair is expanded by one
call of the walk at most. That call takes both branches for a pair of a token
with itself, and expands it twice; any other pair it expands once
(`expansions_le`).
-/

namespace MxExchange.Tokens

open MxExchange.Num MxExchange.Pair MxExchange.Collections

/-! ## The walk with its record -/

/-- The state of the loop, with the pairs on record. -/
structure ExpandingSearch where
  search : PriceSearch
  expanded : List PairMetadata

/-- What a recursive call returns: the price, the array, and what it expanded. -/
structure Expanded where
  price : BigNumber
  pairsNotToVisit : List PairMetadata
  expanded : List PairMetadata
  deriving DecidableEq

/-- `visitSide`, with the pair put on record before the pairs below it. -/
def expandSide (env : TokenEnv) (compute : TokenID → List PairMetadata → Option Expanded)
    (pair : PairMetadata) (side : PairSide) (s : ExpandingSearch) : Option ExpandingSearch :=
  (compute side.otherTokenID s.search.pairsNotToVisit).map fun below =>
    { search :=
        if (egldLocked env side below.price).isGreaterThan s.search.largestLiquidityEGLD then
          { largestLiquidityEGLD := egldLocked env side below.price
            priceSoFar := side.tokenPrice.multipliedBy below.price
            pairsNotToVisit := below.pairsNotToVisit }
        else { s.search with pairsNotToVisit := below.pairsNotToVisit }
      expanded := s.expanded ++ pair :: below.expanded }

/-- `visitPair`, on record. -/
def expandPair (env : TokenEnv) (compute : TokenID → List PairMetadata → Option Expanded)
    (tokenID : TokenID) (s : ExpandingSearch) (pair : PairMetadata) : Option ExpandingSearch :=
  if hasLiquidity env pair then
    (if pair.firstTokenID = tokenID then expandSide env compute pair (fromFirstToken env pair) s
      else some s).bind fun s =>
        if pair.secondTokenID = tokenID then
          expandSide env compute pair (fromSecondToken env pair) s
        else some s
  else some s

/-- `computeTokenPriceDerivedEGLD`, on record. -/
def expandTokenPrice (env : TokenEnv) (pairsMetadata : List PairMetadata) :
    ℕ → TokenID → List PairMetadata → Option Expanded
  | 0, _, _ => none
  | fuel + 1, tokenID, pairsNotToVisit =>
    if tokenID = env.tokenProviderUSD then
      some
        { price := .fin 1
          pairsNotToVisit := pairsNotToVisit
          expanded := [] }
    else
      let tokenPairs := unvisited pairsNotToVisit (usablePairs env pairsMetadata tokenID)
      if tokenID = env.USDC_TOKEN_ID then
        some
          { price := (BigNumber.fin 1).dividedBy env.getEgldPriceInUSD
            pairsNotToVisit := pairsNotToVisit ++ tokenPairs
            expanded := [] }
      else
        (tokenPairs.foldlM
          (expandPair env (expandTokenPrice env pairsMetadata fuel) tokenID)
          { search :=
              { largestLiquidityEGLD := .fin 0
                priceSoFar := .fin 0
                pairsNotToVisit := pairsNotToVisit ++ tokenPairs }
            expanded := [] }).map
          fun s =>
            { price := s.search.priceSoFar
              pairsNotToVisit := s.search.pairsNotToVisit
              expanded := s.expanded }

/-! ## It is the same walk -/

section Erase

variable {env : TokenEnv} {pairs : List PairMetadata}

/-- A result without its record. -/
def Expanded.erase (r : Expanded) : BigNumber × List PairMetadata := (r.price, r.pairsNotToVisit)

/-- The record is never read, so a branch does the same without it. -/
theorem expandSide_erase {compute : TokenID → List PairMetadata → Option Expanded}
    {compute' : TokenID → List PairMetadata → Option (BigNumber × List PairMetadata)}
    (h : ∀ z visited, (compute z visited).map Expanded.erase = compute' z visited)
    (pair : PairMetadata) (side : PairSide) (s : ExpandingSearch) :
    (expandSide env compute pair side s).map ExpandingSearch.search =
      visitSide env compute' side s.search := by
  unfold expandSide visitSide
  rw [← h]
  cases compute side.otherTokenID s.search.pairsNotToVisit <;> rfl

/-- Nor does the loop body read it. -/
theorem expandPair_erase (env : TokenEnv)
    {compute : TokenID → List PairMetadata → Option Expanded}
    {compute' : TokenID → List PairMetadata → Option (BigNumber × List PairMetadata)}
    (h : ∀ z visited, (compute z visited).map Expanded.erase = compute' z visited)
    (z : TokenID) (s : ExpandingSearch) (pair : PairMetadata) :
    (expandPair env compute z s pair).map ExpandingSearch.search =
      visitPair env compute' z s.search pair := by
  have hif : ∀ (token : TokenID) (side : PairSide) (s : ExpandingSearch),
      (if token = z then expandSide env compute pair side s else some s).map
        ExpandingSearch.search =
      if token = z then visitSide env compute' side s.search else some s.search := by
    intro token side s
    split
    · exact expandSide_erase h pair side s
    · rfl
  unfold expandPair visitPair
  split
  · rw [← hif]
    cases (if pair.firstTokenID = z then expandSide env compute pair (fromFirstToken env pair) s
      else some s) with
    | none => rfl
    | some s' => exact hif pair.secondTokenID (fromSecondToken env pair) s'
  · rfl

/-- **The record aside**, this is `computeTokenPriceDerivedEGLD`. -/
theorem expandTokenPrice_erase (fuel : ℕ) (z : TokenID) (visited : List PairMetadata) :
    (expandTokenPrice env pairs fuel z visited).map Expanded.erase =
      computeTokenPriceDerivedEGLD env pairs fuel z visited := by
  induction fuel generalizing z visited with
  | zero => rfl
  | succ fuel ih =>
    unfold expandTokenPrice computeTokenPriceDerivedEGLD
    split
    · rfl
    · dsimp only
      split
      · rfl
      · have hview := foldlM_view ExpandingSearch.search (fun s p => expandPair_erase env ih z s p)
          (unvisited visited (usablePairs env pairs z))
          ⟨⟨.fin 0, .fin 0, visited ++ unvisited visited (usablePairs env pairs z)⟩, []⟩
        dsimp only at hview
        rw [← hview, Option.map_map, Option.map_map]
        rfl

end Erase

/-! ## What a call expands -/

/-- A call that found one array and left another has expanded pairs it did
not find in the first, and that are in the second: each of them no more often
than it has branches. -/
structure Expands (visited visited' expanded : List PairMetadata) : Prop where
  grow : visited <+: visited'
  fresh : ∀ p ∈ expanded, isVisited visited p = false
  pushed : ∀ p ∈ expanded, isVisited visited' p = true
  count_le : ∀ p, expanded.count p ≤ if p.firstTokenID = p.secondTokenID then 2 else 1

section Expansions

variable {env : TokenEnv} {pairs visited visited' visited'' expanded expanded' : List PairMetadata}
  {compute : TokenID → List PairMetadata → Option Expanded} {z : TokenID} {p : PairMetadata}
  {s s' : ExpandingSearch}

/-- Nothing was expanded. -/
theorem Expands.nil (h : visited <+: visited') : Expands visited visited' [] where
  grow := h
  fresh := fun _ hp => absurd hp List.not_mem_nil
  pushed := fun _ hp => absurd hp List.not_mem_nil
  count_le := fun p => by rw [List.count_nil]; exact Nat.zero_le _

/-- Two calls one after the other never expand the same pair. -/
theorem Expands.trans (h : Expands visited visited' expanded)
    (h' : Expands visited' visited'' expanded') :
    Expands visited visited'' (expanded ++ expanded') where
  grow := h.grow.trans h'.grow
  fresh := by
    intro p hp
    rcases List.mem_append.mp hp with hfirst | hsecond
    · exact h.fresh p hfirst
    · have hnew := h'.fresh p hsecond
      rw [Bool.eq_false_iff] at hnew ⊢
      exact fun hold => hnew (isVisited_mono h.grow hold)
  pushed := by
    intro p hp
    rcases List.mem_append.mp hp with hfirst | hsecond
    · exact isVisited_mono h'.grow (h.pushed p hfirst)
    · exact h'.pushed p hsecond
  count_le := by
    intro p
    rw [List.count_append]
    by_cases hfirst : p ∈ expanded
    · have hnone : p ∉ expanded' := by
        intro hsecond
        have hnew := h'.fresh p hsecond
        rw [h.pushed p hfirst] at hnew
        cases hnew
      rw [List.count_eq_zero.mpr hnone, Nat.add_zero]
      exact h.count_le p
    · rw [List.count_eq_zero.mpr hfirst, Nat.zero_add]
      exact h'.count_le p

/-- The order of the record does not matter. -/
theorem Expands.perm (h : Expands visited visited' expanded) (hperm : expanded'.Perm expanded) :
    Expands visited visited' expanded' where
  grow := h.grow
  fresh := fun p hp => h.fresh p (hperm.mem_iff.mp hp)
  pushed := fun p hp => h.pushed p (hperm.mem_iff.mp hp)
  count_le := fun p => (hperm.count_eq p).trans_le (h.count_le p)

/-- The branches of the loop body that a pair takes. -/
def branchesTaken (env : TokenEnv) (z : TokenID) (pair : PairMetadata) : List PairMetadata :=
  if hasLiquidity env pair then
    (if pair.firstTokenID = z then [pair] else []) ++ if pair.secondTokenID = z then [pair] else []
  else []

/-- A pair is read from both sides if both of them have the token. -/
theorem count_branchesTaken_self (p : PairMetadata) :
    (branchesTaken env z p).count p ≤ if p.firstTokenID = p.secondTokenID then 2 else 1 := by
  have hone : ∀ token : TokenID, (if token = z then [p] else []).count p ≤ 1 := by
    intro token
    split <;> simp
  have hfirst := hone p.firstTokenID
  have hsecond := hone p.secondTokenID
  unfold branchesTaken
  split
  · rw [List.count_append]
    by_cases hself : p.firstTokenID = p.secondTokenID
    · rw [if_pos hself]
      omega
    · -- the token is one of the two only
      rw [if_neg hself]
      by_cases heq : p.firstTokenID = z
      · have hne : ¬p.secondTokenID = z := fun h => hself (heq.trans h.symm)
        rw [if_neg hne, List.count_nil]
        omega
      · rw [if_neg heq, List.count_nil]
        omega
  · rw [List.count_nil]
    omega

theorem mem_branchesTaken {q : PairMetadata} (h : q ∈ branchesTaken env z p) : q = p := by
  unfold branchesTaken at h
  split at h
  · rcases List.mem_append.mp h with h | h
    · split at h
      · exact List.mem_singleton.mp h
      · cases h
    · split at h
      · exact List.mem_singleton.mp h
      · cases h
  · cases h

/-- The pairs of a loop take their own branches only. -/
theorem count_flatMap_branchesTaken {l : List PairMetadata} (hnodup : l.Nodup) (p : PairMetadata) :
    (l.flatMap (branchesTaken env z)).count p ≤
      if p.firstTokenID = p.secondTokenID then 2 else 1 := by
  induction l with
  | nil => exact Nat.zero_le _
  | cons q l ih =>
    rw [List.nodup_cons] at hnodup
    rw [List.flatMap_cons, List.count_append]
    by_cases hpq : p = q
    · subst hpq
      have hrest : p ∉ l.flatMap (branchesTaken env z) := by
        intro hmem
        obtain ⟨q, hq, hp⟩ := List.mem_flatMap.mp hmem
        exact hnodup.1 (mem_branchesTaken hp ▸ hq)
      rw [List.count_eq_zero.mpr hrest, Nat.add_zero]
      exact count_branchesTaken_self p
    · have hhead : p ∉ branchesTaken env z q := fun hp => hpq (mem_branchesTaken hp)
      rw [List.count_eq_zero.mpr hhead, Nat.zero_add]
      exact ih hnodup.2

/-- What one branch adds to the record. -/
theorem expandSide_spec {side : PairSide}
    (hcompute : ∀ y v r, compute y v = some r → Expands v r.pairsNotToVisit r.expanded)
    (h : expandSide env compute p side s = some s') :
    ∃ below, Expands s.search.pairsNotToVisit s'.search.pairsNotToVisit below ∧
      s'.expanded = s.expanded ++ p :: below := by
  obtain ⟨r, hrun, rfl⟩ := Option.map_eq_some_iff.mp h
  refine ⟨r.expanded, ?_, rfl⟩
  have hvisited : (if (egldLocked env side r.price).isGreaterThan s.search.largestLiquidityEGLD then
      ({ largestLiquidityEGLD := egldLocked env side r.price
         priceSoFar := side.tokenPrice.multipliedBy r.price
         pairsNotToVisit := r.pairsNotToVisit } : PriceSearch)
      else { s.search with pairsNotToVisit := r.pairsNotToVisit }).pairsNotToVisit =
        r.pairsNotToVisit := by
    split <;> rfl
  dsimp only
  rw [hvisited]
  exact hcompute _ _ _ hrun

/-- Two records one after the other, and what was expanded below each last. -/
theorem perm_below (first below second below' : List PairMetadata) :
    (first ++ below ++ (second ++ below')).Perm (first ++ second ++ (below ++ below')) := by
  rw [List.append_assoc, List.append_assoc]
  refine List.Perm.append_left _ ?_
  rw [← List.append_assoc, ← List.append_assoc]
  exact List.Perm.append_right _ List.perm_append_comm

/-- What a pair adds: itself, once for each of its branches, and what the
calls below expand. -/
theorem expandPair_spec
    (hcompute : ∀ y v r, compute y v = some r → Expands v r.pairsNotToVisit r.expanded)
    (h : expandPair env compute z s p = some s') :
    ∃ below, Expands s.search.pairsNotToVisit s'.search.pairsNotToVisit below ∧
      s'.expanded.Perm (s.expanded ++ (branchesTaken env z p ++ below)) := by
  have hif : ∀ (token : TokenID) (side : PairSide) (s s' : ExpandingSearch),
      (if token = z then expandSide env compute p side s else some s) = some s' →
      ∃ below, Expands s.search.pairsNotToVisit s'.search.pairsNotToVisit below ∧
        s'.expanded = s.expanded ++ ((if token = z then [p] else []) ++ below) := by
    intro token side s s' hs
    split at hs
    next htoken =>
      obtain ⟨below, hbelow, heq⟩ := expandSide_spec hcompute hs
      exact ⟨below, hbelow, by rw [heq, if_pos htoken, List.singleton_append]⟩
    next htoken =>
      obtain rfl := Option.some.inj hs
      exact ⟨[], .nil (List.prefix_refl _), by rw [if_neg htoken]; simp⟩
  unfold expandPair at h
  unfold branchesTaken
  split at h
  next hlive =>
    obtain ⟨t, ht, hs'⟩ := Option.bind_eq_some_iff.mp h
    obtain ⟨below, hbelow, hfirst⟩ := hif _ _ _ _ ht
    obtain ⟨below', hbelow', hsecond⟩ := hif _ _ _ _ hs'
    refine ⟨below ++ below', hbelow.trans hbelow', ?_⟩
    rw [hsecond, hfirst, if_pos hlive, List.append_assoc]
    refine List.Perm.append_left _ ?_
    exact perm_below _ _ _ _
  next hdead =>
    obtain rfl := Option.some.inj h
    exact ⟨[], .nil (List.prefix_refl _), by simp [hdead]⟩

/-- A round of the loop expands its pairs, and below each of them what its call
does. -/
theorem foldlM_expandPair_spec
    (hcompute : ∀ y v r, compute y v = some r → Expands v r.pairsNotToVisit r.expanded)
    {l : List PairMetadata} (h : l.foldlM (expandPair env compute z) s = some s') :
    ∃ below, Expands s.search.pairsNotToVisit s'.search.pairsNotToVisit below ∧
      s'.expanded.Perm (s.expanded ++ (l.flatMap (branchesTaken env z) ++ below)) := by
  induction l generalizing s with
  | nil =>
    obtain rfl := Option.some.inj h
    exact ⟨[], .nil (List.prefix_refl _), by simp⟩
  | cons p l ih =>
    rw [List.foldlM_cons] at h
    obtain ⟨t, ht, hrest⟩ := Option.bind_eq_some_iff.mp h
    obtain ⟨below, hbelow, hfirst⟩ := expandPair_spec hcompute ht
    obtain ⟨below', hbelow', hsecond⟩ := ih hrest
    refine ⟨below ++ below', hbelow.trans hbelow', ?_⟩
    refine hsecond.trans ((hfirst.append_right _).trans ?_)
    rw [List.append_assoc, List.flatMap_cons]
    refine List.Perm.append_left _ ?_
    exact perm_below _ _ _ _

/-- The branches of the pairs a call pushes, before anything below them. -/
theorem expands_pushed (hdistinct : (pairs.map PairMetadata.address).Nodup) :
    Expands visited (visited ++ unvisited visited (usablePairs env pairs z))
      ((unvisited visited (usablePairs env pairs z)).flatMap (branchesTaken env z)) := by
  have hpair : ∀ p ∈ (unvisited visited (usablePairs env pairs z)).flatMap
      (branchesTaken env z), p ∈ unvisited visited (usablePairs env pairs z) := by
    intro p hp
    obtain ⟨q, hq, hpq⟩ := List.mem_flatMap.mp hp
    exact mem_branchesTaken hpq ▸ hq
  exact
    { grow := List.prefix_append _ _
      fresh := fun p hp => (mem_unvisited.mp (hpair p hp)).2
      pushed := fun p hp => isVisited_of_mem (List.mem_append_right _ (hpair p hp))
      count_le := count_flatMap_branchesTaken
        ((usablePairs_nodup (List.Nodup.of_map _ hdistinct)).filter _) }

/-- Every call of the walk, at any depth. -/
theorem expandTokenPrice_expands (hdistinct : (pairs.map PairMetadata.address).Nodup) {fuel : ℕ}
    {r : Expanded} (h : expandTokenPrice env pairs fuel z visited = some r) :
    Expands visited r.pairsNotToVisit r.expanded := by
  induction fuel generalizing z visited r with
  | zero => cases h
  | succ fuel ih =>
    unfold expandTokenPrice at h
    split at h
    next =>
      obtain rfl := Option.some.inj h
      exact .nil (List.prefix_refl _)
    next =>
      dsimp only at h
      split at h
      next =>
        obtain rfl := Option.some.inj h
        exact .nil (List.prefix_append _ _)
      next =>
        obtain ⟨s, hs, rfl⟩ := Option.map_eq_some_iff.mp h
        obtain ⟨below, hbelow, hperm⟩ := foldlM_expandPair_spec (fun y v r => ih) hs
        rw [List.nil_append] at hperm
        exact ((expands_pushed hdistinct).trans hbelow).perm hperm

/-- More fuel does not change a result that is there. -/
theorem expandPair_mono {compute' : TokenID → List PairMetadata → Option Expanded}
    (hcompute : ∀ y v r, compute y v = some r → compute' y v = some r)
    (h : expandPair env compute z s p = some s') : expandPair env compute' z s p = some s' := by
  have hif : ∀ (side : PairSide) (token : TokenID) (s s' : ExpandingSearch),
      (if token = z then expandSide env compute p side s else some s) = some s' →
      (if token = z then expandSide env compute' p side s else some s) = some s' := by
    intro side token s s' hs
    split at hs
    next heq =>
      obtain ⟨r, hrun, hs'⟩ := Option.map_eq_some_iff.mp hs
      rw [if_pos heq, expandSide, hcompute _ _ _ hrun]
      exact congrArg some hs'
    next hne => rw [if_neg hne]; exact hs
  unfold expandPair at h ⊢
  split at h
  next hlive =>
    obtain ⟨t, ht, hs'⟩ := Option.bind_eq_some_iff.mp h
    rw [if_pos hlive, hif _ _ _ _ ht]
    exact hif _ _ _ _ hs'
  next hdead => rw [if_neg hdead]; exact h

/-- More fuel changes nothing on record. -/
theorem expandTokenPrice_mono {fuel : ℕ} {r : Expanded}
    (h : expandTokenPrice env pairs fuel z visited = some r) :
    expandTokenPrice env pairs (fuel + 1) z visited = some r := by
  induction fuel generalizing z visited r with
  | zero => cases h
  | succ fuel ih =>
    unfold expandTokenPrice at h ⊢
    split at h
    next heq => rw [if_pos heq]; exact h
    next hne =>
      rw [if_neg hne]
      dsimp only at h ⊢
      split at h
      next heq => rw [if_pos heq]; exact h
      next hne' =>
        rw [if_neg hne']
        obtain ⟨s, hs, rfl⟩ := Option.map_eq_some_iff.mp h
        rw [foldlM_mono (fun s p s' => expandPair_mono fun y v r => ih) hs]
        rfl

/-- **Termination, and every pair once.** The walk from a token ends, from any
depth of at least one more than there are pairs, with one and the same result;
on the way it expands a pair no more than once, and a pair of a token with
itself no more than twice. -/
theorem expansions_le (env : TokenEnv) (hdistinct : (pairs.map PairMetadata.address).Nodup)
    (z : TokenID) : ∃ r : Expanded,
      (∀ fuel, pairs.length < fuel → expandTokenPrice env pairs fuel z [] = some r ∧
        computeTokenPriceDerivedEGLD env pairs fuel z [] = some (r.price, r.pairsNotToVisit)) ∧
      ∀ p, r.expanded.count p ≤ if p.firstTokenID = p.secondTokenID then 2 else 1 := by
  obtain ⟨price, visited, hprice, -⟩ := tokenPriceDerivedEGLD_isSome env pairs z
  rw [← expandTokenPrice_erase] at hprice
  obtain ⟨r, hrun, -⟩ := Option.map_eq_some_iff.mp hprice
  refine ⟨r, ?_, (expandTokenPrice_expands hdistinct hrun).count_le⟩
  have hfuel : ∀ more, expandTokenPrice env pairs (pairs.length + 1 + more) z [] = some r := by
    intro more
    induction more with
    | zero => exact hrun
    | succ more ih => exact expandTokenPrice_mono ih
  intro fuel hlt
  obtain ⟨more, rfl⟩ := Nat.exists_eq_add_of_le hlt
  rw [← expandTokenPrice_erase, show pairs.length.succ + more = pairs.length + 1 + more from rfl,
    hfuel more]
  exact ⟨rfl, rfl⟩

end Expansions

/-! ## A pair of a token with itself -/

private def selfPair : PairMetadata where
  address := "erd1self"
  firstTokenID := "SELF-000001"
  secondTokenID := "SELF-000001"

private def onePairEnv : TokenEnv where
  tokenProviderUSD := "WEGLD-000000"
  USDC_TOKEN_ID := "USDC-000000"
  EGLDDecimals := 18
  getEgldPriceInUSD := .fin 40
  state := fun _ => "Active"
  totalSupply := fun _ => .fin 1000
  firstTokenReserve := fun _ => .fin 1000
  secondTokenReserve := fun _ => .fin 1000
  firstTokenPrice := fun _ => .fin 1
  secondTokenPrice := fun _ => .fin 1
  firstTokenDecimals := fun _ => 18
  secondTokenDecimals := fun _ => 18

/-- Its token is priced over two others as well, which are a pair of their own. -/
private def forkPairs : List PairMetadata :=
  [selfPair, ⟨"erd1pair1", "SELF-000001", "USDC-000000"⟩,
    ⟨"erd1pair2", "MEX-000000", "SELF-000001"⟩, ⟨"erd1pair3", "USDC-000000", "MEX-000000"⟩,
    ⟨"erd1pair4", "MEX-000000", "WEGLD-000000"⟩]

theorem expansions_le_self : ∃ r : Expanded,
    (∀ fuel, forkPairs.length < fuel →
      expandTokenPrice onePairEnv forkPairs fuel "SELF-000001" [] = some r ∧
      computeTokenPriceDerivedEGLD onePairEnv forkPairs fuel "SELF-000001" [] =
        some (r.price, r.pairsNotToVisit)) ∧
    ∀ p, r.expanded.count p ≤ if p.firstTokenID = p.secondTokenID then 2 else 1 :=
  expansions_le onePairEnv (by decide) "SELF-000001"

/-- It is expanded twice, once for each of the two tokens it is a pair of. -/
theorem self_pair_expanded_twice :
    ([selfPair].map PairMetadata.address).Nodup ∧
      (expandTokenPrice onePairEnv [selfPair] 2 "SELF-000001" []).map Expanded.expanded =
        some [selfPair, selfPair] := by
  refine ⟨by decide, ?_⟩
  decide +kernel

end MxExchange.Tokens
