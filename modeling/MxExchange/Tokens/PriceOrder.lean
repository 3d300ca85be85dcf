import MxExchange.Tokens.PriceTree

/-!
# Prices and the order of the pair list

A tree price sees the order of the pairs only where a token chooses between
its branches, and there it takes a tie to see it (`TreePrice.perm`). So on a
tree of pairs without ties the price of a token does not depend on the order
of the pair list: `tokenPriceDerivedEGLD_perm`.

On a cycle it does. In `triangle` the branch that is looked at first uses up
the pair between the two neighbours of the token and everything behind them,
and the other branch finds no price at all: the first one wins whatever the
two lock (`tokenPriceDerivedEGLD_cycle`).
-/

namespace MxExchange.Tokens

open MxExchange.Num MxExchange.Pair MxExchange.Collections

/-- The EGLD a pair of a token locks on its other side. -/
def liquidityEGLD (env : TokenEnv) (pairs : List PairMetadata) (tokenID : TokenID)
    (pair : PairMetadata) : Option BigNumber :=
  (computeTokenPriceDerivedEGLD env pairs (pairs.length + 1) (otherTokenID tokenID pair)
    [pair]).map fun (derivedEGLD, _) => egldLocked env (sideFrom env tokenID pair) derivedEGLD

def tokenIDs (pairs : List PairMetadata) : List TokenID :=
  pairs.flatMap fun pair => [pair.firstTokenID, pair.secondTokenID]

/-- No two pairs of a token lock the same positive amount of EGLD. -/
def NoTies (env : TokenEnv) (pairs : List PairMetadata) : Prop :=
  ∀ z ∈ tokenIDs pairs, ∀ p ∈ usablePairs env pairs z, ∀ q ∈ usablePairs env pairs z,
    hasLiquidity env p = true → hasLiquidity env q = true → p ≠ q →
    (liquidityEGLD env pairs z p).any (·.isGreaterThan (.fin 0)) = true →
    liquidityEGLD env pairs z p ≠ liquidityEGLD env pairs z q

instance (env : TokenEnv) (pairs : List PairMetadata) : Decidable (NoTies env pairs) :=
  inferInstanceAs (Decidable (∀ z ∈ tokenIDs pairs, ∀ p ∈ usablePairs env pairs z,
    ∀ q ∈ usablePairs env pairs z, hasLiquidity env p = true → hasLiquidity env q = true →
    p ≠ q → (liquidityEGLD env pairs z p).any (·.isGreaterThan (.fin 0)) = true →
    liquidityEGLD env pairs z p ≠ liquidityEGLD env pairs z q))

section Order

variable {env : TokenEnv} {pairs pairs' : List PairMetadata} {p q : PairMetadata}
  {t z : TokenID} {g : Option PairMetadata} {x y : BigNumber}

/-- The token behind a branch is in the tree as well. -/
theorem reach_branch (hz : z ≠ env.tokenProviderUSD)
    (ht : Reach (priceGraph env pairs) none t z) (hp : p ∈ branches env pairs z g)
    (hother : otherTokenID z p ≠ env.tokenProviderUSD) :
    Reach (priceGraph env pairs) none t (otherTokenID z p) := by
  obtain ⟨huse, hlive, -⟩ := mem_branches.mp hp
  exact ht.tail (isLink_otherTokenID huse hlive hz hother) (by simp)

/-- A call for the token behind a branch may start with the branch alone. -/
theorem admissible_branch (hdistinct : (pairs.map PairMetadata.address).Nodup)
    (hz : z ≠ env.tokenProviderUSD) (hp : p ∈ branches env pairs z g)
    (hother : otherTokenID z p ≠ env.tokenProviderUSD) :
    Admissible env pairs [p] (otherTokenID z p) (some p) := by
  obtain ⟨huse, hlive, -⟩ := mem_branches.mp hp
  have hmem := (mem_usablePairs huse).1
  constructor
  · intro u r _ hr _ hvis
    rw [isVisited_sublist hdistinct (by simpa using hmem) (mem_usablePairs hr).1,
      List.mem_singleton] at hvis
    rw [hvis]
  · intro q hq
    rw [← Option.some.inj hq]
    exact ⟨isVisited_of_mem (by simp), z, (isLink_otherTokenID huse hlive hz hother).symm⟩

/-- On a tree the EGLD a pair locks is what its offer says. -/
theorem liquidityEGLD_eq (hdistinct : (pairs.map PairMetadata.address).Nodup)
    (htree : TreeFrom (priceGraph env pairs) t) (hz : z ≠ env.tokenProviderUSD)
    (ht : Reach (priceGraph env pairs) none t z) (hp : p ∈ branches env pairs z g)
    (hx : TreePrice env pairs (otherTokenID z p) (some p) x) :
    liquidityEGLD env pairs z p = some (offer env z p x).1 := by
  have hfuel : (unvisited [p] pairs).length < pairs.length + 1 :=
    Nat.lt_succ_of_le (List.length_filter_le _ _)
  obtain ⟨y, visited, hrun, -⟩ := @computeTokenPriceDerivedEGLD_isSome env pairs
    (otherTokenID z p) _ _ hfuel
  have hdone := treePrice_of_compute (g := some p) hdistinct htree (fun hother =>
    ⟨reach_branch hz ht hp hother, admissible_branch hdistinct hz hp hother⟩) hrun
  rw [liquidityEGLD, hrun, hdone.price.unique hx]
  rfl

/-- Two orders of the pairs, one tree price. -/
theorem TreePrice.perm (hperm : pairs.Perm pairs')
    (hdistinct : (pairs.map PairMetadata.address).Nodup) (hties : NoTies env pairs)
    (htree : TreeFrom (priceGraph env pairs) t)
    (ht : z ≠ env.tokenProviderUSD → Reach (priceGraph env pairs) none t z)
    (hx : TreePrice env pairs z g x) (hy : TreePrice env pairs' z g y) : x = y := by
  induction hx generalizing y with
  | provider hz => exact (hy.eq_of_provider hz).symm
  | usdc hz hz' => exact (hy.eq_of_usdc hz hz').symm
  | @best z g d hz hz' hbelow ih =>
    obtain ⟨d', hbelow', rfl⟩ := hy.exists_best hz hz'
    have hbranches : (branches env pairs z g).Perm (branches env pairs' z g) :=
      (usablePairs_perm hperm z).filter _
    have hoffers : (branches env pairs' z g).map (fun p => offer env z p (d' p)) =
        (branches env pairs' z g).map fun p => offer env z p (d p) := by
      refine List.map_congr_left ?_
      intro p hp
      have hp' := hbranches.mem_iff.mpr hp
      rw [ih p hp' (reach_branch hz (ht hz) hp') (hbelow' p hp)]
    rw [hoffers, bestOffer, bestOffer]
    refine congrArg Prod.snd (firstBest_perm locksMore_comparison (hbranches.map _) ?_)
    -- two positive offers of which none locks more would be a tie
    intro a ha b hb ha0 hb0 hab hba
    obtain ⟨p, hp, rfl⟩ := List.mem_map.mp ha
    obtain ⟨q, hq, rfl⟩ := List.mem_map.mp hb
    by_contra hne
    have hpq : p ≠ q := fun heq => hne (by rw [heq])
    have hlp := liquidityEGLD_eq hdistinct htree hz (ht hz) hp (hbelow p hp)
    have hlq := liquidityEGLD_eq hdistinct htree hz (ht hz) hq (hbelow q hq)
    obtain ⟨hpuse, hplive, -⟩ := mem_branches.mp hp
    obtain ⟨hquse, hqlive, -⟩ := mem_branches.mp hq
    have hmem : z ∈ tokenIDs pairs := by
      obtain ⟨hpmem, hhas⟩ := mem_usablePairs hpuse
      refine List.mem_flatMap.mpr ⟨p, hpmem, ?_⟩
      rcases has_iff.mp hhas with h | h <;> simp [h]
    refine hties z hmem p hpuse q hquse hplive hqlive hpq ?_ ?_
    · rw [hlp]
      exact ha0
    · rw [hlp, hlq]
      exact congrArg some (BigNumber.eq_of_not_isLessThan
        (BigNumber.ne_nan_of_isLessThan_right ha0) (BigNumber.ne_nan_of_isLessThan_right hb0)
        hba hab)

/-- The getter returns the tree price. -/
theorem tokenPriceDerivedEGLD_treePrice (hdistinct : (pairs.map PairMetadata.address).Nodup)
    (htree : TreeFrom (priceGraph env pairs) t) :
    ∃ price, tokenPriceDerivedEGLD env pairs t = some price ∧
      TreePrice env pairs t none price := by
  obtain ⟨price, visited, hrun, hprice⟩ := tokenPriceDerivedEGLD_isSome env pairs t
  refine ⟨price, hprice, ?_⟩
  refine (treePrice_of_compute hdistinct htree (fun _ => ⟨.refl t, ?_, ?_⟩) hrun).price
  · intro u r _ _ _ hvis
    exact absurd hvis (by simp [isVisited])
  · intro p hp
    exact absurd hp (by simp)

/-- Where the pairs around a token form a tree and none tie, any order of
the pair list gives the same price. -/
theorem tokenPriceDerivedEGLD_perm (hperm : pairs.Perm pairs')
    (hdistinct : (pairs.map PairMetadata.address).Nodup) (hties : NoTies env pairs)
    (htree : TreeFrom (priceGraph env pairs) t) :
    ∃ price, tokenPriceDerivedEGLD env pairs t = some price ∧
      tokenPriceDerivedEGLD env pairs' t = some price := by
  obtain ⟨x, hx, htx⟩ := tokenPriceDerivedEGLD_treePrice hdistinct htree
  obtain ⟨y, hy, hty⟩ := tokenPriceDerivedEGLD_treePrice
    ((hperm.map _).nodup_iff.mp hdistinct) (priceGraph_perm env hperm ▸ htree)
  have hxy := htx.perm hperm hdistinct hties htree (fun _ => .refl t) hty
  exact ⟨x, hx, by rw [hy, hxy]⟩

end Order

/-- Every pair active and funded, with prices of one except `TOK-1` on `a1`. -/
def sampleTokenEnv : TokenEnv where
  tokenProviderUSD := "WEGLD-1"
  USDC_TOKEN_ID := "USDC-1"
  EGLDDecimals := 0
  getEgldPriceInUSD := .fin 40
  state := fun _ => "Active"
  totalSupply := fun _ => .fin 1000
  firstTokenReserve := fun address =>
    if address = "a1" then .fin 100 else if address = "a2" then .fin 200
    else if address = "a3" then .fin 300 else .fin 400
  secondTokenReserve := fun address =>
    if address = "a1" then .fin 110 else if address = "a2" then .fin 210
    else if address = "a3" then .fin 310 else .fin 410
  firstTokenPrice := fun address => if address = "a1" then .fin 2 else .fin 1
  secondTokenPrice := fun _ => .fin 1
  firstTokenDecimals := fun _ => 0
  secondTokenDecimals := fun _ => 0

/-- Two ways from a token to the one prices are quoted in. -/
def fork : List PairMetadata :=
  [⟨"a1", "TOK-1", "MEX-1"⟩, ⟨"a2", "TOK-1", "RIDE-1"⟩, ⟨"a3", "MEX-1", "WEGLD-1"⟩,
    ⟨"a4", "RIDE-1", "WEGLD-1"⟩]

theorem fork_isLink {p : PairMetadata} {u w : TokenID}
    (h : (priceGraph sampleTokenEnv fork).IsLink p u w) :
    p.firstTokenID = "TOK-1" ∧ p.secondTokenID ≠ "TOK-1" ∧
      (p = ⟨"a1", "TOK-1", "MEX-1"⟩ ∨ p = ⟨"a2", "TOK-1", "RIDE-1"⟩) := by
  obtain ⟨-, hu, hw, huse, hends⟩ := h
  have hmem : p ∈ fork := by
    rcases huse with h | h
    · exact (mem_usablePairs h).1
    · exact (mem_usablePairs h).1
  simp only [fork, List.mem_cons, List.not_mem_nil, or_false] at hmem
  rcases hmem with rfl | rfl | rfl | rfl
  · simp
  · simp
  · rcases hends with ⟨-, h⟩ | ⟨-, h⟩
    · exact absurd h.symm hw
    · exact absurd h.symm hu
  · rcases hends with ⟨-, h⟩ | ⟨-, h⟩
    · exact absurd h.symm hw
    · exact absurd h.symm hu

theorem fork_treeFrom : TreeFrom (priceGraph sampleTokenEnv fork) "TOK-1" := by
  intro e u w _ he
  obtain ⟨hfirst, hsecond, hcases⟩ := fork_isLink he
  -- no other pair touches the second token of `e`
  refine not_reach_of_closed (fun v => v = e.secondTokenID ↔ u = e.secondTokenID) ?_ Iff.rfl ?_
  · intro f a b hne hf hab
    obtain ⟨hfirst', -, hcases'⟩ := fork_isLink hf
    have hother : f.secondTokenID ≠ e.secondTokenID := by
      rcases hcases with rfl | rfl <;> rcases hcases' with rfl | rfl <;> simp_all
    rcases hf.2.2.2.2 with ⟨rfl, rfl⟩ | ⟨rfl, rfl⟩
    · rw [← hab, hfirst', eq_false hother, eq_false hsecond.symm]
    · rw [← hab, hfirst', eq_false hother, eq_false hsecond.symm]
  · rcases he.2.2.2.2 with ⟨rfl, rfl⟩ | ⟨rfl, rfl⟩
    · simp [hfirst, hsecond.symm]
    · simp [hfirst, hsecond.symm]

theorem tokenPriceDerivedEGLD_perm_fork :
    NoTies sampleTokenEnv fork ∧
      ∃ price, tokenPriceDerivedEGLD sampleTokenEnv fork "TOK-1" = some price ∧
        tokenPriceDerivedEGLD sampleTokenEnv fork.reverse "TOK-1" = some price :=
  have hties : NoTies sampleTokenEnv fork := by decide +kernel
  ⟨hties, tokenPriceDerivedEGLD_perm (List.reverse_perm fork).symm (by decide) hties
    fork_treeFrom⟩

/-! ## A cycle -/

/-- A token between two others that are paired with each other; only the one
of them is paired with the token prices are quoted in. -/
def triangle : List PairMetadata :=
  [⟨"a1", "TOK-1", "MEX-1"⟩, ⟨"a2", "TOK-1", "RIDE-1"⟩, ⟨"a3", "MEX-1", "RIDE-1"⟩,
    ⟨"a4", "MEX-1", "WEGLD-1"⟩]

def triangleSwapped : List PairMetadata :=
  [⟨"a2", "TOK-1", "RIDE-1"⟩, ⟨"a1", "TOK-1", "MEX-1"⟩, ⟨"a3", "MEX-1", "RIDE-1"⟩,
    ⟨"a4", "MEX-1", "WEGLD-1"⟩]

/-- Nothing ties, and the pair that comes first decides. -/
theorem tokenPriceDerivedEGLD_cycle :
    triangle.Perm triangleSwapped ∧ (triangle.map PairMetadata.address).Nodup ∧
      NoTies sampleTokenEnv triangle ∧ NoTies sampleTokenEnv triangleSwapped ∧
      tokenPriceDerivedEGLD sampleTokenEnv triangle "TOK-1" = some (.fin 2) ∧
      tokenPriceDerivedEGLD sampleTokenEnv triangleSwapped "TOK-1" = some (.fin 1) := by
  decide +kernel

end MxExchange.Tokens
