import MxExchange.Collections.FirstOccurrences
import MxExchange.Router.PairListings

/-!
# `token.service.ts`: the listing of tokens

The tokens of the pairs are put into one list, pair by pair, and are listed in
the order in which they come first. With `enabledSwaps` the states of the
pairs are read at once, and each pair's tokens are put in when its read is
done. So the order is that in which the reads complete, another one for every
request, and requests for one page after the other show pages of different
listings.

The tokens are the same in any order (`mem_getUniqueTokenIDs`). The order is,
too, if the pairs with enabled swaps have one first token and at most one
other token among them, and not otherwise (`stableListing_iff`).
-/

namespace MxExchange.Tokens

open MxExchange.Collections MxExchange.Num MxExchange.Router
open Pair (TokenID)

/-- What the services answer, by pair address or token. -/
structure TokenServices extends TokenComputeService where
  pairsMetadata : List PairMetadata
  state : String → Option String
  getEsdtTokenType : TokenID → String
  getTokenMetadata : TokenID → EsdtToken
  toUpperCase : String → String

/-- `TokensFilter`. -/
structure TokensFilter where
  identifiers : Option (List TokenID) := none
  type : Option String := none
  enabledSwaps : Bool := false
  searchToken : Option String := none
  minLiquidity : Option Double := none

/-- `TokenSortingArgs`. -/
structure TokenSortingArgs where
  sortField : Option TokensSortableFields
  sortOrder : SortingOrder

/-- A page, with the number of all tokens there are. -/
structure CollectionType where
  count : ℕ
  items : List EsdtToken

/-- The order in which the reads of a request complete. -/
structure Completion (pairsMetadata : List PairMetadata) where
  order : List PairMetadata
  perm : order.Perm pairsMetadata

/-! ## `token.filtering.service.ts` -/

section Filters

variable (services : TokenServices) (tokensFilter : TokensFilter)

/-- An empty list asks for no identifier. -/
def tokensByIdentifier (tokenIDs : List TokenID) : List TokenID :=
  match tokensFilter.identifiers with
  | none => tokenIDs
  | some [] => tokenIDs
  | some identifiers => tokenIDs.filter fun tokenID => tokenID ∈ identifiers

/-- `tokensByType`. -/
def tokensByType (tokenIDs : List TokenID) : List TokenID :=
  match truthy tokensFilter.type with
  | none => tokenIDs
  | some type => tokenIDs.filter fun tokenID => services.getEsdtTokenType tokenID = type

/-- A limit of zero is none. -/
def tokensByLiquidityUSD (tokenIDs : List TokenID) : List TokenID :=
  match truthyNumber tokensFilter.minLiquidity with
  | none => tokenIDs
  | some minLiquidity => tokenIDs.filter fun tokenID =>
    isGreaterThanOrEqualTo (services.tokenLiquidityUSD tokenID) (.ofDouble minLiquidity)

/-- A term of less than three characters is none; the others are looked for in
upper case. -/
def tokensBySearchTerm (tokens : List EsdtToken) : List EsdtToken :=
  match truthy tokensFilter.searchToken with
  | none => tokens
  | some searchToken =>
    if PairFilteringService.codeUnits (PairFilteringService.trim searchToken.toList) < 3 then tokens
    else
      let searchTerm := PairFilteringService.trim (services.toUpperCase searchToken).toList
      tokens.filter fun token =>
        Text.includes (services.toUpperCase token.name).toList searchTerm ||
          Text.includes (services.toUpperCase token.identifier).toList searchTerm ||
            Text.includes (services.toUpperCase token.ticker).toList searchTerm

end Filters

/-! ## `token.service.ts` -/

namespace TokenServices

variable (services : TokenServices)

/-- A pair's callback, once its state is known. -/
def pushTokens (activePool : Bool) (tokenIDs : List TokenID) (iterator : PairMetadata) :
    List TokenID :=
  if activePool ∧ services.state iterator.address ≠ some "Active" then tokenIDs
  else tokenIDs ++ [iterator.firstTokenID, iterator.secondTokenID]

/-- Without a state to wait for the callbacks run in the order of the pairs. -/
def getUniqueTokenIDs (activePool : Bool) (completion : Completion services.pairsMetadata) :
    List TokenID :=
  let pairsMetadata := if activePool then completion.order else services.pairsMetadata
  (pairsMetadata.foldl (services.pushTokens activePool) []).eraseDups

/-- What is filtered and sorted, before a page is cut out. -/
def filteredTokens (engine : ArraySort (SortItem TokenID)) (filters : TokensFilter)
    (sorting : Option TokenSortingArgs) (completion : Completion services.pairsMetadata) :
    List EsdtToken :=
  let tokenIDs := services.getUniqueTokenIDs filters.enabledSwaps completion
  let tokenIDs := tokensByIdentifier filters tokenIDs
  let tokenIDs := tokensByType services filters tokenIDs
  let tokenIDs := tokensByLiquidityUSD services filters tokenIDs
  let tokenIDs := match sorting with
    | none => tokenIDs
    | some sorting => sortTokens engine services.toTokenComputeService tokenIDs sorting.sortField
      sorting.sortOrder
  tokensBySearchTerm services filters (tokenIDs.map services.getTokenMetadata)

/-- One page of what is filtered and sorted. -/
def getFilteredTokens (engine : ArraySort (SortItem TokenID)) (offset limit : ℤ)
    (filters : TokensFilter) (sorting : Option TokenSortingArgs)
    (completion : Completion services.pairsMetadata) : CollectionType :=
  let tokens := services.filteredTokens engine filters sorting completion
  { count := tokens.length
    items := slice tokens offset (offset + limit) }

/-! ## A stable listing -/

/-- The pairs whose tokens are listed. -/
def admitted (activePool : Bool) (iterator : PairMetadata) : Bool :=
  ¬(activePool ∧ services.state iterator.address ≠ some "Active")

/-- Requests list the same tokens in the same order, each once, those of the
admitted pairs; and unsorted pages of different requests, whatever is
filtered, are those of one listing. -/
structure StableListing (engine : ArraySort (SortItem TokenID)) (activePool : Bool) : Prop where
  same : ∀ completion completion', services.getUniqueTokenIDs activePool completion =
    services.getUniqueTokenIDs activePool completion'
  nodup : ∀ completion, (services.getUniqueTokenIDs activePool completion).Nodup
  tokens : ∀ completion tokenID, tokenID ∈ services.getUniqueTokenIDs activePool completion ↔
    ∃ pair ∈ services.pairsMetadata, services.admitted activePool pair ∧
      (tokenID = pair.firstTokenID ∨ tokenID = pair.secondTokenID)
  pages : ∀ filters : TokensFilter, filters.enabledSwaps = activePool → ∀ n : ℕ, 1 ≤ n →
    ∀ (requests : ℕ → Completion services.pairsMetadata) (completion),
      Lists (fun k => (services.getFilteredTokens engine ((k * n : ℕ) : ℤ) n filters none
        (requests k)).items) n (services.filteredTokens engine filters none completion)

/-- Any two of the pairs have the same first token, and the same second one
unless it is the first token of one of them. -/
def OneBase (pairs : List PairMetadata) : Prop :=
  ∀ pair ∈ pairs, ∀ other ∈ pairs, pair.firstTokenID = other.firstTokenID ∧
    (pair.secondTokenID = other.secondTokenID ∨ pair.secondTokenID = pair.firstTokenID ∨
      other.secondTokenID = other.firstTokenID)

/-- What a pair puts into the list. -/
def pairTokens (pair : PairMetadata) : List TokenID := [pair.firstTokenID, pair.secondTokenID]

variable {services} {activePool : Bool}

theorem foldl_pushTokens (pairs : List PairMetadata) (tokenIDs : List TokenID) :
    pairs.foldl (services.pushTokens activePool) tokenIDs =
      tokenIDs ++ (pairs.filter (services.admitted activePool)).flatMap pairTokens := by
  induction pairs generalizing tokenIDs with
  | nil => simp
  | cons pair pairs ih =>
    rw [List.foldl_cons, ih]
    unfold pushTokens
    by_cases h : activePool ∧ services.state pair.address ≠ some "Active"
    · have hout : services.admitted activePool pair = false := by simpa [admitted] using h
      rw [if_pos h, List.filter_cons_of_neg (by simp [hout])]
    · have hin : services.admitted activePool pair = true := by
        unfold admitted
        exact decide_eq_true h
      rw [if_neg h, List.filter_cons_of_pos hin, List.flatMap_cons, List.append_assoc]
      rfl

/-- The list is the first occurrences among the tokens of the admitted pairs. -/
theorem getUniqueTokenIDs_eq (completion : Completion services.pairsMetadata) :
    services.getUniqueTokenIDs activePool completion =
      (((if activePool then completion.order else services.pairsMetadata).filter
        (services.admitted activePool)).flatMap pairTokens).eraseDups := by
  unfold getUniqueTokenIDs
  dsimp only
  rw [foldl_pushTokens, List.nil_append]

theorem mem_pairTokens_iff {pairs : List PairMetadata} {tokenID : TokenID} :
    tokenID ∈ pairs.flatMap pairTokens ↔
      ∃ pair ∈ pairs, tokenID = pair.firstTokenID ∨ tokenID = pair.secondTokenID := by
  simp [pairTokens]

/-- The tokens of the admitted pairs, whatever the order. -/
theorem mem_getUniqueTokenIDs (completion : Completion services.pairsMetadata) (tokenID : TokenID) :
    tokenID ∈ services.getUniqueTokenIDs activePool completion ↔
      ∃ pair ∈ services.pairsMetadata, services.admitted activePool pair ∧
        (tokenID = pair.firstTokenID ∨ tokenID = pair.secondTokenID) := by
  have horder : ∀ pair, pair ∈ (if activePool then completion.order else services.pairsMetadata) ↔
      pair ∈ services.pairsMetadata := by
    intro pair
    split
    next => exact completion.perm.mem_iff
    next => exact Iff.rfl
  rw [getUniqueTokenIDs_eq, List.mem_eraseDups, mem_pairTokens_iff]
  simp only [List.mem_filter, horder, and_assoc]

/-! ## The order of the pairs -/

/-- What is listed behind the first token, without it. -/
def behindFirst (base : String) (pair : PairMetadata) (pairs : List PairMetadata) : List String :=
  (pair.secondTokenID :: pairs.flatMap pairTokens).filter fun c => !c == base

theorem eraseDups_flatMap_cons (pair : PairMetadata) (pairs : List PairMetadata) :
    ((pair :: pairs).flatMap pairTokens).eraseDups =
      pair.firstTokenID :: (behindFirst pair.firstTokenID pair pairs).eraseDups :=
  List.eraseDups_cons

/-- What comes behind the first token are the other tokens. -/
theorem mem_behindFirst {base : String} {pair : PairMetadata} (hbase : pair.firstTokenID = base)
    (pairs : List PairMetadata) (tokenID : String) :
    tokenID ∈ behindFirst base pair pairs ↔
      tokenID ∈ (pair :: pairs).flatMap pairTokens ∧ tokenID ≠ base := by
  unfold behindFirst
  rw [List.mem_filter, List.flatMap_cons]
  simp only [pairTokens, List.mem_append, List.mem_cons, hbase, List.not_mem_nil, or_false,
    Bool.not_eq_true', beq_eq_false_iff_ne]
  constructor
  · rintro ⟨hsecond | hrest, hne⟩
    · exact ⟨Or.inl (Or.inr hsecond), hne⟩
    · exact ⟨Or.inr hrest, hne⟩
  · rintro ⟨(hfirst | hsecond) | hrest, hne⟩
    · exact absurd hfirst hne
    · exact ⟨Or.inl hsecond, hne⟩
    · exact ⟨Or.inr hrest, hne⟩

/-- A token other than the base is the second one of its pair. -/
theorem OneBase.exists_second {pair : PairMetadata} {pairs : List PairMetadata}
    (h : OneBase (pair :: pairs)) {tokenID : String}
    (hin : tokenID ∈ (pair :: pairs).flatMap pairTokens) (hne : tokenID ≠ pair.firstTokenID) :
    ∃ p ∈ pair :: pairs, tokenID = p.secondTokenID ∧ p.secondTokenID ≠ p.firstTokenID := by
  obtain ⟨p, hp, heq⟩ := mem_pairTokens_iff.mp hin
  have hbase := (h p hp pair List.mem_cons_self).1
  have htoken : tokenID = p.secondTokenID := heq.resolve_left fun heq => hne (heq.trans hbase)
  exact ⟨p, hp, htoken, fun heq => hne (htoken.trans (heq.trans hbase))⟩

/-- With one base, what is listed behind the first token is one token. -/
theorem eraseDups_eq_of_oneBase {pairs pairs' : List PairMetadata} (h : OneBase pairs)
    (hperm : pairs'.Perm pairs) :
    (pairs'.flatMap pairTokens).eraseDups = (pairs.flatMap pairTokens).eraseDups := by
  cases pairs with
  | nil => rw [hperm.eq_nil]
  | cons pair pairs =>
    cases pairs' with
    | nil => exact absurd hperm.symm.eq_nil (List.cons_ne_nil _ _)
    | cons pair' pairs' =>
      have hin : pair' ∈ pair :: pairs := hperm.mem_iff.mp List.mem_cons_self
      have hfirst : pair'.firstTokenID = pair.firstTokenID :=
        (h pair' hin pair List.mem_cons_self).1
      have htokens : ∀ tokenID, tokenID ∈ behindFirst pair.firstTokenID pair' pairs' ↔
          tokenID ∈ (pair :: pairs).flatMap pairTokens ∧ tokenID ≠ pair.firstTokenID := by
        intro tokenID
        rw [mem_behindFirst hfirst, mem_pairTokens_iff, mem_pairTokens_iff]
        simp only [hperm.mem_iff]
      rw [eraseDups_flatMap_cons, eraseDups_flatMap_cons, hfirst]
      refine congrArg (List.cons pair.firstTokenID) (eraseDups_eq_of_same (fun tokenID => ?_)
        fun tokenID htoken other hother => ?_)
      · rw [htokens, mem_behindFirst rfl]
      · obtain ⟨hin, hne⟩ := (htokens tokenID).mp htoken
        obtain ⟨hin', hne'⟩ := (htokens other).mp hother
        obtain ⟨p, hp, rfl, hp'⟩ := h.exists_second hin hne
        obtain ⟨q, hq, rfl, hq'⟩ := h.exists_second hin' hne'
        exact (h p hp q hq).2.resolve_right fun hor => hor.elim hp' hq'

/-- Two pairs that may come first, either before the other. -/
theorem oneBase_of_heads {pair other : PairMetadata} {rest : List PairMetadata}
    (h : ((pair :: other :: rest).flatMap pairTokens).eraseDups =
      ((other :: pair :: rest).flatMap pairTokens).eraseDups) :
    pair.firstTokenID = other.firstTokenID ∧
      (pair.secondTokenID = other.secondTokenID ∨ pair.secondTokenID = pair.firstTokenID ∨
        other.secondTokenID = other.firstTokenID) := by
  change (pair.firstTokenID :: pair.secondTokenID :: other.firstTokenID :: other.secondTokenID ::
      rest.flatMap pairTokens).eraseDups =
    (other.firstTokenID :: other.secondTokenID :: pair.firstTokenID :: pair.secondTokenID ::
      rest.flatMap pairTokens).eraseDups at h
  have hfirst : pair.firstTokenID = other.firstTokenID := by
    rw [List.eraseDups_cons, List.eraseDups_cons, List.cons.injEq] at h
    exact h.1
  refine ⟨hfirst, ?_⟩
  by_cases hpair : pair.secondTokenID = pair.firstTokenID
  · exact Or.inr (Or.inl hpair)
  by_cases hother : other.secondTokenID = other.firstTokenID
  · exact Or.inr (Or.inr hother)
  -- the token behind the base is that of the pair that came first
  obtain ⟨behind, hbehind⟩ := exists_eraseDups_of_ne hpair
    (other.firstTokenID :: other.secondTokenID :: rest.flatMap pairTokens)
  obtain ⟨behind', hbehind'⟩ := exists_eraseDups_of_ne hother
    (pair.firstTokenID :: pair.secondTokenID :: rest.flatMap pairTokens)
  rw [hbehind, hbehind', List.cons.injEq, List.cons.injEq] at h
  exact Or.inl h.2.1

/-! ## When the listing is stable -/

/-- All orders give one list only if no order can be seen in it. -/
theorem same_iff_oneBase : (∀ completion completion', services.getUniqueTokenIDs true completion =
      services.getUniqueTokenIDs true completion') ↔
    OneBase (services.pairsMetadata.filter (services.admitted true)) := by
  constructor
  · intro h pair hpair other hother
    rcases eq_or_ne other pair with rfl | hne
    · exact ⟨rfl, Or.inl rfl⟩
    obtain ⟨hpair, hadmitted⟩ := List.mem_filter.mp hpair
    obtain ⟨hother, hadmitted'⟩ := List.mem_filter.mp hother
    have hperm : (pair :: other :: (services.pairsMetadata.erase pair).erase other).Perm
        services.pairsMetadata :=
      ((List.perm_cons_erase ((List.mem_erase_of_ne hne).mpr hother)).symm.cons pair).trans
        (List.perm_cons_erase hpair).symm
    have hsame := h ⟨_, hperm⟩ ⟨_, (List.Perm.swap pair other _).trans hperm⟩
    rw [getUniqueTokenIDs_eq, getUniqueTokenIDs_eq] at hsame
    simp only [if_true, List.filter_cons_of_pos hadmitted, List.filter_cons_of_pos hadmitted']
      at hsame
    exact oneBase_of_heads hsame
  · intro h completion completion'
    have hsame : ∀ c : Completion services.pairsMetadata,
        services.getUniqueTokenIDs true c = ((services.pairsMetadata.filter
          (services.admitted true)).flatMap pairTokens).eraseDups := by
      intro c
      rw [getUniqueTokenIDs_eq, if_pos rfl]
      exact eraseDups_eq_of_oneBase h (c.perm.filter _)
    rw [hsame, hsame]

/-- Requests that list the same tokens show pages of one listing. -/
theorem stableListing_of_same {engine : ArraySort (SortItem TokenID)}
    (h : ∀ completion completion', services.getUniqueTokenIDs activePool completion =
      services.getUniqueTokenIDs activePool completion') :
    services.StableListing engine activePool := by
  refine ⟨h, fun completion => ?_, mem_getUniqueTokenIDs, ?_⟩
  · rw [getUniqueTokenIDs_eq]
    exact nodup_eraseDups _
  · rintro filters rfl n hn requests completion
    have hpage : ∀ k, (services.getFilteredTokens engine ((k * n : ℕ) : ℤ) n filters none
        (requests k)).items = slice (services.filteredTokens engine filters none completion)
          ((k * n : ℕ) : ℤ) ((k * n + n : ℕ) : ℤ) := by
      intro k
      show slice (services.filteredTokens engine filters none (requests k)) _ _ = _
      rw [show services.filteredTokens engine filters none (requests k) =
        services.filteredTokens engine filters none completion by
          unfold filteredTokens
          rw [h (requests k) completion]]
      rfl
    simp only [hpage]
    exact lists_slice n _

/-- Tokens are listed in one order if no states are waited for, or the pairs
with enabled swaps have one base. -/
theorem stableListing_iff (engine : ArraySort (SortItem TokenID)) (services : TokenServices)
    (enabledSwaps : Bool) :
    services.StableListing engine enabledSwaps ↔
      enabledSwaps = false ∨
        OneBase (services.pairsMetadata.filter (services.admitted true)) := by
  cases enabledSwaps with
  | false =>
    refine ⟨fun _ => Or.inl rfl, fun _ => stableListing_of_same fun completion completion' => ?_⟩
    rw [getUniqueTokenIDs_eq, getUniqueTokenIDs_eq]
    rfl
  | true =>
    rw [← same_iff_oneBase]
    exact ⟨fun h => Or.inr h.same, fun h => stableListing_of_same (h.resolve_left (by decide))⟩

end TokenServices

/-- Two pairs with enabled swaps and without a token in common. -/
def twoPairs : TokenServices where
  tokenPriceDerivedUSD := fun _ => .nan
  tokenPrevious24hPrice := fun _ => .nan
  tokenPrevious7dPrice := fun _ => .nan
  tokenPriceChange24h := fun _ => .nan
  tokenVolumeUSDChange24h := fun _ => .nan
  tokenTradeChange24h := fun _ => .nan
  tokenCreatedAt := fun _ => .nan
  tokenLiquidityUSD := fun _ => .nan
  tokenVolumeUSD24h := fun _ => .nan
  tokenPrevious24hVolumeUSD := fun _ => .nan
  tokenSwapCount := fun _ => .nan
  tokenTrendingScore := fun _ => .nan
  pairsMetadata := [⟨"erd1first", "WEGLD-bd4d79", "USDC-c76f1f"⟩,
    ⟨"erd1second", "MEX-455c57", "UTK-2f80e9"⟩]
  state := fun _ => some "Active"
  getEsdtTokenType := fun _ => "FungibleESDT"
  getTokenMetadata := fun tokenID => ⟨tokenID, tokenID, tokenID⟩
  toUpperCase := fun text => text

/-- The state of the second pair is read first in another request. -/
theorem not_stableListing_twoPairs : ¬twoPairs.StableListing (.insertion _) true := by
  intro h
  have hsame := h.same ⟨twoPairs.pairsMetadata, .refl _⟩
    ⟨twoPairs.pairsMetadata.reverse, List.reverse_perm _⟩
  exact absurd hsame (by decide +kernel)

end MxExchange.Tokens
