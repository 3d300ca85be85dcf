import MxExchange.Cache.CachedMethods
import MxExchange.Collections.Pages
import MxExchange.Router.Sorting
import MxExchange.Text.Buffer
import MxExchange.Text.Split

/-!
# The two listings of pairs

`getAllPairs` filters the pairs in the router service, `getFilteredPairs` with
the filters of `PairFilteringService`, applied one after the other by
`PairsMetadataBuilder`. On the fields both accept the filters are the same, and
keep the pairs that `accepts` describes.

What they do not share is a cache: `getAllPairs` caches the pairs whose LP token
has been issued, for half a minute. While what is cached is what the getters
say, the two listings agree (`listings_agree`); a token issued in the meantime
shows in one of them only.
-/

namespace MxExchange.Router

open MxExchange.Cache MxExchange.Collections MxExchange.Num
open Pair (TokenID)
open Tokens (PairMetadata)

/-! ## What is asked for -/

/-- The arguments of `getAllPairs`; a field that is not given is `none`. -/
structure PairFilterArgs where
  address : Option String := none
  firstTokenID : Option TokenID := none
  secondTokenID : Option TokenID := none
  issuedLpToken : Bool := true
  state : Option String := none
  minVolume : Option Double := none
  feeState : Option Bool := none
  minLockedValueUSD : Option Double := none

/-- The arguments of `getFilteredPairs`, which has five fields more. -/
structure PairsFilter extends PairFilterArgs where
  minTradesCount : Option Double := none
  hasFarms : Option Bool := none
  hasDualFarms : Option Bool := none
  minDeployedAt : Option Double := none
  searchToken : Option String := none

/-- The order that is asked for. -/
structure PairSortingArgs where
  sortField : Option PairSortableFields
  sortOrder : SortingOrder

/-- The fields of a token that are searched. -/
structure EsdtToken where
  identifier : TokenID
  name : String
  ticker : String

/-- What the services answer, by pair address; where they answer `undefined`
there is none. Cases of letters are those of the platform. -/
structure PairServices extends PairComputeService where
  pairsMetadata : List PairMetadata
  lpTokenID : String → Option String
  state : String → Option String
  feeState : String → Option Bool
  hasFarms : String → Bool
  hasDualFarms : String → Bool
  getFirstToken : String → EsdtToken
  getSecondToken : String → EsdtToken
  toUpperCase : String → String

/-- What is set of a `PairModel`. -/
structure PairModel where
  address : String
  deriving DecidableEq

/-- A page with the number of pairs on all pages. -/
structure CollectionType where
  count : ℕ
  items : List PairModel

/-! ## How a filter is written -/

/-- A string that is there, and not empty. -/
def truthy : Option String → Option String := Option.filter fun text => text ≠ ""

/-- A number that is there, and not zero. -/
def truthyNumber : Option Double → Option Double := Option.filter fun number => number.val ≠ 0

/-- `gte` of the library; `NaN` passes no threshold. -/
def isGreaterThanOrEqualTo (x y : BigNumber) : Bool := y.isLessThanOrEqualTo x

/-- `if (!field) return pairsMetadata`. -/
def whenGiven {β : Type} (field : Option β)
    (select : β → List PairMetadata → List PairMetadata) (pairsMetadata : List PairMetadata) :
    List PairMetadata :=
  match field with
  | none => pairsMetadata
  | some value => select value pairsMetadata

/-- The pairs whose value is to be kept, the values having been fetched for all
of them first. -/
def filterByValue {β : Type} (getter : String → β) (keep : β → Bool)
    (pairsMetadata : List PairMetadata) : List PairMetadata :=
  let values := pairsMetadata.map fun pairMetadata => getter pairMetadata.address
  ((pairsMetadata.zip values).filter fun (_, value) => keep value).map Prod.fst

/-- The LP token of a pair, if the contract has issued one. -/
def isIssued (lpTokenID : Option String) : Bool :=
  lpTokenID ≠ none ∧ lpTokenID ≠ some "undefined" ∧ lpTokenID ≠ some ""

/-! ## `router.service.ts` -/

namespace RouterService

/-- Nothing is filtered if no address is given, or an empty one. -/
def filterPairsByAddress (pairFilter : PairFilterArgs) : List PairMetadata → List PairMetadata :=
  whenGiven (truthy pairFilter.address) fun address =>
    List.filter fun pair => address = pair.address

/-- Both tokens in either order, or one of them at its place. -/
def filterPairsByTokens (pairFilter : PairFilterArgs) (pairsMetadata : List PairMetadata) :
    List PairMetadata :=
  match truthy pairFilter.firstTokenID, truthy pairFilter.secondTokenID with
  | some firstTokenID, some secondTokenID => pairsMetadata.filter fun pair =>
    (firstTokenID = pair.firstTokenID ∧ secondTokenID = pair.secondTokenID) ∨
      (firstTokenID = pair.secondTokenID ∧ secondTokenID = pair.firstTokenID)
  | some firstTokenID, none => pairsMetadata.filter fun pair => firstTokenID = pair.firstTokenID
  | none, some secondTokenID => pairsMetadata.filter fun pair => secondTokenID = pair.secondTokenID
  | none, none => pairsMetadata

/-- The filter behind the cache. -/
def filterPairsByIssuedLpTokenRaw (services : PairServices) :
    List PairMetadata → List PairMetadata :=
  filterByValue services.lpTokenID isIssued

/-- `JSON.stringify`; nothing in an address or an identifier is escaped. -/
def stringifyPairs (pairsMetadata : List PairMetadata) : String :=
  "[" ++ ",".intercalate (pairsMetadata.map fun pair =>
    "\x7b\"firstTokenID\":\"" ++ pair.firstTokenID ++ "\",\"secondTokenID\":\"" ++
      pair.secondTokenID ++ "\",\"address\":\"" ++ pair.address ++ "\"\x7d") ++ "]"

/-- The call that is cached. The timestamp is `0` unless the request is about
the past. -/
def issuedLpTokenCall (deepHistoryTimestamp : ℕ) (pairsMetadata : List PairMetadata) :
    CachedCall where
  baseKey := "router"
  propertyKey := "pairsByIssuedLpToken"
  args := [.object (stringifyPairs pairsMetadata)]
  deepHistoryTimestamp

/-- The answer, and the cache afterwards. -/
def pairsByIssuedLpToken (services : PairServices) (deepHistoryTimestamp : ℕ)
    (cache : JsMap String (List PairMetadata)) (pairsMetadata : List PairMetadata) :
    List PairMetadata × JsMap String (List PairMetadata) :=
  let cacheKey := (issuedLpTokenCall deepHistoryTimestamp pairsMetadata).cacheKey
  match JsMap.get cache cacheKey with
  | some cached => (cached, cache)
  | none =>
    let value := filterPairsByIssuedLpTokenRaw services pairsMetadata
    (value, JsMap.set cache cacheKey value)

/-- `state` is an enumeration printed as a string. -/
def filterPairsByState (services : PairServices) (pairFilter : PairFilterArgs) :
    List PairMetadata → List PairMetadata :=
  whenGiven (truthy pairFilter.state) fun state =>
    filterByValue services.state fun pairState => pairState = some state

/-- Whether the pair takes fees. -/
def filterPairsByFeeState (services : PairServices) (pairFilter : PairFilterArgs) :
    List PairMetadata → List PairMetadata :=
  whenGiven pairFilter.feeState fun feeState =>
    filterByValue services.feeState fun pairFeeState => pairFeeState = some feeState

/-- The volume of the last 24 hours in dollars, at least. -/
def filterPairsByVolume (services : PairServices) (pairFilter : PairFilterArgs) :
    List PairMetadata → List PairMetadata :=
  whenGiven (truthyNumber pairFilter.minVolume) fun minVolume =>
    filterByValue (fun address => services.volumeUSD address "24h") fun volume =>
      isGreaterThanOrEqualTo volume (.ofDouble minVolume)

/-- What the pair has locked in dollars, at least. -/
def filterPairsByLockedValueUSD (services : PairServices) (pairFilter : PairFilterArgs) :
    List PairMetadata → List PairMetadata :=
  whenGiven (truthyNumber pairFilter.minLockedValueUSD) fun minLockedValueUSD =>
    filterByValue services.lockedValueUSD fun lockedValueUSD =>
      isGreaterThanOrEqualTo lockedValueUSD (.ofDouble minLockedValueUSD)

/-- The filters in their order, the page last. The second filter goes through
the cache. -/
def getAllPairs (services : PairServices) (deepHistoryTimestamp : ℕ)
    (cache : JsMap String (List PairMetadata)) (offset limit : ℤ) (pairFilter : PairFilterArgs) :
    List PairModel × JsMap String (List PairMetadata) :=
  let (pairsMetadata, cache) := if pairFilter.issuedLpToken then
      pairsByIssuedLpToken services deepHistoryTimestamp cache services.pairsMetadata
    else (services.pairsMetadata, cache)
  let pairsMetadata := filterPairsByAddress pairFilter pairsMetadata
  let pairsMetadata := filterPairsByTokens pairFilter pairsMetadata
  let pairsMetadata := filterPairsByState services pairFilter pairsMetadata
  let pairsMetadata := filterPairsByFeeState services pairFilter pairsMetadata
  let pairsMetadata := filterPairsByVolume services pairFilter pairsMetadata
  let pairsMetadata := filterPairsByLockedValueUSD services pairFilter pairsMetadata
  (slice (pairsMetadata.map fun pairMetadata => ⟨pairMetadata.address⟩) offset (offset + limit),
    cache)

end RouterService

/-! ## `pair.filtering.service.ts` -/

namespace PairFilteringService

/-- The same filter without a cache. -/
def pairsByIssuedLpToken (services : PairServices) (pairFilter : PairFilterArgs)
    (pairsMetadata : List PairMetadata) : List PairMetadata :=
  if pairFilter.issuedLpToken then filterByValue services.lpTokenID isIssued pairsMetadata
  else pairsMetadata

/-- As in the router service. -/
def pairsByAddress (pairFilter : PairFilterArgs) : List PairMetadata → List PairMetadata :=
  whenGiven (truthy pairFilter.address) fun address =>
    List.filter fun pair => address = pair.address

/-- As in the router service. -/
def pairsByTokens (pairFilter : PairFilterArgs) (pairsMetadata : List PairMetadata) :
    List PairMetadata :=
  match truthy pairFilter.firstTokenID, truthy pairFilter.secondTokenID with
  | some firstTokenID, some secondTokenID => pairsMetadata.filter fun pair =>
    (firstTokenID = pair.firstTokenID ∧ secondTokenID = pair.secondTokenID) ∨
      (firstTokenID = pair.secondTokenID ∧ secondTokenID = pair.firstTokenID)
  | some firstTokenID, none => pairsMetadata.filter fun pair => firstTokenID = pair.firstTokenID
  | none, some secondTokenID => pairsMetadata.filter fun pair => secondTokenID = pair.secondTokenID
  | none, none => pairsMetadata

/-- `String.prototype.trim`. -/
def trim (text : List Char) : List Char :=
  (((text.dropWhile Text.isStrWhiteSpace).reverse).dropWhile Text.isStrWhiteSpace).reverse

/-- `length` of a string: its UTF-16 code units. -/
def codeUnits (text : List Char) : ℕ := (text.map fun c => if c.toNat < 0x10000 then 1 else 2).sum

/-- One of the texts of the token has the term in it. -/
def matchesToken (services : PairServices) (searchTerm : List Char) (token : EsdtToken) : Bool :=
  Text.includes (services.toUpperCase token.name).toList searchTerm ||
    Text.includes (services.toUpperCase token.identifier).toList searchTerm ||
      Text.includes (services.toUpperCase token.ticker).toList searchTerm

/-- A search text of three code units or more is in a name, an identifier or a
ticker of one of the tokens, letters of either case. -/
def pairsByWildcardToken (services : PairServices) (pairFilter : PairsFilter)
    (pairsMetadata : List PairMetadata) : List PairMetadata :=
  match truthy pairFilter.searchToken with
  | none => pairsMetadata
  | some searchToken =>
    if codeUnits (trim searchToken.toList) < 3 then pairsMetadata
    else
      let searchTerm := trim (services.toUpperCase searchToken).toList
      filterByValue
        (fun address => (services.getFirstToken address, services.getSecondToken address))
        (fun (firstToken, secondToken) => matchesToken services searchTerm firstToken ||
          matchesToken services searchTerm secondToken) pairsMetadata

def pairsByState (services : PairServices) (pairFilter : PairFilterArgs) :
    List PairMetadata → List PairMetadata :=
  whenGiven (truthy pairFilter.state) fun state =>
    filterByValue services.state fun pairState => pairState = some state

def pairsByFeeState (services : PairServices) (pairFilter : PairFilterArgs) :
    List PairMetadata → List PairMetadata :=
  whenGiven pairFilter.feeState fun feeState =>
    filterByValue services.feeState fun pairFeeState => pairFeeState = some feeState

def pairsByVolume (services : PairServices) (pairFilter : PairFilterArgs) :
    List PairMetadata → List PairMetadata :=
  whenGiven (truthyNumber pairFilter.minVolume) fun minVolume =>
    filterByValue (fun address => services.volumeUSD address "24h") fun volume =>
      isGreaterThanOrEqualTo volume (.ofDouble minVolume)

def pairsByLockedValueUSD (services : PairServices) (pairFilter : PairFilterArgs) :
    List PairMetadata → List PairMetadata :=
  whenGiven (truthyNumber pairFilter.minLockedValueUSD) fun minLockedValueUSD =>
    filterByValue services.lockedValueUSD fun lockedValueUSD =>
      isGreaterThanOrEqualTo lockedValueUSD (.ofDouble minLockedValueUSD)

/-- The number of trades ever, at least. -/
def pairsByTradesCount (services : PairServices) (pairFilter : PairsFilter) :
    List PairMetadata → List PairMetadata :=
  whenGiven (truthyNumber pairFilter.minTradesCount) fun minTradesCount =>
    filterByValue services.tradesCount fun tradesCount =>
      isGreaterThanOrEqualTo tradesCount (.ofDouble minTradesCount)

/-- Whether there is a farm for the LP token. -/
def pairsByHasFarms (services : PairServices) (pairFilter : PairsFilter) :
    List PairMetadata → List PairMetadata :=
  whenGiven pairFilter.hasFarms fun hasFarms =>
    filterByValue services.hasFarms fun pairHasFarms => pairHasFarms = hasFarms

/-- Whether there is a dual farm for the LP token. -/
def pairsByHasDualFarms (services : PairServices) (pairFilter : PairsFilter) :
    List PairMetadata → List PairMetadata :=
  whenGiven pairFilter.hasDualFarms fun hasDualFarms =>
    filterByValue services.hasDualFarms fun pairHasDualFarms => pairHasDualFarms = hasDualFarms

/-- The time of deployment, at least. -/
def pairsByDeployedAt (services : PairServices) (pairFilter : PairsFilter) :
    List PairMetadata → List PairMetadata :=
  whenGiven (truthyNumber pairFilter.minDeployedAt) fun minDeployedAt =>
    filterByValue services.deployedAt fun deployedAt =>
      isGreaterThanOrEqualTo deployedAt (.ofDouble minDeployedAt)

end PairFilteringService

/-! ## `pair.metadata.builder.ts` -/

/-- What is left of the pairs after the filters applied so far. -/
structure PairsMetadataBuilder where
  pairsMetadata : List PairMetadata
  filters : PairsFilter
  filteringService : PairServices

namespace PairsMetadataBuilder

/-- `this.pairsMetadata = …`. -/
def setPairsMetadata (b : PairsMetadataBuilder) (pairsMetadata : List PairMetadata) :
    PairsMetadataBuilder :=
  { b with pairsMetadata }

def filterByIssuedLpToken (b : PairsMetadataBuilder) : PairsMetadataBuilder :=
  b.setPairsMetadata (PairFilteringService.pairsByIssuedLpToken b.filteringService
    b.filters.toPairFilterArgs b.pairsMetadata)

def filterByAddress (b : PairsMetadataBuilder) : PairsMetadataBuilder :=
  b.setPairsMetadata (PairFilteringService.pairsByAddress b.filters.toPairFilterArgs
    b.pairsMetadata)

def filterByTokens (b : PairsMetadataBuilder) : PairsMetadataBuilder :=
  let b := match truthy b.filters.searchToken with
    | some _ => b.setPairsMetadata (PairFilteringService.pairsByWildcardToken b.filteringService
        b.filters b.pairsMetadata)
    | none => b
  b.setPairsMetadata (PairFilteringService.pairsByTokens b.filters.toPairFilterArgs b.pairsMetadata)

def filterByState (b : PairsMetadataBuilder) : PairsMetadataBuilder :=
  b.setPairsMetadata (PairFilteringService.pairsByState b.filteringService
    b.filters.toPairFilterArgs b.pairsMetadata)

def filterByFeeState (b : PairsMetadataBuilder) : PairsMetadataBuilder :=
  b.setPairsMetadata (PairFilteringService.pairsByFeeState b.filteringService
    b.filters.toPairFilterArgs b.pairsMetadata)

def filterByVolume (b : PairsMetadataBuilder) : PairsMetadataBuilder :=
  b.setPairsMetadata (PairFilteringService.pairsByVolume b.filteringService
    b.filters.toPairFilterArgs b.pairsMetadata)

def filterByLockedValueUSD (b : PairsMetadataBuilder) : PairsMetadataBuilder :=
  b.setPairsMetadata (PairFilteringService.pairsByLockedValueUSD b.filteringService
    b.filters.toPairFilterArgs b.pairsMetadata)

def filterByTradesCount (b : PairsMetadataBuilder) : PairsMetadataBuilder :=
  b.setPairsMetadata (PairFilteringService.pairsByTradesCount b.filteringService b.filters
    b.pairsMetadata)

def filterByHasFarms (b : PairsMetadataBuilder) : PairsMetadataBuilder :=
  b.setPairsMetadata (PairFilteringService.pairsByHasFarms b.filteringService b.filters
    b.pairsMetadata)

def filterByHasDualFarms (b : PairsMetadataBuilder) : PairsMetadataBuilder :=
  b.setPairsMetadata (PairFilteringService.pairsByHasDualFarms b.filteringService b.filters
    b.pairsMetadata)

def filterByDeployedAt (b : PairsMetadataBuilder) : PairsMetadataBuilder :=
  b.setPairsMetadata (PairFilteringService.pairsByDeployedAt b.filteringService b.filters
    b.pairsMetadata)

/-- The methods whose names begin with `filterBy`, as they stand in the class. -/
def availableFilters : List (PairsMetadataBuilder → PairsMetadataBuilder) :=
  [filterByIssuedLpToken, filterByAddress, filterByTokens, filterByState, filterByFeeState,
    filterByVolume, filterByLockedValueUSD, filterByTradesCount, filterByHasFarms,
    filterByHasDualFarms, filterByDeployedAt]

/-- The order of the filters in `applyAllFilters`; each narrows what the one
before has left. -/
def applyAllFilters (b : PairsMetadataBuilder) : PairsMetadataBuilder :=
  availableFilters.foldl (fun b filterFunction => filterFunction b) b

/-- What is left at last. -/
def build (b : PairsMetadataBuilder) : List PairMetadata := b.pairsMetadata

end PairsMetadataBuilder

/-- The filters in their order, then the sort, then the page. -/
def RouterService.getFilteredPairs (engine : ArraySort (SortItem PairMetadata))
    (services : PairServices) (offset limit : ℤ) (filters : PairsFilter)
    (sorting : Option PairSortingArgs) : CollectionType :=
  let builder : PairsMetadataBuilder :=
    { pairsMetadata := services.pairsMetadata, filters, filteringService := services }
  let pairsMetadata := builder.applyAllFilters.build
  let pairsMetadata := match sorting with
    | some sorting => sortPairs engine services.toPairComputeService pairsMetadata sorting.sortField
        sorting.sortOrder
    | none => pairsMetadata
  let pairs := pairsMetadata.map fun pairMetadata => (⟨pairMetadata.address⟩ : PairModel)
  { count := pairs.length, items := slice pairs offset (offset + limit) }

/-! ## What both select -/

section Listings

variable {services : PairServices} {filter : PairFilterArgs} {pairs : List PairMetadata}

/-- The test of a field that may be left out. -/
def given {β : Type} (field : Option β) (accepts : β → Bool) : Bool :=
  match field with
  | none => true
  | some value => accepts value

/-- What `pairsByTokens` keeps. -/
def acceptsTokens (filter : PairFilterArgs) (pair : PairMetadata) : Bool :=
  match truthy filter.firstTokenID, truthy filter.secondTokenID with
  | some firstTokenID, some secondTokenID =>
    (firstTokenID = pair.firstTokenID ∧ secondTokenID = pair.secondTokenID) ∨
      (firstTokenID = pair.secondTokenID ∧ secondTokenID = pair.firstTokenID)
  | some firstTokenID, none => firstTokenID = pair.firstTokenID
  | none, some secondTokenID => secondTokenID = pair.secondTokenID
  | none, none => true

/-- What the fields that are given ask of a pair. -/
def accepts (services : PairServices) (filter : PairFilterArgs) (pair : PairMetadata) : Bool :=
  (!filter.issuedLpToken || isIssued (services.lpTokenID pair.address)) &&
    given (truthy filter.address) (fun address => address = pair.address) &&
    acceptsTokens filter pair &&
    given (truthy filter.state) (fun state => services.state pair.address = some state) &&
    given filter.feeState (fun feeState => services.feeState pair.address = some feeState) &&
    given (truthyNumber filter.minVolume) (fun minVolume =>
      isGreaterThanOrEqualTo (services.volumeUSD pair.address "24h") (.ofDouble minVolume)) &&
    given (truthyNumber filter.minLockedValueUSD) (fun minLockedValueUSD =>
      isGreaterThanOrEqualTo (services.lockedValueUSD pair.address) (.ofDouble minLockedValueUSD))

/-- The pairs that are listed, all of them. -/
def selection (services : PairServices) (filter : PairFilterArgs) : List PairModel :=
  (services.pairsMetadata.filter (accepts services filter)).map fun pair => ⟨pair.address⟩

/-- Fetching all values first makes no difference to what is kept. -/
theorem filterByValue_eq {β : Type} (getter : String → β) (keep : β → Bool) :
    filterByValue getter keep pairs = pairs.filter fun pair => keep (getter pair.address) := by
  rw [filterByValue, ← List.map_prod_left_eq_zip, List.filter_map, List.map_map]
  exact List.map_id _

/-- A filter that is not asked for keeps everything. -/
theorem whenGiven_filter {β : Type} (field : Option β) (keep : β → PairMetadata → Bool) :
    whenGiven field (fun value => List.filter (keep value)) pairs =
      pairs.filter fun pair => given field fun value => keep value pair := by
  cases field with
  | none => exact (List.filter_true pairs).symm
  | some value => rfl

theorem whenGiven_filterByValue {β γ : Type} (field : Option β) (getter : String → γ)
    (keep : β → γ → Bool) :
    whenGiven field (fun value => filterByValue getter (keep value)) pairs =
      pairs.filter fun pair => given field fun value => keep value (getter pair.address) := by
  cases field with
  | none => exact (List.filter_true pairs).symm
  | some value => exact filterByValue_eq getter (keep value)

theorem pairsByIssuedLpToken_eq :
    PairFilteringService.pairsByIssuedLpToken services filter pairs = pairs.filter fun pair =>
      !filter.issuedLpToken || isIssued (services.lpTokenID pair.address) := by
  rw [PairFilteringService.pairsByIssuedLpToken]
  cases filter.issuedLpToken with
  | true => exact filterByValue_eq services.lpTokenID isIssued
  | false => exact (List.filter_true pairs).symm

/-- Each of the four cases is a filter by `acceptsTokens`. -/
theorem pairsByTokens_eq :
    PairFilteringService.pairsByTokens filter pairs = pairs.filter (acceptsTokens filter) := by
  unfold PairFilteringService.pairsByTokens acceptsTokens
  cases truthy filter.firstTokenID with
  | none =>
    cases truthy filter.secondTokenID with
    | none => exact (List.filter_true pairs).symm
    | some _ => rfl
  | some _ =>
    cases truthy filter.secondTokenID with
    | none => rfl
    | some _ => rfl

/-- The filters of the router service are those of the other one. -/
theorem filterPairsByTokens_eq :
    RouterService.filterPairsByTokens filter pairs = pairs.filter (acceptsTokens filter) :=
  pairsByTokens_eq

/-- The filters both apply, once the LP tokens have been looked at. -/
theorem filter_rest_eq (issued : PairMetadata → Bool)
    (hissued : ∀ pair, issued pair =
      (!filter.issuedLpToken || isIssued (services.lpTokenID pair.address))) :
    RouterService.filterPairsByLockedValueUSD services filter
      (RouterService.filterPairsByVolume services filter
        (RouterService.filterPairsByFeeState services filter
          (RouterService.filterPairsByState services filter
            (RouterService.filterPairsByTokens filter
              (RouterService.filterPairsByAddress filter (pairs.filter issued)))))) =
    pairs.filter (accepts services filter) := by
  rw [RouterService.filterPairsByLockedValueUSD, RouterService.filterPairsByVolume,
    RouterService.filterPairsByFeeState, RouterService.filterPairsByState,
    RouterService.filterPairsByAddress, whenGiven_filterByValue, whenGiven_filterByValue,
    whenGiven_filterByValue, whenGiven_filterByValue, filterPairsByTokens_eq, whenGiven_filter]
  -- filters in a row are one, and their order does not matter
  simp only [List.filter_filter]
  refine List.filter_congr fun pair _ => ?_
  rw [hissued, accepts]
  simp only [Bool.and_assoc, Bool.and_comm, Bool.and_left_comm]

/-- `PairsFilter` with the fields of the other one only. -/
def PairsFilter.ofArgs (filter : PairFilterArgs) : PairsFilter := { filter with }

/-- All filters together keep what `accepts` describes. -/
theorem build_applyAllFilters :
    (PairsMetadataBuilder.applyAllFilters ⟨pairs, PairsFilter.ofArgs filter, services⟩).build =
      pairs.filter (accepts services filter) := by
  have hbuild : (PairsMetadataBuilder.applyAllFilters
      ⟨pairs, PairsFilter.ofArgs filter, services⟩).build =
      PairFilteringService.pairsByLockedValueUSD services filter
        (PairFilteringService.pairsByVolume services filter
          (PairFilteringService.pairsByFeeState services filter
            (PairFilteringService.pairsByState services filter
              (PairFilteringService.pairsByTokens filter
                (PairFilteringService.pairsByAddress filter
                  (PairFilteringService.pairsByIssuedLpToken services filter pairs)))))) := rfl
  rw [hbuild, pairsByIssuedLpToken_eq]
  exact filter_rest_eq _ fun _ => rfl

/-- Without a sort the page is a slice of the selection. -/
theorem getFilteredPairs_eq (engine : ArraySort (SortItem PairMetadata)) (offset limit : ℤ) :
    RouterService.getFilteredPairs engine services offset limit (PairsFilter.ofArgs filter) none =
      { count := (selection services filter).length
        items := slice (selection services filter) offset (offset + limit) } := by
  simp only [RouterService.getFilteredPairs, build_applyAllFilters]
  rfl

/-! ## The cached list -/

variable {deepHistoryTimestamp : ℕ} {cache : JsMap String (List PairMetadata)}

/-- What is cached of the pairs with an issued LP token, if anything is, is what
the getters say. -/
def UpToDate (services : PairServices) (deepHistoryTimestamp : ℕ)
    (cache : JsMap String (List PairMetadata)) : Prop :=
  ∀ cached, JsMap.get cache
      (RouterService.issuedLpTokenCall deepHistoryTimestamp services.pairsMetadata).cacheKey =
    some cached →
      cached = RouterService.filterPairsByIssuedLpTokenRaw services services.pairsMetadata

/-- The cached pairs are those the filter would keep. -/
theorem pairsByIssuedLpToken_of_upToDate (h : UpToDate services deepHistoryTimestamp cache) :
    (RouterService.pairsByIssuedLpToken services deepHistoryTimestamp cache
      services.pairsMetadata).1 =
        RouterService.filterPairsByIssuedLpTokenRaw services services.pairsMetadata := by
  rw [RouterService.pairsByIssuedLpToken]
  split
  · next cached hget => exact h cached hget
  · rfl

/-- The first listing leaves the cache up to date. -/
theorem upToDate_getAllPairs (h : UpToDate services deepHistoryTimestamp cache)
    (offset limit : ℤ) : UpToDate services deepHistoryTimestamp
      (RouterService.getAllPairs services deepHistoryTimestamp cache offset limit filter).2 := by
  unfold RouterService.getAllPairs
  cases filter.issuedLpToken with
  | false => exact h
  | true =>
    show UpToDate services deepHistoryTimestamp (RouterService.pairsByIssuedLpToken services
      deepHistoryTimestamp cache services.pairsMetadata).2
    rw [RouterService.pairsByIssuedLpToken]
    split
    · exact h
    · -- what is stored now is what the getters say
      intro cached hget
      rw [JsMap.get_set, if_pos rfl] at hget
      exact (Option.some.inj hget).symm

/-- The page of the other listing is the same slice, while the cache is up to
date. -/
theorem getAllPairs_eq
    (h : filter.issuedLpToken = true → UpToDate services deepHistoryTimestamp cache)
    (offset limit : ℤ) :
    (RouterService.getAllPairs services deepHistoryTimestamp cache offset limit filter).1 =
      slice (selection services filter) offset (offset + limit) := by
  have hissued : (if filter.issuedLpToken then RouterService.pairsByIssuedLpToken services
      deepHistoryTimestamp cache services.pairsMetadata else (services.pairsMetadata, cache)).1 =
      services.pairsMetadata.filter fun pair =>
        !filter.issuedLpToken || isIssued (services.lpTokenID pair.address) := by
    cases hfilter : filter.issuedLpToken with
    | true =>
      rw [if_pos rfl, pairsByIssuedLpToken_of_upToDate (h hfilter),
        RouterService.filterPairsByIssuedLpTokenRaw, filterByValue_eq]
      rfl
    | false => exact (List.filter_true _).symm
  -- the other filters are applied to that, one by one
  have hrest := @filter_rest_eq services filter services.pairsMetadata
    (fun pair => !filter.issuedLpToken || isIssued (services.lpTokenID pair.address)) fun _ => rfl
  rw [selection, ← hrest, ← hissued]
  rfl

/-! ## The listings agree -/

/-- Whatever is cached from page to page, if it is what the getters say: the two
listings are the selection, page by page. -/
theorem listings_agree (engine : ArraySort (SortItem PairMetadata)) (services : PairServices)
    (filter : PairFilterArgs) (deepHistoryTimestamp : ℕ)
    (cache : ℕ → JsMap String (List PairMetadata))
    (h : filter.issuedLpToken = true →
      ∀ k, UpToDate services deepHistoryTimestamp (cache k)) :
    (∀ (k : ℕ) (offset limit : ℤ),
      (RouterService.getAllPairs services deepHistoryTimestamp (cache k) offset limit filter).1 =
        (RouterService.getFilteredPairs engine services offset limit (.ofArgs filter) none).items) ∧
      ∀ limit : ℕ,
        Lists (fun k => (RouterService.getAllPairs services deepHistoryTimestamp (cache k)
          ((k * limit : ℕ) : ℤ) limit filter).1) limit (selection services filter) ∧
        Lists (fun k => (RouterService.getFilteredPairs engine services ((k * limit : ℕ) : ℤ) limit
          (.ofArgs filter) none).items) limit (selection services filter) ∧
        ∀ offset : ℤ, (RouterService.getFilteredPairs engine services offset limit
          (.ofArgs filter) none).count = (selection services filter).length := by
  have hall : ∀ (k : ℕ) (offset limit : ℤ), (RouterService.getAllPairs services
      deepHistoryTimestamp (cache k) offset limit filter).1 =
        slice (selection services filter) offset (offset + limit) :=
    fun k => getAllPairs_eq fun hissued => h hissued k
  refine ⟨?_, fun limit => ⟨?_, ?_, ?_⟩⟩
  · intro k offset limit
    rw [hall, getFilteredPairs_eq]
  · simp only [hall]
    exact lists_slice limit (selection services filter)
  · simp only [getFilteredPairs_eq]
    exact lists_slice limit (selection services filter)
  · intro offset
    rw [getFilteredPairs_eq]

end Listings

/-! ## A token issued in the meantime -/

/-- A router with one pair, whose LP token is as given. -/
def samplePairServices (lpTokenID : Option String) : PairServices where
  deployedAt := fun _ => .nan
  feesUSD := fun _ _ => .nan
  tradesCount := fun _ => .nan
  lockedValueUSD := fun _ => .nan
  volumeUSD := fun _ _ => .nan
  pairsMetadata := [⟨"erd1pair", "WEGLD-1", "MEX-1"⟩]
  lpTokenID := fun _ => lpTokenID
  state := fun _ => none
  feeState := fun _ => none
  hasFarms := fun _ => false
  hasDualFarms := fun _ => false
  getFirstToken := fun _ => ⟨"WEGLD-1", "WrappedEGLD", "WEGLD"⟩
  getSecondToken := fun _ => ⟨"MEX-1", "MEX", "MEX"⟩
  toUpperCase := fun text => text

/-- Nothing cached cannot be out of date. -/
theorem upToDate_empty (services : PairServices) (deepHistoryTimestamp : ℕ) :
    UpToDate services deepHistoryTimestamp [] := fun _ h => nomatch h

/-- Six pairs: `b` has no LP token yet, `c` is not active, `d` has another first
token, and `e` is not traded enough. -/
def sixPairServices : PairServices where
  deployedAt := fun _ => .ofNat 1
  feesUSD := fun _ _ => .ofNat 3
  tradesCount := fun _ => .ofNat 7
  lockedValueUSD := fun _ => .ofNat 5000
  volumeUSD := fun address _ => if address = "e" then .ofNat 99 else .ofNat 250
  pairsMetadata := [⟨"a", "WEGLD-1", "MEX-1"⟩, ⟨"b", "WEGLD-1", "USDC-1"⟩,
    ⟨"c", "WEGLD-1", "UTK-1"⟩, ⟨"d", "MEX-1", "USDC-1"⟩,
    ⟨"e", "WEGLD-1", "RIDE-1"⟩, ⟨"f", "WEGLD-1", "ASH-1"⟩]
  lpTokenID := fun address => if address = "b" then some "undefined" else some "LP-1"
  state := fun address => if address = "c" then some "Inactive" else some "Active"
  feeState := fun _ => some true
  hasFarms := fun _ => false
  hasDualFarms := fun _ => false
  getFirstToken := fun _ => ⟨"WEGLD-1", "WrappedEGLD", "WEGLD"⟩
  getSecondToken := fun _ => ⟨"MEX-1", "MEX", "MEX"⟩
  toUpperCase := fun text => text

/-- All fields but the address, which would leave one pair. -/
def sampleFilter : PairFilterArgs where
  firstTokenID := some "WEGLD-1"
  state := some "Active"
  feeState := some true
  minVolume := some (.ofRat 100)
  minLockedValueUSD := some (.ofRat 1000)

/-- The cache after an earlier listing. -/
def filledCache : JsMap String (List PairMetadata) :=
  (RouterService.getAllPairs sixPairServices 0 [] 0 10 sampleFilter).2

/-- Both listings show `a` on their first page and `f` on their second, the one
of them from the cache. -/
theorem listings_agree_sample :
    filledCache ≠ [] ∧ selection sixPairServices sampleFilter = [⟨"a"⟩, ⟨"f"⟩] ∧
    (∀ offset : ℤ,
      (RouterService.getAllPairs sixPairServices 0 filledCache offset 1 sampleFilter).1 =
        (RouterService.getFilteredPairs (.insertion _) sixPairServices offset 1
          (.ofArgs sampleFilter) none).items) ∧
    Lists (fun k => (RouterService.getAllPairs sixPairServices 0 filledCache ((k * 1 : ℕ) : ℤ)
      (1 : ℕ) sampleFilter).1) 1 (selection sixPairServices sampleFilter) ∧
    (RouterService.getFilteredPairs (.insertion _) sixPairServices 1 (1 : ℕ)
      (.ofArgs sampleFilter) none).count = (selection sixPairServices sampleFilter).length := by
  have hcached : UpToDate sixPairServices 0 filledCache :=
    upToDate_getAllPairs (upToDate_empty sixPairServices 0) 0 10
  have hagree := listings_agree (.insertion _) sixPairServices sampleFilter 0
    (fun _ => filledCache) fun _ _ => hcached
  refine ⟨by decide +kernel, by decide +kernel, ?_, (hagree.2 1).1, (hagree.2 1).2.2 1⟩
  intro offset
  exact hagree.1 0 offset 1

/-- The pair is listed once its LP token is issued, and still is not in the
other listing, which was asked before. -/
theorem not_listings_agree : ¬∀ (engine : ArraySort (SortItem PairMetadata))
    (services : PairServices) (filter : PairFilterArgs) (deepHistoryTimestamp : ℕ)
    (cache : JsMap String (List PairMetadata)) (offset limit : ℤ),
    (RouterService.getAllPairs services deepHistoryTimestamp cache offset limit filter).1 =
      (RouterService.getFilteredPairs engine services offset limit
        (.ofArgs filter) none).items := by
  intro h
  have hlength := congrArg List.length (h (.insertion _) (samplePairServices (some "LP-1")) {} 0
    (RouterService.getAllPairs (samplePairServices none) 0 [] 0 1 {}).2 0 1)
  revert hlength
  decide +kernel

end MxExchange.Router
