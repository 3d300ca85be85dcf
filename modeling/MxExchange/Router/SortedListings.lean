import MxExchange.Router.PairListings

/-!
# Listings in order, in pages

The listings of pairs, tokens and staking farms are sorted alike
(`Listing.sortsAs_iff_sortable`), and what is filtered and sorted is shown page by page,
with its length for the count. The pages are always those of the listing; it is
in order whatever the engine if no value is missing, or the values that are there
do not differ, and not otherwise (`sortedListing_iff`).
-/

namespace MxExchange.Router

open MxExchange.Collections MxExchange.Num
open Pair (TokenID)
open Tokens (PairMetadata)

/-! ## Three listings -/

/-- What is sorted, and by what. -/
inductive Listing where
  | pairs (pairCompute : PairComputeService) (pairsMetadata : List PairMetadata)
      (sortField : Option PairSortableFields)
  | tokens (tokenCompute : TokenComputeService) (tokenIDs : List TokenID)
      (sortField : Option TokensSortableFields)
  | farms (stakingCompute : StakingComputeService) (stakeAddresses : List String)
      (sortField : Option StakingFarmsSortableFields)

namespace Listing

/-- What is listed. -/
def Item : Listing → Type
  | pairs _ _ _ => PairMetadata
  | tokens _ _ _ => TokenID
  | farms _ _ _ => String

/-- What the listing sorts. -/
def items : (listing : Listing) → List listing.Item
  | pairs _ pairsMetadata _ => pairsMetadata
  | tokens _ tokenIDs _ => tokenIDs
  | farms _ stakeAddresses _ => stakeAddresses

/-- What the items are to be ordered by. -/
def sortValue : (listing : Listing) → listing.Item → BigNumber
  | pairs pairCompute _ sortField => pairCompute.sortFieldData sortField
  | tokens tokenCompute _ sortField => tokenCompute.sortFieldData sortField
  | farms stakingCompute _ sortField => stakingCompute.sortFieldData sortField

/-- The listing in the order asked for. -/
def sorted : (listing : Listing) → ArraySort (SortItem listing.Item) → SortingOrder →
    List listing.Item
  | pairs pairCompute pairsMetadata sortField, engine, sortOrder =>
    sortPairs engine pairCompute pairsMetadata sortField sortOrder
  | tokens tokenCompute tokenIDs sortField, engine, sortOrder =>
    sortTokens engine tokenCompute tokenIDs sortField sortOrder
  | farms stakingCompute stakeAddresses sortField, engine, sortOrder =>
    sortFarms engine stakingCompute stakeAddresses sortField sortOrder

/-- A permutation in which the items that have a value are in order, whatever
the engine. -/
def SortsAs (listing : Listing) (sortOrder : SortingOrder) : Prop :=
  ∀ engine, (listing.sorted engine sortOrder).Perm listing.items ∧
    Ordered listing.sortValue sortOrder (listing.sorted engine sortOrder)

/-- Every listing is sorted by one function, with values of its own. -/
theorem sorted_eq (listing : Listing) (engine : ArraySort (SortItem listing.Item))
    (sortOrder : SortingOrder) :
    listing.sorted engine sortOrder = sortBy engine listing.sortValue sortOrder listing.items := by
  cases listing with
  | pairs => rfl
  | tokens => rfl
  | farms => rfl

/-- A listing sorts as it is to exactly if its values can be compared. -/
theorem sortsAs_iff_sortable (listing : Listing) (sortOrder : SortingOrder) :
    listing.SortsAs sortOrder ↔ Sortable listing.sortValue listing.items := by
  simp only [SortsAs, sorted_eq]
  exact sortsAs_iff

end Listing

/-! ## The filtered listing, in pages -/

section FilteredPairs

variable {engine : ArraySort (SortItem PairMetadata)} {services : PairServices}
  {filters : PairsFilter} {sorting : Option PairSortingArgs}

/-- What is filtered, and sorted if it is asked for. -/
def filteredPairs (engine : ArraySort (SortItem PairMetadata)) (services : PairServices)
    (filters : PairsFilter) (sorting : Option PairSortingArgs) : List PairMetadata :=
  let filtered := (PairsMetadataBuilder.applyAllFilters
    ⟨services.pairsMetadata, filters, services⟩).build
  match sorting with
  | some sorting => (Listing.pairs services.toPairComputeService filtered sorting.sortField).sorted
      engine sorting.sortOrder
  | none => filtered

/-- The pages partition what is filtered, and the count is its length. -/
structure Paged (engine : ArraySort (SortItem PairMetadata)) (services : PairServices)
    (filters : PairsFilter) (sorting : Option PairSortingArgs) : Prop where
  lists : ∀ n : ℕ, 1 ≤ n → Lists (fun k => (RouterService.getFilteredPairs engine services
    ((k * n : ℕ) : ℤ) n filters sorting).items) n
      ((filteredPairs engine services filters sorting).map fun pair => ⟨pair.address⟩)
  count : ∀ offset limit : ℤ, (RouterService.getFilteredPairs engine services offset limit filters
    sorting).count = (filteredPairs engine services filters sorting).length

/-- A page is a slice of what is filtered and sorted. -/
theorem getFilteredPairs_filteredPairs (offset limit : ℤ) :
    RouterService.getFilteredPairs engine services offset limit filters sorting =
      { count := (filteredPairs engine services filters sorting).length
        items := slice ((filteredPairs engine services filters sorting).map fun pair =>
          ⟨pair.address⟩) offset (offset + limit) } := by
  cases sorting with
  | none =>
    simp only [RouterService.getFilteredPairs, List.length_map]
    rfl
  | some sorting =>
    simp only [RouterService.getFilteredPairs, List.length_map]
    rfl

/-- The pages of the sorted pairs are slices of one list. -/
theorem paged (engine : ArraySort (SortItem PairMetadata)) (services : PairServices)
    (filters : PairsFilter) (sorting : Option PairSortingArgs) :
    Paged engine services filters sorting where
  lists := by
    intro n _
    simp only [getFilteredPairs_filteredPairs]
    exact lists_slice n _
  count := by
    intro offset limit
    rw [getFilteredPairs_filteredPairs]

end FilteredPairs

/-! ## When a listing is in order -/

theorem sortedListing_iff (listing : Listing) (sortOrder : SortingOrder)
    (engine : ArraySort (SortItem PairMetadata)) (services : PairServices) (filters : PairsFilter)
    (sorting : Option PairSortingArgs) :
    (listing.SortsAs sortOrder ∧ Paged engine services filters sorting) ↔
      Sortable listing.sortValue listing.items := by
  rw [listing.sortsAs_iff_sortable]
  exact and_iff_left (paged engine services filters sorting)

/-! ## A value missing in between -/

def sampleAPR (address : String) : BigNumber :=
  if address = "erd1first" then .fin 2 else if address = "erd1last" then .fin 1 else .nan

def sampleStakingCompute : StakingComputeService :=
  ⟨fun _ => .nan, sampleAPR, fun _ => .nan, fun _ => .nan⟩

/-- Every item equals the one between them, and they stay where they are. -/
theorem sortFarms_sample : sortFarms (.insertion _) sampleStakingCompute
    ["erd1first", "erd1new", "erd1last"] (some .APR) .ASC =
      ["erd1first", "erd1new", "erd1last"] := by
  decide +kernel

theorem not_sortsAs_sample : ¬∀ (listing : Listing) (sortOrder : SortingOrder),
    listing.SortsAs sortOrder := by
  intro h
  have hordered : Ordered sampleAPR .ASC (sortFarms (.insertion _) sampleStakingCompute
      ["erd1first", "erd1new", "erd1last"] (some .APR) .ASC) :=
    (h (.farms sampleStakingCompute ["erd1first", "erd1new", "erd1last"] (some .APR)) .ASC
      (.insertion _)).2
  rw [sortFarms_sample] at hordered
  have hdefined : (["erd1first", "erd1new", "erd1last"].filter fun address =>
      sampleAPR address ≠ .nan) = ["erd1first", "erd1last"] := by
    decide +kernel
  rw [Ordered, hdefined] at hordered
  have hle : (sampleAPR "erd1first").isLessThanOrEqualTo (sampleAPR "erd1last") = true :=
    List.rel_of_pairwise_cons hordered List.mem_cons_self
  revert hle
  decide +kernel

end MxExchange.Router
