import MxExchange.Collections.ArraySort
import MxExchange.Num.BigNumber
import MxExchange.Tokens.Price

/-!
# Sorted listings: pairs, tokens, staking farms

`sortPairs`, `sortTokens` and `sortFarms` look up a value for every item and
sort by it, comparing as `comparedTo` of the decimal library does. A value that
is missing becomes `NaN`, which compares with nothing: the comparator returns
`null`, as if the two were equal. Such a comparator is not consistent, and where
the items end up is left to the engine. So those that have a value need not be
in order among themselves, unless all have one or the values do not differ
(`sortsAs_iff`).
-/

namespace MxExchange.Router

open MxExchange.Collections MxExchange.Num
open Pair (TokenID)
open Tokens (PairMetadata)

/-- The two orders. -/
inductive SortingOrder where
  | ASC
  | DESC
  deriving DecidableEq

/-- An entry of `combined`. -/
structure SortItem (κ : Type) where
  item : κ
  sortValue : BigNumber
  deriving DecidableEq

/-- The comparator of all three services. -/
def compareSortValues {κ : Type} (sortOrder : SortingOrder) : Compare (SortItem κ) := fun a b =>
  match sortOrder with
  | .ASC => a.sortValue.comparedTo b.sortValue
  | .DESC => b.sortValue.comparedTo a.sortValue

/-- What the three functions do with the values they have looked up. -/
def sortBy {κ : Type} (engine : ArraySort (SortItem κ)) (sortValue : κ → BigNumber)
    (sortOrder : SortingOrder) (items : List κ) : List κ :=
  let combined := items.map fun item => (⟨item, sortValue item⟩ : SortItem κ)
  (engine.sort (compareSortValues sortOrder) combined).map SortItem.item

/-! ## The services -/

/-- What pairs can be sorted by. -/
inductive PairSortableFields where
  | TRADES_COUNT
  | TVL
  | VOLUME_24
  | FEES_24
  | DEPLOYED_AT
  deriving DecidableEq

/-- What can be sorted by, as `new BigNumber` reads it: `NaN` if it is not
there. -/
structure PairComputeService where
  deployedAt : String → BigNumber
  feesUSD : String → String → BigNumber
  tradesCount : String → BigNumber
  lockedValueUSD : String → BigNumber
  volumeUSD : String → String → BigNumber

/-- `sortFieldData` for an item. -/
def PairComputeService.sortFieldData (services : PairComputeService)
    (sortField : Option PairSortableFields) (pair : PairMetadata) : BigNumber :=
  match sortField with
  | some .DEPLOYED_AT => services.deployedAt pair.address
  | some .FEES_24 => services.feesUSD pair.address "24h"
  | some .TRADES_COUNT => services.tradesCount pair.address
  | some .TVL => services.lockedValueUSD pair.address
  | some .VOLUME_24 => services.volumeUSD pair.address "24h"
  | none => .nan

/-- `sortPairs`. -/
def sortPairs (engine : ArraySort (SortItem PairMetadata)) (pairCompute : PairComputeService)
    (pairsMetadata : List PairMetadata) (sortField : Option PairSortableFields)
    (sortOrder : SortingOrder) : List PairMetadata :=
  sortBy engine (pairCompute.sortFieldData sortField) sortOrder pairsMetadata

/-- What tokens can be sorted by. -/
inductive TokensSortableFields where
  | PRICE
  | VOLUME
  | PREVIOUS_24H_PRICE
  | PREVIOUS_7D_PRICE
  | PREVIOUS_24H_VOLUME
  | PRICE_CHANGE_24H
  | VOLUME_CHANGE_24H
  | TRADES_COUNT_CHANGE_24H
  | LIQUIDITY
  | TRADES_COUNT
  | TRENDING_SCORE
  | CREATED_AT
  deriving DecidableEq

/-- The values that tokens are sorted by. -/
structure TokenComputeService where
  tokenPriceDerivedUSD : TokenID → BigNumber
  tokenPrevious24hPrice : TokenID → BigNumber
  tokenPrevious7dPrice : TokenID → BigNumber
  tokenPriceChange24h : TokenID → BigNumber
  tokenVolumeUSDChange24h : TokenID → BigNumber
  tokenTradeChange24h : TokenID → BigNumber
  tokenCreatedAt : TokenID → BigNumber
  tokenLiquidityUSD : TokenID → BigNumber
  tokenVolumeUSD24h : TokenID → BigNumber
  tokenPrevious24hVolumeUSD : TokenID → BigNumber
  tokenSwapCount : TokenID → BigNumber
  tokenTrendingScore : TokenID → BigNumber

/-- `sortFieldData` for an item. -/
def TokenComputeService.sortFieldData (services : TokenComputeService)
    (sortField : Option TokensSortableFields) (tokenID : TokenID) : BigNumber :=
  match sortField with
  | some .PRICE => services.tokenPriceDerivedUSD tokenID
  | some .PREVIOUS_24H_PRICE => services.tokenPrevious24hPrice tokenID
  | some .PREVIOUS_7D_PRICE => services.tokenPrevious7dPrice tokenID
  | some .PRICE_CHANGE_24H => services.tokenPriceChange24h tokenID
  | some .VOLUME_CHANGE_24H => services.tokenVolumeUSDChange24h tokenID
  | some .TRADES_COUNT_CHANGE_24H => services.tokenTradeChange24h tokenID
  | some .CREATED_AT => services.tokenCreatedAt tokenID
  | some .LIQUIDITY => services.tokenLiquidityUSD tokenID
  | some .VOLUME => services.tokenVolumeUSD24h tokenID
  | some .PREVIOUS_24H_VOLUME => services.tokenPrevious24hVolumeUSD tokenID
  | some .TRADES_COUNT => services.tokenSwapCount tokenID
  | some .TRENDING_SCORE => services.tokenTrendingScore tokenID
  | none => .nan

/-- `sortTokens`. -/
def sortTokens (engine : ArraySort (SortItem TokenID)) (tokenCompute : TokenComputeService)
    (tokenIDs : List TokenID) (sortField : Option TokensSortableFields)
    (sortOrder : SortingOrder) : List TokenID :=
  sortBy engine (tokenCompute.sortFieldData sortField) sortOrder tokenIDs

inductive StakingFarmsSortableFields where
  | PRICE
  | TVL
  | APR
  | DEPLOYED_AT
  deriving DecidableEq

structure StakingComputeService where
  farmingTokenPriceUSD : String → BigNumber
  stakeFarmAPR : String → BigNumber
  stakedValueUSD : String → BigNumber
  deployedAt : String → BigNumber

/-- `sortFieldData` for an item. -/
def StakingComputeService.sortFieldData (services : StakingComputeService)
    (sortField : Option StakingFarmsSortableFields) (address : String) : BigNumber :=
  match sortField with
  | some .PRICE => services.farmingTokenPriceUSD address
  | some .APR => services.stakeFarmAPR address
  | some .TVL => services.stakedValueUSD address
  | some .DEPLOYED_AT => services.deployedAt address
  | none => .nan

/-- `sortFarms`. -/
def sortFarms (engine : ArraySort (SortItem String)) (stakingCompute : StakingComputeService)
    (stakeAddresses : List String) (sortField : Option StakingFarmsSortableFields)
    (sortOrder : SortingOrder) : List String :=
  sortBy engine (stakingCompute.sortFieldData sortField) sortOrder stakeAddresses

/-! ## In the requested order -/

section SortBy

variable {κ : Type} {sortValue : κ → BigNumber} {sortOrder : SortingOrder} {items : List κ}

/-- Two values in the order asked for. -/
def InOrder (sortOrder : SortingOrder) (x y : BigNumber) : Prop :=
  match sortOrder with
  | .ASC => x.isLessThanOrEqualTo y = true
  | .DESC => y.isLessThanOrEqualTo x = true

/-- The items that have a value are in order among themselves. -/
def Ordered (sortValue : κ → BigNumber) (sortOrder : SortingOrder) (items : List κ) : Prop :=
  (items.filter fun item => sortValue item ≠ .nan).Pairwise fun a b =>
    InOrder sortOrder (sortValue a) (sortValue b)

/-- A permutation in order, whatever the engine. -/
def SortsAs (sortValue : κ → BigNumber) (sortOrder : SortingOrder) (items : List κ) : Prop :=
  ∀ engine : ArraySort (SortItem κ), (sortBy engine sortValue sortOrder items).Perm items ∧
    Ordered sortValue sortOrder (sortBy engine sortValue sortOrder items)

/-- No value is missing, or those that are there do not differ. -/
def Sortable (sortValue : κ → BigNumber) (items : List κ) : Prop :=
  (∀ item ∈ items, sortValue item ≠ .nan) ∨
    ∀ a ∈ items, ∀ b ∈ items, sortValue a ≠ .nan → sortValue b ≠ .nan → sortValue a = sortValue b

theorem isLessThanOrEqualTo_refl {x : BigNumber} (h : x ≠ .nan) :
    x.isLessThanOrEqualTo x = true := by
  rw [BigNumber.isLessThanOrEqualTo, BigNumber.isEqualTo, Bool.or_eq_true, decide_eq_true_iff]
  exact Or.inr ⟨h, rfl⟩

theorem inOrder_refl {x : BigNumber} (h : x ≠ .nan) : InOrder sortOrder x x := by
  cases sortOrder with
  | ASC => exact isLessThanOrEqualTo_refl h
  | DESC => exact isLessThanOrEqualTo_refl h

theorem isLessThanOrEqualTo_of_not_isLessThan {x y : BigNumber} (hx : x ≠ .nan) (hy : y ≠ .nan)
    (h : y.isLessThan x = false) : x.isLessThanOrEqualTo y = true := by
  cases hxy : x.isLessThan y with
  | true => rw [BigNumber.isLessThanOrEqualTo, hxy, Bool.true_or]
  | false =>
    rw [BigNumber.eq_of_not_isLessThan hx hy hxy h]
    exact isLessThanOrEqualTo_refl hy

theorem combined_map_item (items : List κ) (sortValue : κ → BigNumber) :
    (items.map fun item => (⟨item, sortValue item⟩ : SortItem κ)).map SortItem.item = items := by
  rw [List.map_map]
  exact List.map_id items

/-- Sorting loses nothing. -/
theorem sortBy_perm (engine : ArraySort (SortItem κ)) :
    (sortBy engine sortValue sortOrder items).Perm items := by
  have h := (engine.perm (compareSortValues sortOrder)
    (items.map fun item => ⟨item, sortValue item⟩)).map SortItem.item
  rwa [combined_map_item] at h

/-! ## The comparator -/

/-- What `comparedTo` is of two values: which of them is less, if any. -/
theorem comparedTo_cases {x y : BigNumber} (hx : x ≠ .nan) (hy : y ≠ .nan) :
    (x.isLessThan y = true ∧ x.comparedTo y = some (-1)) ∨
      (y.isLessThan x = true ∧ x.isLessThan y = false ∧ x.comparedTo y = some 1) ∨
        (x = y ∧ x.comparedTo y = some 0) := by
  have hnan : ¬(x = .nan ∨ y = .nan) := fun h => h.elim hx hy
  rw [BigNumber.comparedTo, if_neg hnan]
  cases hxy : x.isLessThan y with
  | true => exact Or.inl ⟨rfl, if_pos rfl⟩
  | false =>
    cases hyx : y.isLessThan x with
    | true => exact Or.inr (Or.inl ⟨rfl, rfl, rfl⟩)
    | false => exact Or.inr (Or.inr ⟨BigNumber.eq_of_not_isLessThan hx hy hxy hyx, rfl⟩)

/-- Numbers compare alike only if they are the same. -/
theorem comparedTo_eq_zero_iff {x y : BigNumber} (hx : x ≠ .nan) (hy : y ≠ .nan) :
    x.comparedTo y = some 0 ↔ x = y := by
  rcases comparedTo_cases hx hy with ⟨hlt, hc⟩ | ⟨hgt, -, hc⟩ | ⟨heq, hc⟩
  · rw [hc]
    exact iff_of_false (by decide) (BigNumber.ne_of_isLessThan hlt)
  · rw [hc]
    exact iff_of_false (by decide) (BigNumber.ne_of_isLessThan hgt).symm
  · exact iff_of_true hc heq

/-- The comparator agrees with the order of numbers. -/
theorem comparedTo_neg_iff {x y : BigNumber} (hx : x ≠ .nan) (hy : y ≠ .nan) :
    (x.comparedTo y).getD 0 < 0 ↔ x.isLessThan y = true := by
  rcases comparedTo_cases hx hy with ⟨hlt, hc⟩ | ⟨-, hnot, hc⟩ | ⟨rfl, hc⟩
  · rw [hc]
    exact iff_of_true (by decide) hlt
  · rw [hc, hnot]
    decide
  · rw [hc, BigNumber.isLessThan_irrefl]
    decide

theorem comparedTo_pos_iff {x y : BigNumber} (hx : x ≠ .nan) (hy : y ≠ .nan) :
    0 < (x.comparedTo y).getD 0 ↔ y.isLessThan x = true := by
  rcases comparedTo_cases hx hy with ⟨hlt, hc⟩ | ⟨hgt, -, hc⟩ | ⟨rfl, hc⟩
  · rw [hc]
    exact iff_of_false (by decide) (BigNumber.isLessThan_asymm hlt)
  · rw [hc]
    exact iff_of_true (by decide) hgt
  · rw [hc, BigNumber.isLessThan_irrefl]
    decide

/-- Without `NaN` the comparison is consistent. -/
theorem consistent_comparedTo {combined : List (SortItem κ)}
    (h : ∀ a ∈ combined, a.sortValue ≠ .nan) :
    Consistent (fun a b : SortItem κ => a.sortValue.comparedTo b.sortValue) combined where
  number := by
    intro a ha b hb
    -- numbers compare as they should, and `NaN` is left out
    rcases comparedTo_cases (h a ha) (h b hb) with ⟨-, hc⟩ | ⟨-, -, hc⟩ | ⟨-, hc⟩
    · rw [hc]
      rfl
    · rw [hc]
      rfl
    · rw [hc]
      rfl
  refl := fun a ha => (comparedTo_eq_zero_iff (h a ha) (h a ha)).mpr rfl
  symm := by
    intro a ha b hb hab
    exact (comparedTo_eq_zero_iff (h b hb) (h a ha)).mpr
      ((comparedTo_eq_zero_iff (h a ha) (h b hb)).mp hab).symm
  trans := by
    intro a ha b hb c hc hab hbc
    exact (comparedTo_eq_zero_iff (h a ha) (h c hc)).mpr
      (((comparedTo_eq_zero_iff (h a ha) (h b hb)).mp hab).trans
        ((comparedTo_eq_zero_iff (h b hb) (h c hc)).mp hbc))
  before_trans := by
    intro a ha b hb c hc hab hbc
    exact (comparedTo_neg_iff (h a ha) (h c hc)).mpr
      (BigNumber.isLessThan_trans ((comparedTo_neg_iff (h a ha) (h b hb)).mp hab)
        ((comparedTo_neg_iff (h b hb) (h c hc)).mp hbc))
  after_trans := by
    intro a ha b hb c hc hab hbc
    exact (comparedTo_pos_iff (h a ha) (h c hc)).mpr
      (BigNumber.isLessThan_trans ((comparedTo_pos_iff (h b hb) (h c hc)).mp hbc)
        ((comparedTo_pos_iff (h a ha) (h b hb)).mp hab))

/-- So is the comparator, in either order. -/
theorem consistent_compareSortValues {combined : List (SortItem κ)}
    (h : ∀ a ∈ combined, a.sortValue ≠ .nan) :
    Consistent (compareSortValues sortOrder) combined := by
  cases sortOrder with
  | ASC => exact consistent_comparedTo h
  | DESC => exact (consistent_comparedTo h).swap

/-- Not after each other is in order. -/
theorem inOrder_of_not_before {a b : SortItem κ} (ha : a.sortValue ≠ .nan)
    (hb : b.sortValue ≠ .nan) (h : ¬Before (compareSortValues sortOrder) b a) :
    InOrder sortOrder a.sortValue b.sortValue := by
  cases sortOrder with
  | ASC =>
    have hnot := mt (comparedTo_neg_iff hb ha).mpr h
    exact isLessThanOrEqualTo_of_not_isLessThan ha hb (Bool.eq_false_of_not_eq_true hnot)
  | DESC =>
    have hnot := mt (comparedTo_neg_iff ha hb).mpr h
    exact isLessThanOrEqualTo_of_not_isLessThan hb ha (Bool.eq_false_of_not_eq_true hnot)

/-! ## When the outcome is in order -/

theorem sortValue_of_mem_combined {a : SortItem κ}
    (h : a ∈ items.map fun item => (⟨item, sortValue item⟩ : SortItem κ)) :
    a.item ∈ items ∧ a.sortValue = sortValue a.item := by
  obtain ⟨item, hitem, rfl⟩ := List.mem_map.mp h
  exact ⟨hitem, rfl⟩

/-- Without `NaN` every engine sorts. -/
theorem ordered_sortBy_of_no_nan (h : ∀ item ∈ items, sortValue item ≠ .nan)
    (engine : ArraySort (SortItem κ)) :
    Ordered sortValue sortOrder (sortBy engine sortValue sortOrder items) := by
  have hmem : ∀ a ∈ items.map fun item => (⟨item, sortValue item⟩ : SortItem κ),
      a.sortValue ≠ .nan := by
    intro a ha
    obtain ⟨hitem, hvalue⟩ := sortValue_of_mem_combined ha
    rw [hvalue]
    exact h a.item hitem
  have hperm := engine.perm (compareSortValues sortOrder)
    (items.map fun item => ⟨item, sortValue item⟩)
  refine List.Pairwise.filter _ (List.pairwise_map.mpr ?_)
  refine (engine.sorted _ _ (consistent_compareSortValues hmem)).imp_of_mem ?_
  intro a b ha hb hnot
  have ha := hperm.mem_iff.mp ha
  have hb := hperm.mem_iff.mp hb
  rw [← (sortValue_of_mem_combined ha).2, ← (sortValue_of_mem_combined hb).2]
  exact inOrder_of_not_before (hmem a ha) (hmem b hb) hnot

/-- If all numbers are the same, any order is sorted. -/
theorem ordered_of_equal {l : List κ} (hperm : l.Perm items)
    (h : ∀ a ∈ items, ∀ b ∈ items, sortValue a ≠ .nan → sortValue b ≠ .nan →
      sortValue a = sortValue b) : Ordered sortValue sortOrder l := by
  refine List.pairwise_of_forall_mem_list fun a ha b hb => ?_
  obtain ⟨ha, hvalue⟩ := List.mem_filter.mp ha
  obtain ⟨hb, hvalue'⟩ := List.mem_filter.mp hb
  have hne := of_decide_eq_true hvalue
  rw [h b (hperm.mem_iff.mp hb) a (hperm.mem_iff.mp ha) (of_decide_eq_true hvalue') hne]
  exact inOrder_refl hne

/-- Two of the combined items, to the front. -/
theorem exists_perm_front {α : Type} {l : List α} {a b : α} (ha : a ∈ l) (hb : b ∈ l)
    (hne : a ≠ b) : ∃ rest, (a :: b :: rest).Perm l := by
  classical
  have hb' : b ∈ l.erase a := (List.mem_erase_of_ne hne.symm).mpr hb
  exact ⟨(l.erase a).erase b,
    ((List.perm_cons_erase hb').symm.cons a).trans (List.perm_cons_erase ha).symm⟩

/-- Where a value is missing, an engine may put any two items first. -/
theorem not_sortsAs {a b missing : κ} (ha : a ∈ items) (hb : b ∈ items)
    (hmissing : missing ∈ items) (hnan : sortValue missing = .nan) (hva : sortValue a ≠ .nan)
    (hvb : sortValue b ≠ .nan) (hnot : ¬InOrder sortOrder (sortValue a) (sortValue b)) :
    ¬SortsAs sortValue sortOrder items := by
  intro h
  have hne : (⟨a, sortValue a⟩ : SortItem κ) ≠ ⟨b, sortValue b⟩ := by
    intro heq
    refine hnot ?_
    rw [(SortItem.mk.inj heq).2]
    exact inOrder_refl hvb
  obtain ⟨rest, hperm⟩ := exists_perm_front
    (List.mem_map_of_mem (f := fun item => (⟨item, sortValue item⟩ : SortItem κ)) ha)
    (List.mem_map_of_mem hb) hne
  have hinconsistent : ¬Consistent (compareSortValues sortOrder)
      (items.map fun item => (⟨item, sortValue item⟩ : SortItem κ)) := by
    intro hconsistent
    have hself := hconsistent.refl _ (List.mem_map_of_mem hmissing)
    have hnone : ∀ order, compareSortValues order (⟨missing, sortValue missing⟩ : SortItem κ)
        ⟨missing, sortValue missing⟩ = none := by
      intro order
      rw [hnan]
      cases order with
      | ASC => rfl
      | DESC => rfl
    rw [hnone] at hself
    cases hself
  -- an engine that may do as it likes puts the two in front in the wrong order
  have hordered := (h (ArraySort.deviating _ _ hperm)).2
  rw [Ordered, sortBy, ArraySort.sort_deviating hperm hinconsistent, List.map_cons, List.map_cons,
    List.filter_cons_of_pos (by simpa using hva), List.filter_cons_of_pos (by simpa using hvb)]
    at hordered
  exact hnot (List.rel_of_pairwise_cons hordered List.mem_cons_self)

theorem eq_of_inOrder {x y : BigNumber} (hxy : InOrder sortOrder x y)
    (hyx : InOrder sortOrder y x) : x = y := by
  have hle : x.isLessThanOrEqualTo y = true ∧ y.isLessThanOrEqualTo x = true := by
    cases sortOrder with
    | ASC => exact ⟨hxy, hyx⟩
    | DESC => exact ⟨hyx, hxy⟩
  have hnot : ∀ u v : BigNumber, u.isLessThanOrEqualTo v = true → u ≠ v →
      u.isLessThan v = true := by
    intro u v huv hne
    rw [BigNumber.isLessThanOrEqualTo, BigNumber.isEqualTo, Bool.or_eq_true,
      decide_eq_true_iff] at huv
    exact huv.resolve_right fun heq => hne heq.2
  by_contra hne
  exact BigNumber.isLessThan_asymm (hnot x y hle.1 hne) (hnot y x hle.2 (Ne.symm hne))

/-- Sorting works for every engine exactly if it can be relied on. -/
theorem sortsAs_iff : SortsAs sortValue sortOrder items ↔ Sortable sortValue items := by
  constructor
  · intro h
    by_contra hnot
    obtain ⟨hsome, hdiffer⟩ := not_or.mp hnot
    push Not at hsome hdiffer
    obtain ⟨missing, hmissing, hnan⟩ := hsome
    obtain ⟨a, ha, b, hb, hva, hvb, hne⟩ := hdiffer
    by_cases hab : InOrder sortOrder (sortValue a) (sortValue b)
    · have hba : ¬InOrder sortOrder (sortValue b) (sortValue a) := fun hba =>
        hne (eq_of_inOrder hab hba)
      exact not_sortsAs hb ha hmissing hnan hvb hva hba h
    · exact not_sortsAs ha hb hmissing hnan hva hvb hab h
  · rintro (h | h) engine
    · exact ⟨sortBy_perm engine, ordered_sortBy_of_no_nan h engine⟩
    · exact ⟨sortBy_perm engine, ordered_of_equal (sortBy_perm engine) h⟩

end SortBy

end MxExchange.Router
