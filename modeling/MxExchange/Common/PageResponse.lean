import MxExchange.Common.ConnectionArgs
import MxExchange.Router.SortedListings
import MxExchange.Text.Base64
import MxExchange.Tokens.TokenListing

/-!
# `page.response.ts`: listings as connections

The listings of pairs and of tokens are GraphQL connections: a request asks
for a page (`connection.args.ts`), the service cuts it out of what it has
filtered and sorted, and graphql-relay puts a cursor to each item
(`filteredPairs`, `filteredTokens` of the resolvers).

A client that goes on from the last cursor of each page to the next sees the
whole listing, every item once and in order (`walkForward_listing`); one
that goes back from a cursor sees all that comes before it
(`walkBackward_listing`). The listing is the pairs, or the tokens, that pass
the filters in the order asked for, provided the reads behind every page
answer alike.
-/

namespace MxExchange.Common

open MxExchange.Collections

/-! ## graphql-relay -/

/-- An item with its cursor. -/
structure Edge (α : Type) where
  cursor : String
  node : α

/-- What a client is told of the pages around. -/
structure PageInfo where
  startCursor : Option String
  endCursor : Option String
  hasPreviousPage : Bool
  hasNextPage : Bool

/-- The answer of graphql-relay. -/
structure Connection (α : Type) where
  edges : List (Edge α)
  pageInfo : PageInfo

/-- What the service uses of graphql-relay. A cursor is the global id of an
offset, and a slice of the array that is just the range the arguments ask
for has an edge for each of its items. -/
structure GraphqlRelay (α : Type) where
  fromGlobalId : String → String
  offsetToCursor : ℕ → String
  connectionFromArraySlice : List α → ConnectionArgs → ℕ → ℤ → Connection α
  cursor_ne : ∀ i, offsetToCursor i ≠ ""
  fromGlobalId_cursor : ∀ i, fromGlobalId (offsetToCursor i) = toString i
  edges_first : ∀ (slice : List α) (n arrayLength : ℕ), slice.length ≤ n →
    slice.length ≤ arrayLength →
    (connectionFromArraySlice slice { first := some n } arrayLength 0).edges =
      slice.mapIdx fun i node => ⟨offsetToCursor i, node⟩
  edges_after : ∀ (slice : List α) (n arrayLength a : ℕ), slice.length ≤ n →
    a + 1 + slice.length ≤ arrayLength →
    (connectionFromArraySlice slice { first := some n, after := some (offsetToCursor a) }
      arrayLength (a + 1)).edges = slice.mapIdx fun i node => ⟨offsetToCursor (a + 1 + i), node⟩
  edges_before : ∀ (slice : List α) (n arrayLength start : ℕ), slice.length ≤ n →
    start + slice.length < arrayLength →
    (connectionFromArraySlice slice
      { last := some n, before := some (offsetToCursor (start + slice.length)) }
      arrayLength start).edges = slice.mapIdx fun i node => ⟨offsetToCursor (start + i), node⟩

/-! ## The response -/

/-- A page with the number of items on all pages. -/
structure CollectionType (α : Type) where
  count : ℕ
  items : List α

/-- The page in numbers. -/
structure PageData where
  count : ℕ
  limit : ℤ
  offset : Option ℤ

/-- The answer of a resolver. -/
structure PageResponse (α : Type) where
  edges : List (Edge α)
  pageInfo : PageInfo
  pageData : PageData

/-- The connection, and the numbers of the page. -/
def mapResponse {α : Type} (relay : GraphqlRelay α) (returnList : List α) (args : ConnectionArgs)
    (count : ℕ) (offset : Option ℤ) (limit : ℤ) : PageResponse α :=
  -- `offset || 0`
  let page := relay.connectionFromArraySlice returnList args count (offset.getD 0)
  { edges := page.edges, pageInfo := page.pageInfo, pageData := { count, limit, offset } }

/-- A listing of a service: it is sliced as it was asked to be. -/
structure ListingQuery (α : Type) where
  getFiltered : ℤ → ℤ → CollectionType α
  listing : List α
  sliced : ∀ offset limit,
    getFiltered offset limit = ⟨listing.length, slice listing offset (offset + limit)⟩

/-- The page is fetched and made a connection. -/
def respond {α : Type} (relay : GraphqlRelay α) (query : ListingQuery α) (params : PaginationArgs)
    (pagination : Option ConnectionArgs) : PageResponse α :=
  let response := match params.offset with
    | some offset => query.getFiltered offset params.limit
    -- `slice` takes what is not a number for 0
    | none => query.getFiltered 0 0
  mapResponse relay response.items (pagination.getD {}) response.count params.offset params.limit

/-- A query of a resolver for a page of a listing. -/
def resolvePage {α : Type} (relay : GraphqlRelay α) (query : ListingQuery α)
    (pagination : Option ConnectionArgs) : Except String (PageResponse α) :=
  match getPagingParameters relay.fromGlobalId pagination with
  | .error message => .error message
  | .ok (params, pagination) => .ok (respond relay query params pagination)

section Resolvers

open MxExchange.Router MxExchange.Tokens
open MxExchange.Pair (TokenID)

/-- `filteredPairs` of `router.resolver.ts`. -/
def filteredPairsQuery (engine : ArraySort (SortItem PairMetadata)) (services : PairServices)
    (filters : PairsFilter) (sorting : Option PairSortingArgs) : ListingQuery PairModel where
  getFiltered offset limit :=
    let response := RouterService.getFilteredPairs engine services offset limit filters sorting
    ⟨response.count, response.items⟩
  listing := (filteredPairs engine services filters sorting).map fun pair => ⟨pair.address⟩
  sliced offset limit := by
    simp only [getFilteredPairs_filteredPairs, List.length_map]

/-- `filteredTokens` of `token.resolver.ts`, the state reads of every request
completing in the same order. -/
def filteredTokensQuery (services : TokenServices) (engine : ArraySort (SortItem TokenID))
    (filters : TokensFilter) (sorting : Option TokenSortingArgs)
    (completion : Completion services.pairsMetadata) : ListingQuery Router.EsdtToken where
  getFiltered offset limit :=
    let response := services.getFilteredTokens engine offset limit filters sorting completion
    ⟨response.count, response.items⟩
  listing := services.filteredTokens engine filters sorting completion
  sliced _ _ := rfl

end Resolvers

/-! ## One page -/

section Pages

variable {α : Type} {relay : GraphqlRelay α} {query : ListingQuery α} {n : ℕ}

/-- The edges of the items from an offset on. -/
def edgesFrom (relay : GraphqlRelay α) (start : ℕ) (items : List α) : List (Edge α) :=
  items.mapIdx fun i node => ⟨relay.offsetToCursor (start + i), node⟩

/-- The cursor in front of an offset. -/
def cursorBefore (relay : GraphqlRelay α) : ℕ → Option String
  | 0 => none
  | a + 1 => some (relay.offsetToCursor a)

/-- The edges are those of the items, in order. -/
theorem nodes_edgesFrom (start : ℕ) (items : List α) :
    (edgesFrom relay start items).map Edge.node = items := by
  refine List.ext_getElem? fun i => ?_
  simp only [edgesFrom, List.getElem?_map, List.getElem?_mapIdx, Option.map_map]
  exact Option.map_id'

/-- A request whose arguments are accepted is answered. -/
theorem resolvePage_of_params {pagination pagination' : Option ConnectionArgs}
    {params : PaginationArgs}
    (h : getPagingParameters relay.fromGlobalId pagination = .ok (params, pagination')) :
    resolvePage relay query pagination = .ok (respond relay query params pagination') := by
  rw [resolvePage, h]

/-- A page from an offset that is not negative. -/
theorem getFiltered_natCast (query : ListingQuery α) (n start : ℕ) :
    query.getFiltered (start : ℤ) (n : ℤ) =
      ⟨query.listing.length, (query.listing.drop start).take n⟩ := by
  have hstop : (start : ℤ) + (n : ℤ) = ((start + n : ℕ) : ℤ) := by omega
  rw [query.sliced, hstop, slice_natCast, Nat.add_sub_cancel_left]

/-- The page forward from an offset has the items from there on. -/
theorem resolvePage_forward (relay : GraphqlRelay α) (hn : 0 < n) {start : ℕ}
    (hstart : start ≤ query.listing.length) :
    ∃ page, resolvePage relay query
        (some { first := some (n : ℤ), after := cursorBefore relay start }) = .ok page ∧
      page.edges = edgesFrom relay start ((query.listing.drop start).take n) := by
  have hpos : (0 : ℤ) < n := by omega
  have hsmall : ((query.listing.drop start).take n).length ≤ n := by
    rw [List.length_take]
    omega
  have hinside : start + ((query.listing.drop start).take n).length ≤ query.listing.length := by
    rw [List.length_take, List.length_drop]
    omega
  cases start with
  | zero =>
    refine ⟨_, resolvePage_of_params (getPagingParameters_first hpos), ?_⟩
    have hquery := getFiltered_natCast query n 0
    simp only [respond, mapResponse, Nat.cast_zero] at hquery ⊢
    rw [hquery]
    have hedges := relay.edges_first _ n query.listing.length hsmall (by omega)
    simpa [edgesFrom] using hedges
  | succ a =>
    have hid := relay.fromGlobalId_cursor a
    refine ⟨_, resolvePage_of_params (getPagingParameters_after hpos (relay.cursor_ne a) hid), ?_⟩
    have hquery := getFiltered_natCast query n (a + 1)
    simp only [respond, mapResponse, Nat.cast_add, Nat.cast_one] at hquery ⊢
    rw [hquery]
    exact relay.edges_after _ n query.listing.length a hsmall (by omega)

/-- The page backward from the cursor of an item has the items up to it. -/
theorem resolvePage_backward (relay : GraphqlRelay α) (hn : 0 < n) {b : ℕ}
    (hb : b < query.listing.length) :
    ∃ page, resolvePage relay query
        (some { last := some (n : ℤ), before := some (relay.offsetToCursor b) }) = .ok page ∧
      page.edges = edgesFrom relay (b - n) ((query.listing.drop (b - n)).take (min n b)) := by
  have hpos : (0 : ℤ) < n := by omega
  obtain ⟨offset, limit, hparams, hsum, hlimit⟩ :=
    getPagingParameters_before hpos (relay.cursor_ne b) (relay.fromGlobalId_cursor b)
  have hlimit' : limit = min n b := by omega
  have hoffset : offset = b - n := by omega
  refine ⟨_, resolvePage_of_params hparams, ?_⟩
  have hquery := getFiltered_natCast query limit offset
  simp only [respond, mapResponse, Option.getD_some]
  rw [hquery, ← hoffset, ← hlimit']
  have hlength : ((query.listing.drop offset).take limit).length = limit := by
    rw [List.length_take, List.length_drop]
    omega
  have hedges := relay.edges_before ((query.listing.drop offset).take limit) n
    query.listing.length offset (by omega) (by omega)
  rw [hlength, hsum] at hedges
  exact hedges

/-! ## From page to page -/

/-- A client that asks for so many pages at most, each behind the last edge
of the one before, and stops at an empty one. -/
def walkForward (request : Option ConnectionArgs → Except String (PageResponse α)) (first : ℤ) :
    ℕ → Option String → Except String (List α)
  | 0, _ => .ok []
  | pages + 1, after =>
    match request (some { first := some first, after }) with
    | .error message => .error message
    | .ok page =>
      match page.edges.getLast? with
      | none => .ok []
      | some edge =>
        (walkForward request first pages (some edge.cursor)).map (page.edges.map Edge.node ++ ·)

/-- The same backward: each page is before the first edge of the one after. -/
def walkBackward (request : Option ConnectionArgs → Except String (PageResponse α)) (last : ℤ) :
    ℕ → String → Except String (List α)
  | 0, _ => .ok []
  | pages + 1, before =>
    match request (some { last := some last, before := some before }) with
    | .error message => .error message
    | .ok page =>
      match page.edges.head? with
      | none => .ok []
      | some edge =>
        (walkBackward request last pages edge.cursor).map (· ++ page.edges.map Edge.node)

/-- The last cursor of a page is the one before the next page. -/
theorem getLast?_edgesFrom (relay : GraphqlRelay α) (start : ℕ) {items : List α} (h : items ≠ []) :
    ∃ edge, (edgesFrom relay start items).getLast? = some edge ∧
      some edge.cursor = cursorBefore relay (start + items.length) := by
  obtain ⟨front, last, rfl⟩ := List.eq_nil_or_concat items |>.resolve_left h
  refine ⟨⟨relay.offsetToCursor (start + front.length), last⟩, ?_, ?_⟩
  · rw [edgesFrom, List.concat_eq_append, List.mapIdx_append]
    simp
  · rw [List.length_concat]
    rfl

/-- Pages forward from an offset, until all is seen. -/
theorem walkForward_drop (relay : GraphqlRelay α) (hn : 0 < n) (pages : ℕ) {start : ℕ}
    (hstart : start ≤ query.listing.length)
    (hpages : query.listing.length - start ≤ pages * n) :
    walkForward (resolvePage relay query) n pages (cursorBefore relay start) =
      .ok (query.listing.drop start) := by
  induction pages generalizing start with
  | zero =>
    have hall : query.listing.length ≤ start := by omega
    rw [List.drop_of_length_le hall]
    rfl
  | succ pages ih =>
    obtain ⟨page, hpage, hedges⟩ := resolvePage_forward relay hn hstart
    rw [walkForward, hpage]
    show (match page.edges.getLast? with | none => _ | some _ => _) = _
    by_cases hall : query.listing.length ≤ start
    · -- nothing is left, and the page is empty
      rw [hedges, List.drop_of_length_le hall, List.take_nil]
      rfl
    · have hlength : 0 < ((query.listing.drop start).take n).length := by
        rw [List.length_take, List.length_drop]
        omega
      obtain ⟨edge, hlast, hcursor⟩ := getLast?_edgesFrom relay start
        (List.ne_nil_of_length_pos hlength)
      rw [hedges, hlast]
      show (walkForward _ _ pages (some edge.cursor)).map _ = _
      have hlength' : ((query.listing.drop start).take n).length =
          min n (query.listing.length - start) := by
        rw [List.length_take, List.length_drop]
      rw [Nat.succ_mul] at hpages
      rw [hcursor, ih (by omega) (by omega), nodes_edgesFrom, ← List.drop_drop]
      show Except.ok (_ ++ _) = _
      rw [List.prefix_iff_eq_append.mp (List.take_prefix n _)]

/-- Pages backward from an item, until the start. -/
theorem walkBackward_take (hn : 0 < n) (pages : ℕ) {b : ℕ} (hb : b < query.listing.length)
    (hpages : b ≤ pages * n) :
    walkBackward (resolvePage relay query) n pages (relay.offsetToCursor b) =
      .ok (query.listing.take b) := by
  induction pages generalizing b with
  | zero =>
    obtain rfl : b = 0 := by omega
    rfl
  | succ pages ih =>
    obtain ⟨page, hpage, hedges⟩ := resolvePage_backward relay hn hb
    rw [walkBackward, hpage]
    show (match page.edges.head? with | none => _ | some _ => _) = _
    by_cases hzero : b = 0
    · subst hzero
      rw [hedges, Nat.min_zero, List.take_zero]
      rfl
    · have hlength : 0 < ((query.listing.drop (b - n)).take (min n b)).length := by
        rw [List.length_take, List.length_drop]
        omega
      obtain ⟨first, rest, hitems⟩ := List.exists_cons_of_ne_nil (List.ne_nil_of_length_pos hlength)
      rw [Nat.succ_mul] at hpages
      have hhead : page.edges.head? = some ⟨relay.offsetToCursor (b - n), first⟩ := by
        rw [hedges, hitems, edgesFrom, List.mapIdx_cons]
        rfl
      rw [hhead]
      show (walkBackward _ _ pages (relay.offsetToCursor (b - n))).map _ = _
      rw [ih (by omega) (by omega), hedges, nodes_edgesFrom]
      show Except.ok (_ ++ _) = _
      rw [← List.take_add]
      have hsum : b - n + min n b = b := by omega
      rw [hsum]

/-- Enough pages from the start. -/
theorem walkForward_none (relay : GraphqlRelay α) (hn : 0 < n) {pages : ℕ}
    (hpages : query.listing.length ≤ pages * n) :
    walkForward (resolvePage relay query) n pages none = .ok query.listing := by
  have hall := walkForward_drop relay hn pages (Nat.zero_le query.listing.length)
    (by rw [Nat.sub_zero]; exact hpages)
  rw [List.drop_zero] at hall
  exact hall

/-- Going on from the last cursor shows the whole listing, in order. -/
theorem walkForward_listing (relay : GraphqlRelay α) (query : ListingQuery α) (first pages : ℕ)
    (hfirst : 0 < first) (hpages : query.listing.length ≤ pages * first) :
    walkForward (resolvePage relay query) first pages none = .ok query.listing :=
  walkForward_none relay hfirst hpages

/-- Going back from the cursor of an item shows all that comes before it. -/
theorem walkBackward_listing (relay : GraphqlRelay α) (query : ListingQuery α) (last pages b : ℕ)
    (hlast : 0 < last) (hb : b < query.listing.length) (hpages : b ≤ pages * last) :
    walkBackward (resolvePage relay query) last pages (relay.offsetToCursor b) =
      .ok (query.listing.take b) :=
  walkBackward_take hlast pages hb hpages

end Pages

/-! ## The two listings -/

section Listings

open MxExchange.Router MxExchange.Tokens
open MxExchange.Pair (TokenID)

/-- The pages of `filteredPairs` are those of the pairs that pass the filters,
as they are sorted. -/
theorem walkForward_filteredPairs (relay : GraphqlRelay PairModel)
    (engine : ArraySort (SortItem PairMetadata)) (services : PairServices) (filters : PairsFilter)
    (sorting : Option PairSortingArgs) {first pages : ℕ} (hfirst : 0 < first)
    (hpages : (filteredPairs engine services filters sorting).length ≤ pages * first) :
    walkForward (resolvePage relay (filteredPairsQuery engine services filters sorting)) first
        pages none =
      .ok ((filteredPairs engine services filters sorting).map fun pair => ⟨pair.address⟩) :=
  walkForward_none relay hfirst (by rwa [filteredPairsQuery, List.length_map])

/-- The pages backward from a pair are the pairs before it. -/
theorem walkBackward_filteredPairs (relay : GraphqlRelay PairModel)
    (engine : ArraySort (SortItem PairMetadata)) (services : PairServices) (filters : PairsFilter)
    (sorting : Option PairSortingArgs) {last pages b : ℕ} (hlast : 0 < last)
    (hb : b < (filteredPairs engine services filters sorting).length)
    (hpages : b ≤ pages * last) :
    walkBackward (resolvePage relay (filteredPairsQuery engine services filters sorting)) last
        pages (relay.offsetToCursor b) =
      .ok (((filteredPairs engine services filters sorting).take b).map
        fun pair => ⟨pair.address⟩) := by
  rw [List.map_take]
  exact walkBackward_take hlast pages (by rwa [filteredPairsQuery, List.length_map]) hpages

/-- The pages of `filteredTokens`, likewise. -/
theorem walkForward_filteredTokens (relay : GraphqlRelay Router.EsdtToken)
    (services : TokenServices) (engine : ArraySort (SortItem TokenID)) (filters : TokensFilter)
    (sorting : Option TokenSortingArgs) (completion : Completion services.pairsMetadata)
    {first pages : ℕ} (hfirst : 0 < first)
    (hpages : (services.filteredTokens engine filters sorting completion).length ≤
      pages * first) :
    walkForward (resolvePage relay (filteredTokensQuery services engine filters sorting completion))
        first pages none =
      .ok (services.filteredTokens engine filters sorting completion) :=
  walkForward_none relay hfirst hpages

/-- The pages backward from a token. -/
theorem walkBackward_filteredTokens (relay : GraphqlRelay Router.EsdtToken)
    (services : TokenServices) (engine : ArraySort (SortItem TokenID)) (filters : TokensFilter)
    (sorting : Option TokenSortingArgs) (completion : Completion services.pairsMetadata)
    {last pages b : ℕ} (hlast : 0 < last)
    (hb : b < (services.filteredTokens engine filters sorting completion).length)
    (hpages : b ≤ pages * last) :
    walkBackward
        (resolvePage relay (filteredTokensQuery services engine filters sorting completion)) last
        pages (relay.offsetToCursor b) =
      .ok ((services.filteredTokens engine filters sorting completion).take b) :=
  walkBackward_take hlast pages hb hpages

end Listings

/-! ## Array connections

The functions of graphql-relay for cursors that are offsets in an array. -/

namespace ArrayConnection

open MxExchange.Text

/-- A cursor is the Base64 text of a name and the offset. -/
def offsetToCursor (offset : ℕ) : String :=
  String.ofList (bufferToBase64 (("arrayconnection:" ++ toString offset).toList.map Char.toNat))

/-- The id is what stands behind the first colon. -/
def fromGlobalId (globalId : String) : String :=
  String.ofList (((bufferToString (bufferFromBase64 globalId.toList)).dropWhile (· ≠ ':')).drop 1)

/-- The offset in a cursor, if it can be read. -/
def getOffsetWithDefault (cursor : Option String) (defaultOffset : ℤ) : ℤ :=
  (cursor.bind (getId fromGlobalId)).getD defaultOffset

/-- Where the edges of a slice begin and end. -/
def offsets (args : ConnectionArgs) (arrayLength : ℕ) (sliceStart : ℤ) (length : ℕ) : ℤ × ℤ :=
  let startOffset := max sliceStart 0
  let endOffset := min (sliceStart + length) arrayLength
  let afterOffset := getOffsetWithDefault args.after (-1)
  let startOffset := if 0 ≤ afterOffset ∧ afterOffset < arrayLength
    then max startOffset (afterOffset + 1) else startOffset
  let beforeOffset := getOffsetWithDefault args.before endOffset
  let endOffset := if 0 ≤ beforeOffset ∧ beforeOffset < arrayLength
    then min endOffset beforeOffset else endOffset
  let endOffset := match args.first with
    | some first => min endOffset (startOffset + first)
    | none => endOffset
  let startOffset := match args.last with
    | some last => max startOffset (endOffset - last)
    | none => startOffset
  (startOffset, endOffset)

/-- The edges of the part of the slice that the arguments ask for. -/
def connectionFromArraySlice {α : Type} (arraySlice : List α) (args : ConnectionArgs)
    (arrayLength : ℕ) (sliceStart : ℤ) : Connection α :=
  let (startOffset, endOffset) := offsets args arrayLength sliceStart arraySlice.length
  let edges := (slice arraySlice (startOffset - sliceStart) (endOffset - sliceStart)).mapIdx
    fun i node => (⟨offsetToCursor (startOffset + i).toNat, node⟩ : Edge α)
  let lowerBound := match args.after with
    | some after => getOffsetWithDefault (some after) (-1) + 1
    | none => 0
  let upperBound := match args.before with
    | some before => getOffsetWithDefault (some before) endOffset
    | none => arrayLength
  { edges
    pageInfo :=
      { startCursor := edges.head?.map Edge.cursor
        endCursor := edges.getLast?.map Edge.cursor
        hasPreviousPage := args.last.isSome && lowerBound < startOffset
        hasNextPage := args.first.isSome && endOffset < upperBound } }

/-- Offsets can be read off cursors. -/
theorem fromGlobalId_offsetToCursor (offset : ℕ) :
    fromGlobalId (offsetToCursor offset) = toString offset := by
  have hprefix : ("arrayconnection:".toList.all fun c => c.toNat < 128) = true := by decide
  have hascii : ∀ c ∈ ("arrayconnection:" ++ toString offset).toList, c.toNat < 128 := by
    intro c hc
    rw [String.toList_append] at hc
    rcases List.mem_append.mp hc with hc | hc
    · exact of_decide_eq_true (List.all_eq_true.mp hprefix c hc)
    · have hdigit : c.isDigit := by
        refine Nat.isDigit_of_mem_toDigits (b := 10) (n := offset) (by omega) (by omega) ?_
        rw [← Nat.toList_repr]
        exact hc
      have hrange : 48 ≤ c.toNat ∧ c.toNat ≤ 57 := by
        simpa [Char.isDigit, UInt32.le_iff_toNat_le] using hdigit
      omega
  have hbytes : ∀ b ∈ ("arrayconnection:" ++ toString offset).toList.map Char.toNat, b < 256 := by
    intro b hb
    obtain ⟨c, hc, rfl⟩ := List.mem_map.mp hb
    exact Nat.lt_of_lt_of_le (hascii c hc) (by omega)
  unfold fromGlobalId offsetToCursor
  rw [String.toList_ofList, bufferFromBase64_bufferToBase64 hbytes, bufferToString_ascii hascii,
    String.toList_append]
  show String.ofList (toString offset).toList = toString offset
  exact String.ofList_toList

theorem getOffsetWithDefault_cursor (offset : ℕ) (defaultOffset : ℤ) :
    getOffsetWithDefault (some (offsetToCursor offset)) defaultOffset = offset := by
  unfold getOffsetWithDefault
  rw [Option.bind_some, getId_of_toString (fromGlobalId_offsetToCursor offset), Option.getD_some]

/-- A slice that is just what was asked for has an edge for each item. -/
theorem edges_of_offsets {α : Type} {arraySlice : List α} {args : ConnectionArgs}
    {arrayLength start : ℕ} (h : offsets args arrayLength start arraySlice.length =
      ((start : ℤ), ((start + arraySlice.length : ℕ) : ℤ))) :
    (connectionFromArraySlice arraySlice args arrayLength start).edges =
      arraySlice.mapIdx fun i node => ⟨offsetToCursor (start + i), node⟩ := by
  have hall : slice arraySlice ((start : ℤ) - start)
      (((start + arraySlice.length : ℕ) : ℤ) - start) = arraySlice := by
    have hstop : ((start + arraySlice.length : ℕ) : ℤ) - start = (arraySlice.length : ℕ) := by
      omega
    rw [hstop, Int.sub_self]
    show slice arraySlice ((0 : ℕ) : ℤ) _ = _
    rw [slice_natCast, List.drop_zero, Nat.sub_zero, List.take_length]
  unfold connectionFromArraySlice
  rw [h]
  show List.mapIdx _ (slice arraySlice _ _) = _
  rw [hall]
  rfl

end ArrayConnection

open ArrayConnection in
/-- graphql-relay. -/
def graphqlRelay (α : Type) : GraphqlRelay α where
  fromGlobalId := fromGlobalId
  offsetToCursor := offsetToCursor
  connectionFromArraySlice := connectionFromArraySlice
  cursor_ne i h := by
    have hid := fromGlobalId_offsetToCursor i
    rw [h] at hid
    have hdigits : Nat.toDigits 10 i = [] := by
      rw [← Nat.toList_repr]
      show (toString i).toList = []
      rw [← hid]
      rfl
    exact Nat.toDigits_ne_nil hdigits
  fromGlobalId_cursor := fromGlobalId_offsetToCursor
  edges_first slice n arrayLength hsmall hinside := by
    have hoffsets : offsets { first := some (n : ℤ) } arrayLength (0 : ℕ) slice.length =
        (((0 : ℕ) : ℤ), ((0 + slice.length : ℕ) : ℤ)) := by
      simp only [offsets, getOffsetWithDefault, Option.bind_none, Option.getD_none, Prod.mk.injEq]
      constructor
      · omega
      · omega
    have hedges := edges_of_offsets hoffsets
    simpa using hedges
  edges_after slice n arrayLength a hsmall hinside := by
    have hoffsets : offsets { first := some (n : ℤ), after := some (offsetToCursor a) } arrayLength
        ((a + 1 : ℕ) : ℤ) slice.length =
        (((a + 1 : ℕ) : ℤ), ((a + 1 + slice.length : ℕ) : ℤ)) := by
      simp only [offsets, getOffsetWithDefault_cursor, Prod.mk.injEq]
      simp only [getOffsetWithDefault, Option.bind_none, Option.getD_none]
      constructor
      · omega
      · omega
    exact edges_of_offsets hoffsets
  edges_before slice n arrayLength start hsmall hinside := by
    have hoffsets : offsets
        { last := some (n : ℤ), before := some (offsetToCursor (start + slice.length)) }
        arrayLength (start : ℤ) slice.length =
        ((start : ℤ), ((start + slice.length : ℕ) : ℤ)) := by
      simp only [offsets, getOffsetWithDefault_cursor, Prod.mk.injEq]
      simp only [getOffsetWithDefault, Option.bind_none, Option.getD_none]
      constructor
      · omega
      · omega
    exact edges_of_offsets hoffsets

/-- Four tokens in pages of three. -/
def fourTokens : ListingQuery Router.EsdtToken :=
  filteredTokensQuery Tokens.twoPairs (.insertion _) { enabledSwaps := false } none
    ⟨Tokens.twoPairs.pairsMetadata, .refl _⟩

theorem walkForward_fourTokens : fourTokens.listing.length = 4 ∧
    walkForward (resolvePage (graphqlRelay Router.EsdtToken) fourTokens) (3 : ℕ) 2 none =
      .ok fourTokens.listing := by
  have hlength : fourTokens.listing.length = 4 := by decide +kernel
  refine ⟨hlength, ?_⟩
  exact walkForward_listing (graphqlRelay Router.EsdtToken) fourTokens 3 2 (by omega) (by omega)

theorem walkBackward_fourTokens :
    walkBackward (resolvePage (graphqlRelay Router.EsdtToken) fourTokens) (2 : ℕ) 2
        ((graphqlRelay Router.EsdtToken).offsetToCursor 3) =
      .ok (fourTokens.listing.take 3) := by
  have hlength : fourTokens.listing.length = 4 := by decide +kernel
  exact walkBackward_listing (graphqlRelay Router.EsdtToken) fourTokens 2 2 3 (by omega) (by omega)
    (by omega)

end MxExchange.Common
