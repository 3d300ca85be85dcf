import MxExchange.AutoRouter.GraphInstance
import MxExchange.Cache.CacheKey

/-!
# `router.handler.service.ts`: routes that a new pair opens

`getAllPaths` of `auto-router.service.ts` keeps its answers for ten minutes,
one entry for a source and a destination. When a pair is created the handler
asks for the deletion of the entries from and to its two tokens, for every
other token of an active pair.

The entries that change are those with a path through the new pair
(`getAllPaths_concat_eq_iff`), and such a path may start and end elsewhere.
Two things get in the way of a fresh cache, and `routes_follow_iff` says
exactly when neither does. A path may come to the one token from a third and
leave the other for a fourth; the entry of these two is not deleted. And what
is deleted is the copy in the process (`deleteLocal`), while the copy in the
shared cache is found again by the next request.
-/

namespace MxExchange.RabbitMq

open MxExchange.Pair MxExchange.Collections MxExchange.AutoRouter MxExchange.Cache MxExchange.Num

/-! ## The cache of routes -/

/-- The paths that are cached for two tokens. -/
abbrev Routes := List (List TokenID)

/-- The two layers of `cachingService`: the process's own and the shared one. -/
structure RouteCache where
  localCache : String → Option Routes
  remoteCache : String → Option Routes

/-- The key that the router caches them under. -/
def routeKey (source destination : TokenID) : String :=
  generateCacheKeyFromParams [.string "auto.route.paths", .string source, .string destination]

/-- `cachingService.getOrSet`: the local copy, or the shared one, or else a
new answer that is stored in both. Only this one runs `compute`. -/
def RouteCache.getOrSet (key : String) (compute : GraphStatics → Routes × GraphStatics)
    (statics : GraphStatics) (cache : RouteCache) : Routes × GraphStatics × RouteCache :=
  match cache.localCache key with
  | some routes => (routes, statics, cache)
  | none =>
    match cache.remoteCache key with
    | some routes =>
      (routes, statics,
        { cache with localCache := Function.update cache.localCache key (some routes) })
    | none =>
      let (routes, statics') := compute statics
      (routes, statics',
        { localCache := Function.update cache.localCache key (some routes)
          remoteCache := Function.update cache.remoteCache key (some routes) })

/-- `AutoRouterService.getAllPaths`. -/
def getAllPaths (pairs : List PairModel) (source destination : TokenID)
    (statics : GraphStatics) (cache : RouteCache) : Routes × GraphStatics × RouteCache :=
  RouteCache.getOrSet (routeKey source destination)
    (fun statics =>
      let (graph, statics') := getInstance statics pairs
      (graph.getAllPaths source destination, statics'))
    statics cache

/-- The consumer of `deleteCacheKeys`: `deleteLocal` for each key. -/
def RouteCache.deleteCacheKeys (keys : List String) (cache : RouteCache) : RouteCache :=
  { cache with localCache := fun key => if key ∈ keys then none else cache.localCache key }

/-- Every answer kept, in either layer, is what the graph of the pairs gives. -/
def RouteCache.Fresh (cache : RouteCache) (pairs : List PairModel) : Prop :=
  ∀ source destination routes,
    cache.localCache (routeKey source destination) = some routes ∨
      cache.remoteCache (routeKey source destination) = some routes →
    routes = (GraphService.new pairs).getAllPaths source destination

/-! ## The handler -/

/-- A pair as the router lists it, with its state. -/
structure ListedPair where
  pair : PairModel
  state : String

/-- The pairs that routes are made of. -/
def activePairs (listed : List ListedPair) : List PairModel :=
  (listed.filter fun entry => entry.state = "Active").map ListedPair.pair

/-- `getUniqueTokenIDs(activePool)`. -/
def getUniqueTokenIDs (activePool : Bool) (listed : List ListedPair) : List TokenID :=
  ((listed.filter fun entry => !activePool || entry.state = "Active").flatMap fun entry =>
    [entry.pair.firstToken.identifier, entry.pair.secondToken.identifier]).dedup

/-- What a new pair logs. -/
structure CreatePairEvent where
  firstTokenID : TokenID
  secondTokenID : TokenID

/-- What the handler is told: the pairs known before, the listing that
contains the new one, and what it asks about the two tokens. -/
structure RouterAnswers where
  listed : List ListedPair
  pairsAddresses : List String
  getEsdtTokenType : TokenID → String
  commonTokens : List TokenID

/-- What it does: tokens it registers as experimental, the pair count it
stores, and the keys it asks to delete. -/
structure CreatePairResult where
  createdTokens : List TokenID
  pairCount : ℕ
  deletedKeys : List String

/-- The four entries for a token. -/
def tokenRouteKeys (event : CreatePairEvent) (token : TokenID) : List String :=
  [routeKey event.firstTokenID token, routeKey event.secondTokenID token,
    routeKey token event.firstTokenID, routeKey token event.secondTokenID]

/-- What the handler sets, and the keys it deletes. -/
def handleCreatePairEvent (answers : RouterAnswers) (event : CreatePairEvent) :
    CreatePairResult where
  createdTokens :=
    if event.firstTokenID ∈ answers.commonTokens ∨ event.secondTokenID ∈ answers.commonTokens then
      [event.firstTokenID, event.secondTokenID].filter fun token =>
        answers.getEsdtTokenType token = "Unlisted"
    else []
  pairCount := answers.pairsAddresses.length
  deletedKeys :=
    ["pairsMetadata", "pairsAddress", "pairCount"].map (fun name =>
      generateCacheKeyFromParams [.string "router", .string name]) ++
    (getUniqueTokenIDs true answers.listed).flatMap (tokenRouteKeys event)

/-! ## Keys -/

/-- No dot, as in every token identifier. -/
def PlainToken (token : TokenID) : Prop := '.' ∉ token.toList

section Keys

variable {s d x y : TokenID} {event : CreatePairEvent} {answers : RouterAnswers}
  {listed : List ListedPair} {token : TokenID}

/-- The key by its characters. -/
theorem routeKey_toList (s d : TokenID) :
    (routeKey s d).toList = "auto.route.paths.".toList ++ (s.toList ++ '.' :: d.toList) := by
  rw [routeKey, generateCacheKeyFromParams_toList]
  simp [List.intercalate, CacheArg.text]

/-- The two tokens of a key can be read back if they have no dots. -/
theorem routeKey_inj (hs : PlainToken s) (hd : PlainToken d) (h : routeKey x y = routeKey s d) :
    x = s ∧ y = d := by
  have hlist := congrArg String.toList h
  rw [routeKey_toList, routeKey_toList, List.append_cancel_left_eq] at hlist
  -- there is one dot in all on the right, so there is none in `x` and `y`
  have hcount := congrArg (List.count '.') hlist
  rw [List.count_append, List.count_append, List.count_cons_self, List.count_cons_self,
    List.count_eq_zero.mpr hs, List.count_eq_zero.mpr hd] at hcount
  have hx : '.' ∉ x.toList := List.count_eq_zero.mp (by omega)
  have hy : '.' ∉ y.toList := List.count_eq_zero.mp (by omega)
  obtain ⟨hxs, -, hyd⟩ := (List.append_cons_inj_of_notMem hx hy).mp hlist
  exact ⟨String.toList_inj.mp hxs, String.toList_inj.mp hyd⟩

/-- No key of the router service is a key of routes. -/
theorem routerKey_ne (name : String) :
    generateCacheKeyFromParams [.string "router", .string name] ≠ routeKey s d := by
  intro h
  have hlist := congrArg String.toList h
  rw [routeKey_toList, generateCacheKeyFromParams_toList] at hlist
  simp [List.intercalate, CacheArg.text] at hlist

/-- The keys between a token and the two of the pair. -/
theorem mem_tokenRouteKeys : routeKey s d ∈ tokenRouteKeys event token ↔
    routeKey s d = routeKey event.firstTokenID token ∨
      routeKey s d = routeKey event.secondTokenID token ∨
      routeKey s d = routeKey token event.firstTokenID ∨
      routeKey s d = routeKey token event.secondTokenID := by
  simp [tokenRouteKeys]

/-- The keys that are deleted are those of the tokens that are listed. -/
theorem mem_deletedKeys : routeKey s d ∈ (handleCreatePairEvent answers event).deletedKeys ↔
    ∃ token ∈ getUniqueTokenIDs true answers.listed, routeKey s d ∈ tokenRouteKeys event token := by
  show _ ∈ List.map _ _ ++ List.flatMap _ _ ↔ _
  rw [List.mem_append, List.mem_flatMap]
  refine or_iff_right ?_
  intro h
  obtain ⟨name, -, hkey⟩ := List.mem_map.mp h
  exact routerKey_ne name hkey

/-- The entry of a source and a destination is deleted: the one is a token of
the new pair and the other a token of an active pair. -/
def Deleted (listed : List ListedPair) (event : CreatePairEvent) (s d : TokenID) : Prop :=
  ((s = event.firstTokenID ∨ s = event.secondTokenID) ∧ d ∈ getUniqueTokenIDs true listed) ∨
    ((d = event.firstTokenID ∨ d = event.secondTokenID) ∧ s ∈ getUniqueTokenIDs true listed)

/-- Routes that are to be deleted are. -/
theorem mem_deletedKeys_of (h : Deleted answers.listed event s d) :
    routeKey s d ∈ (handleCreatePairEvent answers event).deletedKeys := by
  rw [mem_deletedKeys]
  rcases h with ⟨rfl | rfl, hd⟩ | ⟨rfl | rfl, hs⟩
  · exact ⟨d, hd, mem_tokenRouteKeys.mpr (Or.inl rfl)⟩
  · exact ⟨d, hd, mem_tokenRouteKeys.mpr (Or.inr (Or.inl rfl))⟩
  · exact ⟨s, hs, mem_tokenRouteKeys.mpr (Or.inr (Or.inr (Or.inl rfl)))⟩
  · exact ⟨s, hs, mem_tokenRouteKeys.mpr (Or.inr (Or.inr (Or.inr rfl)))⟩

/-- And no others, for tokens without dots. -/
theorem deleted_of_mem (hs : PlainToken s) (hd : PlainToken d)
    (h : routeKey s d ∈ (handleCreatePairEvent answers event).deletedKeys) :
    Deleted answers.listed event s d := by
  obtain ⟨token, htoken, hkey⟩ := mem_deletedKeys.mp h
  rcases mem_tokenRouteKeys.mp hkey with hkey | hkey | hkey | hkey
  · obtain ⟨rfl, rfl⟩ := routeKey_inj hs hd hkey.symm
    exact Or.inl ⟨Or.inl rfl, htoken⟩
  · obtain ⟨rfl, rfl⟩ := routeKey_inj hs hd hkey.symm
    exact Or.inl ⟨Or.inr rfl, htoken⟩
  · obtain ⟨rfl, rfl⟩ := routeKey_inj hs hd hkey.symm
    exact Or.inr ⟨Or.inl rfl, htoken⟩
  · obtain ⟨rfl, rfl⟩ := routeKey_inj hs hd hkey.symm
    exact Or.inr ⟨Or.inr rfl, htoken⟩

end Keys

/-! ## Between two events -/

section Requests

variable {pairs : List PairModel} {cache : RouteCache} {statics : GraphStatics}
  {s d : TokenID}

/-- Nothing cached is not out of date. -/
theorem RouteCache.fresh_empty : RouteCache.Fresh ⟨fun _ => none, fun _ => none⟩ pairs := by
  intro s d routes h
  simp at h

/-- What a request stores or copies is the answer it was asked for. -/
private theorem fresh_update {layer : String → Option Routes} {routes answer : Routes}
    {x y : TokenID} (hs : PlainToken s) (hd : PlainToken d)
    (hanswer : answer = (GraphService.new pairs).getAllPaths s d)
    (h : Function.update layer (routeKey s d) (some answer) (routeKey x y) = some routes)
    (hlayer : layer (routeKey x y) = some routes →
      routes = (GraphService.new pairs).getAllPaths x y) :
    routes = (GraphService.new pairs).getAllPaths x y := by
  by_cases hkey : routeKey x y = routeKey s d
  · obtain ⟨rfl, rfl⟩ := routeKey_inj hs hd hkey
    rw [Function.update_self, Option.some.injEq] at h
    rw [← h, hanswer]
  · rw [Function.update_of_ne hkey] at h
    exact hlayer h

/-- As long as the pairs stay the same and the graph is theirs, every request
gets the routes of the graph and leaves the cache fresh. -/
theorem getAllPaths_fresh (hgraph : (getInstance statics pairs).1 = GraphService.new pairs)
    (hs : PlainToken s) (hd : PlainToken d) (h : cache.Fresh pairs) :
    (getAllPaths pairs s d statics cache).1 = (GraphService.new pairs).getAllPaths s d ∧
      (getAllPaths pairs s d statics cache).2.2.Fresh pairs := by
  cases hlocal : cache.localCache (routeKey s d) with
  | some routes =>
    rw [getAllPaths, RouteCache.getOrSet, hlocal]
    exact ⟨h s d routes (Or.inl hlocal), h⟩
  | none =>
    cases hremote : cache.remoteCache (routeKey s d) with
    | some routes =>
      have hroutes := h s d routes (Or.inr hremote)
      simp only [getAllPaths, RouteCache.getOrSet, hlocal, hremote]
      refine ⟨hroutes, ?_⟩
      intro x y other hother
      rcases hother with hother | hother <;> dsimp only at hother
      · exact fresh_update hs hd hroutes hother fun h' => h x y other (Or.inl h')
      · exact h x y other (Or.inr hother)
    | none =>
      have hroutes := Eq.refl ((GraphService.new pairs).getAllPaths s d)
      simp only [getAllPaths, RouteCache.getOrSet, hlocal, hremote, hgraph, true_and]
      intro x y other hother
      rcases hother with hother | hother <;> dsimp only at hother
      · exact fresh_update hs hd hroutes hother fun h' => h x y other (Or.inl h')
      · exact fresh_update hs hd hroutes hother fun h' => h x y other (Or.inr h')

/-- What a request leaves that found no copy. -/
theorem getAllPaths_of_miss (hgraph : (getInstance statics pairs).1 = GraphService.new pairs)
    (hlocal : cache.localCache (routeKey s d) = none)
    (hremote : cache.remoteCache (routeKey s d) = none) :
    (getAllPaths pairs s d statics cache).2.2 =
      { localCache := Function.update cache.localCache (routeKey s d)
          (some ((GraphService.new pairs).getAllPaths s d))
        remoteCache := Function.update cache.remoteCache (routeKey s d)
          (some ((GraphService.new pairs).getAllPaths s d)) } := by
  simp only [getAllPaths, RouteCache.getOrSet, hlocal, hremote, hgraph]

/-- A shared copy expires. -/
def RouteCache.expireRemote (cache : RouteCache) (key : String) : RouteCache :=
  { cache with remoteCache := Function.update cache.remoteCache key none }

/-- What expires cannot be out of date. -/
theorem RouteCache.Fresh.expireRemote (h : cache.Fresh pairs) (key : String) :
    (cache.expireRemote key).Fresh pairs := by
  intro x y routes hroutes
  rcases hroutes with hroutes | hroutes
  · exact h x y routes (Or.inl hroutes)
  · unfold RouteCache.expireRemote at hroutes
    dsimp only at hroutes
    by_cases hkey : routeKey x y = key
    · rw [hkey, Function.update_self] at hroutes
      cases hroutes
    · rw [Function.update_of_ne hkey] at hroutes
      exact h x y routes (Or.inr hroutes)

end Requests

/-! ## Which token paths a pair adds -/

/-- Some pair trades the two tokens. -/
def Traded (pairs : List PairModel) (u v : TokenID) : Prop :=
  ∃ pair ∈ pairs, trades u v pair = true

section Paths

variable {old : List PairModel} {pair : PairModel} {listed : List ListedPair}
  {s d u v : TokenID} {p : List TokenID}

/-- A pair trades its two tokens in both directions. -/
theorem trades_iff : trades u v pair = true ↔
    (u = pair.firstToken.identifier ∧ v = pair.secondToken.identifier) ∨
      (u = pair.secondToken.identifier ∧ v = pair.firstToken.identifier) := by
  simp [trades]

theorem trades_symm (h : trades u v pair = true) : trades v u pair = true := by
  rcases trades_iff.mp h with ⟨hu, hv⟩ | ⟨hu, hv⟩
  · exact trades_iff.mpr (Or.inr ⟨hv, hu⟩)
  · exact trades_iff.mpr (Or.inl ⟨hv, hu⟩)

theorem Traded.symm (h : Traded old u v) : Traded old v u := by
  obtain ⟨pair, hpair, htrades⟩ := h
  exact ⟨pair, hpair, trades_symm htrades⟩

/-- A pair more trades its own tokens more. -/
theorem traded_concat :
    Traded (old ++ [pair]) u v ↔ Traded old u v ∨ trades u v pair = true := by
  simp [Traded, or_and_right, exists_or]

/-- The tokens of the active pairs. -/
theorem mem_getUniqueTokenIDs : u ∈ getUniqueTokenIDs true listed ↔
    ∃ pair ∈ activePairs listed, u = pair.firstToken.identifier ∨
      u = pair.secondToken.identifier := by
  simp [getUniqueTokenIDs, activePairs]

/-- Tokens that an active pair trades are listed. -/
theorem mem_getUniqueTokenIDs_of_traded (h : Traded (activePairs listed) u v) :
    u ∈ getUniqueTokenIDs true listed := by
  obtain ⟨pair, hpair, htrades⟩ := h
  refine mem_getUniqueTokenIDs.mpr ⟨pair, hpair, ?_⟩
  exact (trades_iff.mp htrades).imp And.left And.left

/-- Paths stay paths with a pair more. -/
theorem IsTokenPath.concat (h : IsTokenPath old s d p) : IsTokenPath (old ++ [pair]) s d p :=
  ⟨h.head, h.last, h.nodup, fun e he => traded_concat.mpr (Or.inl (h.traded e he))⟩

/-- A path that is new has a hop that is. -/
theorem exists_new_hop (h : IsTokenPath (old ++ [pair]) s d p) (hnew : ¬IsTokenPath old s d p) :
    ∃ e ∈ hops p, trades e.1 e.2 pair = true ∧ ¬Traded old e.1 e.2 := by
  by_contra hnone
  refine hnew ⟨h.head, h.last, h.nodup, ?_⟩
  intro e he
  rcases traded_concat.mp (h.traded e he) with hold | hpair
  · exact hold
  · by_contra hnot
    exact hnone ⟨e, he, hpair, hnot⟩

/-- A path of two tokens or more has a last hop. -/
theorem exists_hop_last (hlast : p.getLast? = some d) (hlen : 2 ≤ p.length) :
    ∃ z, (z, d) ∈ hops p := by
  obtain ⟨front, rfl⟩ := List.getLast?_eq_some_iff.mp hlast
  have hne : front ≠ [] := by
    rintro rfl
    simp at hlen
  obtain ⟨front', z, rfl⟩ := List.eq_nil_or_concat' front |>.resolve_left hne
  exact ⟨z, mem_hops_iff.mpr ⟨front', [], by simp⟩⟩

/-- And a first one. -/
theorem exists_hop_head (hhead : p.head? = some s) (hlen : 2 ≤ p.length) :
    ∃ z, (s, z) ∈ hops p := by
  match p, hhead, hlen with
  | x :: z :: rest, hhead, _ =>
    rw [← Option.some.inj hhead]
    exact ⟨z, List.mem_cons_self ..⟩

/-- Adding the pair changes the set of simple paths. -/
def RoutesChange (old : List PairModel) (pair : PairModel) (s d : TokenID) : Prop :=
  {p | IsTokenPath old s d p} ≠ {p | IsTokenPath (old ++ [pair]) s d p}

/-- Routes change if there is a path that was none before. -/
theorem routesChange_iff : RoutesChange old pair s d ↔
    ∃ p, IsTokenPath (old ++ [pair]) s d p ∧ ¬IsTokenPath old s d p := by
  unfold RoutesChange
  rw [Ne, Set.ext_iff, not_forall]
  refine exists_congr fun p => ?_
  have hmono : IsTokenPath old s d p → IsTokenPath (old ++ [pair]) s d p := IsTokenPath.concat
  show ¬(IsTokenPath old s d p ↔ IsTokenPath (old ++ [pair]) s d p) ↔ _
  tauto

/-- The tokens of a hop that the pair serves are the two of the pair. -/
theorem isEnd_iff {x : TokenID} (h : trades u v pair = true) :
    x = pair.firstToken.identifier ∨ x = pair.secondToken.identifier ↔ x = u ∨ x = v := by
  rcases trades_iff.mp h with ⟨rfl, rfl⟩ | ⟨rfl, rfl⟩
  · exact Iff.rfl
  · exact or_comm

/-- A token that is not of the pair is traded by the pairs there were. -/
theorem traded_of_ne {x y : TokenID} (h : trades u v pair = true)
    (htraded : Traded (old ++ [pair]) x y) (hu : x ≠ u) (hv : x ≠ v) : Traded old x y := by
  refine (traded_concat.mp htraded).resolve_right ?_
  intro hpair
  have hend := (isEnd_iff h).mp ((trades_iff.mp hpair).imp And.left And.left)
  exact hend.elim hu hv

end Paths

/-! ## The keys are enough -/

/-- The event of a new pair. -/
def createPairEvent (pair : PairModel) : CreatePairEvent where
  firstTokenID := pair.firstToken.identifier
  secondTokenID := pair.secondToken.identifier

/-- The pair opens no route that the handler misses: it is a pair of a token
with itself, or its tokens have a pair already, or one of them is known and
the tokens traded with the first and with the second are at most one, the
same for both. -/
def NoRouteAcross (listed : List ListedPair) (pair : PairModel) : Prop :=
  pair.firstToken.identifier = pair.secondToken.identifier ∨
    Traded (activePairs listed) pair.firstToken.identifier pair.secondToken.identifier ∨
    ((pair.firstToken.identifier ∈ getUniqueTokenIDs true listed ∨
        pair.secondToken.identifier ∈ getUniqueTokenIDs true listed) ∧
      ∀ x y, x ≠ pair.firstToken.identifier → x ≠ pair.secondToken.identifier →
        y ≠ pair.firstToken.identifier → y ≠ pair.secondToken.identifier →
        Traded (activePairs listed) x pair.firstToken.identifier →
        Traded (activePairs listed) y pair.secondToken.identifier → x = y)

section Routes

variable {listed : List ListedPair} {pair : PairModel} {s d a b : TokenID}

/-- The third alternative, for a new hop in either direction. -/
theorem noRouteAcross_of_hop (hcond : NoRouteAcross listed pair) (hab : a ≠ b)
    (h : trades a b pair = true) (hnew : ¬Traded (activePairs listed) a b) :
    (a ∈ getUniqueTokenIDs true listed ∨ b ∈ getUniqueTokenIDs true listed) ∧
      ∀ x y, x ≠ a → x ≠ b → y ≠ a → y ≠ b → Traded (activePairs listed) x a →
        Traded (activePairs listed) y b → x = y := by
  rcases trades_iff.mp h with ⟨rfl, rfl⟩ | ⟨rfl, rfl⟩
  · exact (hcond.resolve_left hab).resolve_left hnew
  · obtain ⟨hknown, hacross⟩ :=
      (hcond.resolve_left hab.symm).resolve_left fun h' => hnew h'.symm
    refine ⟨hknown.symm, ?_⟩
    intro x y hxa hxb hya hyb hx hy
    exact (hacross y x hyb hya hxb hxa hy hx).symm

/-- A path with a hop of the pair starts there, or at a known token from which
it comes to the hop over a token outside of it. -/
theorem start_of_path {pre post : List TokenID} (h : trades a b pair = true)
    (hpath : IsTokenPath (activePairs listed ++ [pair]) s d (pre ++ a :: b :: post)) :
    s = a ∨ s ∈ getUniqueTokenIDs true listed ∧
      ∃ x ∈ pre, x ≠ a ∧ x ≠ b ∧ Traded (activePairs listed) x a := by
  rcases List.eq_nil_or_concat' pre with rfl | ⟨pre', x, rfl⟩
  · exact Or.inl (Option.some.inj hpath.head).symm
  have hoff : ∀ y ∈ pre' ++ [x], y ≠ a ∧ y ≠ b := by
    intro y hy
    have hdisjoint := (List.nodup_append.mp hpath.nodup).2.2 y hy
    exact ⟨hdisjoint a (by simp), hdisjoint b (by simp)⟩
  have hs : s ∈ pre' ++ [x] := by
    have hhead := hpath.head
    rw [List.head?_append_of_ne_nil _ (by simp)] at hhead
    exact List.mem_of_head? hhead
  have hx : x ∈ pre' ++ [x] := by simp
  obtain ⟨z, hz⟩ := exists_hop_head hpath.head (by simp; omega)
  have hstart := traded_of_ne h (hpath.traded _ hz) (hoff s hs).1 (hoff s hs).2
  refine Or.inr ⟨mem_getUniqueTokenIDs_of_traded hstart, x, hx, (hoff x hx).1, (hoff x hx).2, ?_⟩
  have hmem : (x, a) ∈ hops ((pre' ++ [x]) ++ a :: b :: post) :=
    mem_hops_iff.mpr ⟨pre', b :: post, by simp⟩
  exact traded_of_ne h (hpath.traded _ hmem) (hoff x hx).1 (hoff x hx).2

/-- And ends there, or at a known token. -/
theorem end_of_path {pre post : List TokenID} (h : trades a b pair = true)
    (hpath : IsTokenPath (activePairs listed ++ [pair]) s d (pre ++ a :: b :: post)) :
    d = b ∨ d ∈ getUniqueTokenIDs true listed ∧
      ∃ y ∈ post, y ≠ a ∧ y ≠ b ∧ Traded (activePairs listed) y b := by
  have hlast := hpath.last
  rw [List.getLast?_append_of_ne_nil _ (by simp), List.getLast?_cons_cons] at hlast
  -- the route ends with the new pair, or with an old one behind it
  cases post with
  | nil => exact Or.inl (Option.some.inj hlast).symm
  | cons y post =>
    rw [List.getLast?_cons_cons] at hlast
    have hd : d ∈ y :: post := List.mem_of_getLast? hlast
    have hoff : ∀ x ∈ y :: post, x ≠ a ∧ x ≠ b := by
      intro x hx
      have hnodup := (List.nodup_append.mp hpath.nodup).2.1
      rw [List.nodup_cons, List.nodup_cons] at hnodup
      refine ⟨?_, ?_⟩
      · rintro rfl
        exact hnodup.1 (List.mem_cons_of_mem _ hx)
      · rintro rfl
        exact hnodup.2.1 hx
    have hy : y ∈ y :: post := List.mem_cons_self ..
    obtain ⟨z, hz⟩ := exists_hop_last hpath.last (by simp; omega)
    have hend := traded_of_ne h (Traded.symm (hpath.traded _ hz)) (hoff d hd).1 (hoff d hd).2
    refine Or.inr ⟨mem_getUniqueTokenIDs_of_traded hend, y, hy, (hoff y hy).1, (hoff y hy).2, ?_⟩
    have hmem : (b, y) ∈ hops (pre ++ a :: b :: y :: post) :=
      mem_hops_iff.mpr ⟨pre ++ [a], post, by simp⟩
    exact traded_of_ne h (Traded.symm (hpath.traded _ hmem)) (hoff y hy).1 (hoff y hy).2

/-- The entry of a path through the pair that nothing extends on both sides. -/
theorem deleted_of_routesChange (hcond : NoRouteAcross listed pair)
    (h : RoutesChange (activePairs listed) pair s d) :
    Deleted listed (createPairEvent pair) s d := by
  obtain ⟨p, hpath, hnew⟩ := routesChange_iff.mp h
  obtain ⟨⟨a, b⟩, he, htrades, hold⟩ := exists_new_hop hpath hnew
  dsimp only at htrades hold
  have hab : a ≠ b := ne_of_mem_hops hpath.nodup he
  obtain ⟨hknown, hacross⟩ := noRouteAcross_of_hop hcond hab htrades hold
  obtain ⟨pre, post, rfl⟩ := mem_hops_iff.mp he
  have hend : ∀ {x : TokenID}, x = a ∨ x = b →
      x = pair.firstToken.identifier ∨ x = pair.secondToken.identifier :=
    fun hx => (isEnd_iff htrades).mpr hx
  rcases start_of_path htrades hpath with hs | ⟨hs, x, hx, hxa, hxb, hxtraded⟩ <;>
    rcases end_of_path htrades hpath with hd | ⟨hd, y, hy, hya, hyb, hytraded⟩
  · -- the hop is the path
    rcases hknown with ha | hb
    · exact Or.inr ⟨hend (Or.inr hd), hs ▸ ha⟩
    · exact Or.inl ⟨hend (Or.inl hs), hd ▸ hb⟩
  · exact Or.inl ⟨hend (Or.inl hs), hd⟩
  · exact Or.inr ⟨hend (Or.inr hd), hs⟩
  · -- the hop has a token on either side, and they would be the same
    have hxy := hacross x y hxa hxb hya hyb hxtraded hytraded
    exact absurd hxy ((List.nodup_append.mp hpath.nodup).2.2 x hx y (by simp [hy]))

/-- A path that is new for the set. -/
theorem routesChange_of_path {p : List TokenID}
    (hpath : IsTokenPath (activePairs listed ++ [pair]) s d p) (he : (a, b) ∈ hops p)
    (hold : ¬Traded (activePairs listed) a b) : RoutesChange (activePairs listed) pair s d :=
  routesChange_iff.mpr ⟨p, hpath, fun h => hold (h.traded _ he)⟩

/-- Conversely, if every changed entry is deleted, the paths of the pair alone
and of one hop before it and one after it give the condition. -/
theorem noRouteAcross_of_deleted
    (h : ∀ s d, RoutesChange (activePairs listed) pair s d →
      Deleted listed (createPairEvent pair) s d) : NoRouteAcross listed pair := by
  by_cases hab : pair.firstToken.identifier = pair.secondToken.identifier
  · exact Or.inl hab
  by_cases hold :
      Traded (activePairs listed) pair.firstToken.identifier pair.secondToken.identifier
  · exact Or.inr (Or.inl hold)
  refine Or.inr (Or.inr ⟨?_, ?_⟩)
  -- the new pair alone is a route between its tokens, and its key is deleted only if
  -- one of them was listed
  · have hpath : IsTokenPath (activePairs listed ++ [pair]) pair.firstToken.identifier
        pair.secondToken.identifier [pair.firstToken.identifier, pair.secondToken.identifier] := by
      refine ⟨rfl, rfl, by simpa using hab, ?_⟩
      intro e he
      rw [List.mem_singleton.mp he]
      exact traded_concat.mpr (Or.inr (trades_iff.mpr (Or.inl ⟨rfl, rfl⟩)))
    rcases h _ _ (routesChange_of_path hpath (List.mem_cons_self ..) hold) with ⟨-, hb⟩ | ⟨-, ha⟩
    · exact Or.inr hb
    · exact Or.inl ha
  · intro x y hxa hxb hya hyb hx hy
    by_contra hxy
    -- a route with the new pair in its middle is new as well, and its key stays
    have hpath : IsTokenPath (activePairs listed ++ [pair]) x y
        [x, pair.firstToken.identifier, pair.secondToken.identifier, y] := by
      refine ⟨rfl, rfl, ?_, ?_⟩
      · simp [hxa, hxb, hxy, hab, Ne.symm hya, Ne.symm hyb]
      · intro e he
        simp only [hops, List.mem_cons, List.not_mem_nil, or_false] at he
        rcases he with rfl | rfl | rfl
        · exact traded_concat.mpr (Or.inl hx)
        · exact traded_concat.mpr (Or.inr (trades_iff.mpr (Or.inl ⟨rfl, rfl⟩)))
        · exact traded_concat.mpr (Or.inl hy.symm)
    rcases h x y (routesChange_of_path hpath (by simp [hops]) hold) with ⟨hx', -⟩ | ⟨hy', -⟩
    · exact hx'.elim hxa hxb
    · exact hy'.elim hya hyb

end Routes

/-! ## Which lists change -/

/-- What a pair adds to the neighbours of a token. -/
def furtherNeighbours (pair : PairModel) (u : TokenID) : List TokenID :=
  (if u = pair.firstToken.identifier then [pair.secondToken.identifier] else []) ++
    (if u = pair.secondToken.identifier then [pair.firstToken.identifier] else [])

/-- Some path from the one token to the other goes through the new pair. -/
def RoutedThrough (old : List PairModel) (pair : PairModel) (s d : TokenID) : Prop :=
  ∃ p, IsTokenPath (old ++ [pair]) s d p ∧ ∃ e ∈ hops p, trades e.1 e.2 pair = true

section Lists

variable {old : List PairModel} {pair : PairModel} {s d u v : TokenID} {p : List TokenID}

/-- The edges of a new pair. -/
theorem mem_furtherNeighbours : v ∈ furtherNeighbours pair u ↔ trades u v pair = true := by
  rw [trades_iff, furtherNeighbours, List.mem_append]
  refine or_congr ?_ ?_ <;> split <;> simp_all

/-- A pair more adds its edges, and nothing else. -/
theorem neighbours_concat (old : List PairModel) (pair : PairModel) (u : TokenID) :
    neighbours (GraphService.new (old ++ [pair])).adjList u
      = neighbours (GraphService.new old).adjList u ++ furtherNeighbours pair u := by
  have hnew : (GraphService.new (old ++ [pair])).adjList
      = addPair (GraphService.new old).adjList pair := by
    show (old ++ [pair]).foldl addPair [] = addPair (old.foldl addPair []) pair
    rw [List.foldl_append, List.foldl_cons, List.foldl_nil]
  rw [hnew, addPair, neighbours_addEdge, furtherNeighbours]
  by_cases hb : u = pair.secondToken.identifier
  · subst hb
    rw [if_pos rfl, if_pos rfl, neighbours_addEdge, ← List.append_assoc]
    by_cases ha : pair.secondToken.identifier = pair.firstToken.identifier
    · rw [if_pos ha, if_pos ha, ha]
    · rw [if_neg ha, if_neg ha, List.append_nil]
  · rw [if_neg hb, if_neg hb, neighbours_addEdge, List.append_nil]
    by_cases ha : u = pair.firstToken.identifier
    · rw [if_pos ha, if_pos ha, ha]
    · rw [if_neg ha, if_neg ha, List.append_nil]

/-- The product over a path grows with any of its positive factors. -/
private theorem prod_lt_prod {α : Type} {f g : α → ℕ} {l : List α} (hle : ∀ x ∈ l, f x ≤ g x)
    (hpos : ∀ x ∈ l, 0 < g x) (hlt : ∃ x ∈ l, f x < g x) : (l.map f).prod < (l.map g).prod := by
  induction l with
  | nil => simp at hlt
  | cons x l ih =>
    rw [List.map_cons, List.map_cons, List.prod_cons, List.prod_cons]
    rw [List.forall_mem_cons] at hle hpos
    have hle' : (l.map f).prod ≤ (l.map g).prod := List.prod_map_le_prod_map₀ f g
      (fun _ _ => Nat.zero_le _) hle.2
    have hpos' : 0 < (l.map g).prod := List.prod_pos fun n hn => by
      obtain ⟨y, hy, rfl⟩ := List.mem_map.mp hn
      exact hpos.2 y hy
    by_cases hx : f x < g x
    · exact Nat.mul_lt_mul_of_lt_of_le hx hle' hpos'
    · obtain ⟨y, hy, hlty⟩ := hlt
      have hyl : y ∈ l := by
        rcases List.mem_cons.mp hy with rfl | hyl
        · exact absurd hlty hx
        · exact hyl
      exact Nat.mul_lt_mul_of_le_of_lt hle.1 (ih hle.2 hpos.2 ⟨y, hyl, hlty⟩) hpos.1

/-- A path through the new pair is returned more often than before. -/
theorem count_lt_of_hop (h : IsTokenPath (old ++ [pair]) s d p)
    (hhop : ∃ e ∈ hops p, trades e.1 e.2 pair = true) :
    ((GraphService.new old).getAllPaths s d).count p
      < ((GraphService.new (old ++ [pair])).getAllPaths s d).count p := by
  have hcount : ∀ e : TokenID × TokenID, (old ++ [pair]).countP (trades e.1 e.2)
      = old.countP (trades e.1 e.2) + if trades e.1 e.2 pair then 1 else 0 := by
    intro e
    rw [List.countP_append, List.countP_singleton]
  have hpos : ∀ e ∈ hops p, 0 < (old ++ [pair]).countP (trades e.1 e.2) :=
    fun e he => List.countP_pos_iff.mpr (h.traded e he)
  rw [count_getAllPaths h]
  by_cases hold : IsTokenPath old s d p
  · rw [count_getAllPaths hold]
    refine prod_lt_prod (fun e _ => ?_) hpos ?_
    · rw [hcount]
      omega
    · obtain ⟨e, he, htrades⟩ := hhop
      refine ⟨e, he, ?_⟩
      rw [hcount, if_pos htrades]
      omega
  · rw [List.count_eq_zero_of_not_mem fun hmem => hold (isTokenPath_of_mem hmem)]
    refine List.prod_pos fun n hn => ?_
    obtain ⟨e, he, rfl⟩ := List.mem_map.mp hn
    exact hpos e he

/-- The list of an entry stays the same, order included, exactly if no path
goes through the new pair. -/
theorem getAllPaths_concat_eq_iff :
    (GraphService.new (old ++ [pair])).getAllPaths s d = (GraphService.new old).getAllPaths s d ↔
      ¬RoutedThrough old pair s d := by
  constructor
  · rintro heq ⟨p, hpath, hhop⟩
    have hlt := count_lt_of_hop hpath hhop
    rw [heq] at hlt
    exact lt_irrefl _ hlt
  · intro hnone
    -- one depth that is enough for both searches
    let fuel := (JsMap.keys (GraphService.new old).adjList).length
      + (JsMap.keys (GraphService.new (old ++ [pair])).adjList).length + 1
    have hsearch : ∀ pairs, (JsMap.keys (GraphService.new pairs).adjList).length < fuel →
        (GraphService.new pairs).getAllPaths s d
          = simplePaths (neighbours (GraphService.new pairs).adjList) d fuel [] s := by
      intro pairs hfuel
      have heq := getAllPathsFuel_eq pairs s d hfuel
      rw [getAllPathsFuel_eq_getAllPaths pairs s d hfuel] at heq
      exact Option.some.inj heq
    have hnew := hsearch (old ++ [pair]) (by omega)
    rw [hnew, hsearch old (by omega)]
    apply simplePaths_further (neighbours_concat old pair)
    intro p hp e he hmem
    rw [← hnew] at hp
    exact hnone ⟨p, isTokenPath_of_mem hp, e, he, mem_furtherNeighbours.mp hmem⟩

/-- A new path goes through the new pair. -/
theorem routedThrough_of_routesChange (h : RoutesChange old pair s d) :
    RoutedThrough old pair s d := by
  obtain ⟨p, hpath, hnew⟩ := routesChange_iff.mp h
  obtain ⟨e, he, htrades, -⟩ := exists_new_hop hpath hnew
  exact ⟨p, hpath, e, he, htrades⟩

/-- All tokens of the pairs are without dots. -/
def PlainPairs (pairs : List PairModel) : Prop :=
  ∀ pair ∈ pairs, PlainToken pair.firstToken.identifier ∧ PlainToken pair.secondToken.identifier

theorem PlainPairs.of_traded {pairs : List PairModel} (h : PlainPairs pairs)
    (htraded : Traded pairs u v) : PlainToken u := by
  obtain ⟨pair, hpair, htrades⟩ := htraded
  rcases trades_iff.mp htrades with ⟨rfl, -⟩ | ⟨rfl, -⟩
  · exact (h pair hpair).1
  · exact (h pair hpair).2

/-- Only routes between tokens of pairs go through a pair. -/
theorem PlainPairs.of_routedThrough (h : PlainPairs (old ++ [pair]))
    (hrouted : RoutedThrough old pair s d) : PlainToken s ∧ PlainToken d := by
  obtain ⟨p, hpath, ⟨u, v⟩, he, -⟩ := hrouted
  have hlen : 2 ≤ p.length := by
    obtain ⟨pre, post, rfl⟩ := mem_hops_iff.mp he
    simp
    omega
  obtain ⟨x, hx⟩ := exists_hop_head hpath.head hlen
  obtain ⟨y, hy⟩ := exists_hop_last hpath.last hlen
  exact ⟨h.of_traded (hpath.traded _ hx), h.of_traded (Traded.symm (hpath.traded _ hy))⟩

/-- What has to be missing for a fresh cache to be fresh after the event. -/
theorem fresh_deleteCacheKeys_iff {cache : RouteCache} {keys : List String}
    (hfresh : cache.Fresh old) :
    (cache.deleteCacheKeys keys).Fresh (old ++ [pair]) ↔
      ∀ s d, RoutedThrough old pair s d → cache.remoteCache (routeKey s d) = none ∧
        (cache.localCache (routeKey s d) = none ∨ routeKey s d ∈ keys) := by
  constructor
  · intro h s d hrouted
    have hne : (GraphService.new (old ++ [pair])).getAllPaths s d
        ≠ (GraphService.new old).getAllPaths s d :=
      fun heq => getAllPaths_concat_eq_iff.mp heq hrouted
    -- an entry that stays was right before and is not now
    refine ⟨?_, ?_⟩
    · by_contra hsome
      obtain ⟨routes, hroutes⟩ := Option.ne_none_iff_exists'.mp hsome
      exact hne ((h s d routes (Or.inr hroutes)).symm.trans (hfresh s d routes (Or.inr hroutes)))
    · by_contra hkept
      obtain ⟨hsome, hkey⟩ := not_or.mp hkept
      obtain ⟨routes, hroutes⟩ := Option.ne_none_iff_exists'.mp hsome
      have hlocal : (cache.deleteCacheKeys keys).localCache (routeKey s d) = some routes := by
        show (if _ then _ else _) = _
        rw [if_neg hkey, hroutes]
      exact hne ((h s d routes (Or.inl hlocal)).symm.trans (hfresh s d routes (Or.inl hroutes)))
  · intro h s d routes hroutes
    have hbefore : cache.localCache (routeKey s d) = some routes ∧ routeKey s d ∉ keys ∨
        cache.remoteCache (routeKey s d) = some routes := by
      refine hroutes.imp_left fun hlocal => ?_
      change (if routeKey s d ∈ keys then none else cache.localCache (routeKey s d)) = _ at hlocal
      split at hlocal
      next => exact absurd hlocal (by simp)
      next hkey => exact ⟨hlocal, hkey⟩
    rw [hfresh s d routes (hbefore.imp_left And.left)]
    refine (getAllPaths_concat_eq_iff.mpr fun hrouted => ?_).symm
    obtain ⟨hremote, hlocal⟩ := h s d hrouted
    rcases hbefore with ⟨hsome, hkey⟩ | hsome
    · exact hlocal.elim (fun hnone => by simp [hnone] at hsome) hkey
    · simp [hremote] at hsome

end Lists

/-! ## The cache after the event -/

/-- Every entry whose routes change is deleted, and no list that is left
differs from the new graph's. -/
def RoutesFollow (answers : RouterAnswers) (pair : PairModel) (cache : RouteCache) : Prop :=
  (∀ s d, RoutesChange (activePairs answers.listed) pair s d →
    routeKey s d ∈ (handleCreatePairEvent answers (createPairEvent pair)).deletedKeys) ∧
  (cache.deleteCacheKeys
    (handleCreatePairEvent answers (createPairEvent pair)).deletedKeys).Fresh
      (activePairs answers.listed ++ [pair])

/-- No list with a path through the pair is in the shared cache, nor in the
process's own unless it is one the handler looks for. -/
def NoStaleCopy (listed : List ListedPair) (pair : PairModel) (cache : RouteCache) : Prop :=
  ∀ s d, RoutedThrough (activePairs listed) pair s d →
    cache.remoteCache (routeKey s d) = none ∧
      (cache.localCache (routeKey s d) = none ∨ Deleted listed (createPairEvent pair) s d)

/-- **Routes after a new pair.** A cache that was fresh before the event is
what the new graph gives after it, and the handler deletes every entry whose
routes change, if the pair opens no route across and no list through the pair
is kept where the handler does not reach. With tokens that have no dots this
is also the only way. -/
theorem routes_follow_iff {answers : RouterAnswers} {pair : PairModel} {cache : RouteCache}
    (hfresh : cache.Fresh (activePairs answers.listed)) :
    (NoRouteAcross answers.listed pair ∧ NoStaleCopy answers.listed pair cache →
      RoutesFollow answers pair cache) ∧
    (PlainPairs (activePairs answers.listed ++ [pair]) → RoutesFollow answers pair cache →
      NoRouteAcross answers.listed pair ∧ NoStaleCopy answers.listed pair cache) := by
  constructor
  · rintro ⟨hacross, hstale⟩
    refine ⟨?_, (fresh_deleteCacheKeys_iff hfresh).mpr ?_⟩
    · intro s d hchange
      exact mem_deletedKeys_of (deleted_of_routesChange hacross hchange)
    · intro s d hrouted
      exact (hstale s d hrouted).imp_right (Or.imp_right mem_deletedKeys_of)
  · rintro hplain ⟨hdeleted, hafter⟩
    refine ⟨noRouteAcross_of_deleted ?_, ?_⟩
    · intro s d hchange
      obtain ⟨hs, hd⟩ := hplain.of_routedThrough (routedThrough_of_routesChange hchange)
      exact deleted_of_mem hs hd (hdeleted s d hchange)
    · intro s d hrouted
      obtain ⟨hs, hd⟩ := hplain.of_routedThrough hrouted
      have hcopies := (fresh_deleteCacheKeys_iff hfresh).mp hafter s d hrouted
      exact hcopies.imp_right (Or.imp_right (deleted_of_mem hs hd))

/-! ## A route from a token of one pair to a token of another -/

private def listedPair (address firstTokenID secondTokenID : String) : ListedPair where
  pair :=
    { address := address
      firstToken := ⟨firstTokenID, 18⟩
      secondToken := ⟨secondTokenID, 18⟩
      info := ⟨5000, 5000, 5000⟩
      totalFeePercent := Double.ofRat (3 / 1000) }
  state := "Active"

private def routerAnswers (listed : List ListedPair) : RouterAnswers where
  listed := listed
  pairsAddresses := listed.map fun entry => entry.pair.address
  getEsdtTokenType := fun _ => "Unlisted"
  commonTokens := ["WEGLD-bd4d79"]

private def newPair : PairModel := (listedPair "erd1pool3" "WEGLD-bd4d79" "USDC-c76f1f").pair

private def emptyRoutes : RouteCache := ⟨fun _ => none, fun _ => none⟩

private def mexWegld : List ListedPair := [listedPair "erd1pool1" "MEX-455c57" "WEGLD-bd4d79"]

/-- Routes from MEX have been asked for, to WEGLD and, when there was none, to USDC;
the shared copy of the second answer has expired. -/
private def askedRoutes : RouteCache :=
  let pairs := activePairs mexWegld
  let first := (getAllPaths pairs "MEX-455c57" "WEGLD-bd4d79" .initial emptyRoutes).2
  let second := (getAllPaths pairs "MEX-455c57" "USDC-c76f1f" first.1 first.2).2
  second.2.expireRemote (routeKey "MEX-455c57" "USDC-c76f1f")

private theorem plainToken_sample :
    PlainToken "MEX-455c57" ∧ PlainToken "WEGLD-bd4d79" ∧ PlainToken "USDC-c76f1f" := by
  unfold PlainToken
  decide

private theorem fresh_askedRoutes : askedRoutes.Fresh (activePairs mexWegld) := by
  obtain ⟨hmex, hwegld, husdc⟩ := plainToken_sample
  have hfirst : (getAllPaths (activePairs mexWegld) "MEX-455c57" "WEGLD-bd4d79" .initial
      emptyRoutes).2.2.Fresh (activePairs mexWegld) :=
    (getAllPaths_fresh rfl hmex hwegld RouteCache.fresh_empty).2
  exact (getAllPaths_fresh rfl hmex husdc hfirst).2.expireRemote _

/-- What is left in the cache: the first answer in both layers, the second in one. -/
private theorem askedRoutes_eq : askedRoutes =
    { localCache := Function.update
        (Function.update (fun _ => none) (routeKey "MEX-455c57" "WEGLD-bd4d79")
          (some [["MEX-455c57", "WEGLD-bd4d79"]]))
        (routeKey "MEX-455c57" "USDC-c76f1f") (some [])
      remoteCache := Function.update
        (Function.update (fun _ => none) (routeKey "MEX-455c57" "WEGLD-bd4d79")
          (some [["MEX-455c57", "WEGLD-bd4d79"]]))
        (routeKey "MEX-455c57" "USDC-c76f1f") none } := by
  have hkey : routeKey "MEX-455c57" "USDC-c76f1f" ≠ routeKey "MEX-455c57" "WEGLD-bd4d79" := by
    decide +kernel
  have hfirst : (getAllPaths (activePairs mexWegld) "MEX-455c57" "WEGLD-bd4d79" .initial
      emptyRoutes).2.2 = _ := getAllPaths_of_miss rfl rfl rfl
  have hwegld : (GraphService.new (activePairs mexWegld)).getAllPaths "MEX-455c57"
      "WEGLD-bd4d79" = [["MEX-455c57", "WEGLD-bd4d79"]] := by
    decide +kernel
  have husdc : (GraphService.new (activePairs mexWegld)).getAllPaths "MEX-455c57"
      "USDC-c76f1f" = [] := by
    decide +kernel
  unfold askedRoutes
  dsimp only
  rw [RouteCache.expireRemote, getAllPaths_of_miss rfl, hfirst, hwegld, husdc]
  · rw [Function.update_idem]
    rfl
  · rw [hfirst]
    dsimp only
    rw [Function.update_of_ne hkey]
    rfl
  · rw [hfirst]
    dsimp only
    rw [Function.update_of_ne hkey]
    rfl

/-- With MEX–WEGLD alone, the pair WEGLD–USDC opens no route across: that to WEGLD
is the same, and the missing one to USDC is deleted. -/
theorem routes_follow_wegldUsdc :
    askedRoutes.localCache (routeKey "MEX-455c57" "USDC-c76f1f") = some [] ∧
      RoutesFollow (routerAnswers mexWegld) newPair askedRoutes := by
  obtain ⟨hmex, hwegld, husdc⟩ := plainToken_sample
  have hsame : ¬RoutedThrough (activePairs mexWegld) newPair "MEX-455c57" "WEGLD-bd4d79" :=
    getAllPaths_concat_eq_iff.mp (by decide +kernel)
  have hknown : newPair.firstToken.identifier ∈ getUniqueTokenIDs true mexWegld := by decide
  have hacross : NoRouteAcross (routerAnswers mexWegld).listed newPair := by
    refine Or.inr (Or.inr ⟨Or.inl hknown, ?_⟩)
    intro x y _ _ hya _ _ hy
    -- no active pair has USDC
    obtain ⟨pair, hpair, htrades⟩ := hy
    rw [List.mem_singleton.mp hpair] at htrades
    exact absurd (trades_iff.mp htrades) (by simp [newPair, listedPair])
  have hfresh : askedRoutes.Fresh (activePairs (routerAnswers mexWegld).listed) :=
    fresh_askedRoutes
  have hstale : NoStaleCopy (routerAnswers mexWegld).listed newPair askedRoutes := by
    intro s d hrouted
    rw [askedRoutes_eq]
    dsimp only
    have hother : routeKey s d ≠ routeKey "MEX-455c57" "WEGLD-bd4d79" := by
      intro hkey
      obtain ⟨rfl, rfl⟩ := routeKey_inj hmex hwegld hkey
      exact hsame hrouted
    by_cases hkey : routeKey s d = routeKey "MEX-455c57" "USDC-c76f1f"
    · obtain ⟨rfl, rfl⟩ := routeKey_inj hmex husdc hkey
      exact ⟨Function.update_self _ _ _, Or.inr (by unfold Deleted; decide)⟩
    · rw [Function.update_of_ne hkey, Function.update_of_ne hkey, Function.update_of_ne hother]
      exact ⟨rfl, Or.inl rfl⟩
  have hlocal : askedRoutes.localCache (routeKey "MEX-455c57" "USDC-c76f1f") = some [] := by
    rw [askedRoutes_eq]
    dsimp only
    rw [Function.update_self]
  exact ⟨hlocal, (routes_follow_iff hfresh).1 ⟨hacross, hstale⟩⟩

/-- With USDC–RIDE in addition, the route from MEX to RIDE is new and its
entry is not deleted. -/
theorem mexToRide_kept :
    ¬RoutesFollow (routerAnswers [listedPair "erd1pool1" "MEX-455c57" "WEGLD-bd4d79",
      listedPair "erd1pool2" "USDC-c76f1f" "RIDE-7d18e9"]) newPair emptyRoutes := by
  rintro ⟨hdeleted, -⟩
  have hkey := hdeleted "MEX-455c57" "RIDE-7d18e9" ?_
  · have hmem := deleted_of_mem (by unfold PlainToken; decide) (by unfold PlainToken; decide) hkey
    exact absurd hmem (by unfold Deleted; decide)
  · refine routesChange_iff.mpr
      ⟨["MEX-455c57", "WEGLD-bd4d79", "USDC-c76f1f", "RIDE-7d18e9"], ⟨rfl, rfl, by decide, ?_⟩, ?_⟩
    · decide
    · intro h
      exact absurd (h.traded ("WEGLD-bd4d79", "USDC-c76f1f") (by simp [hops])) (by decide)

end MxExchange.RabbitMq
