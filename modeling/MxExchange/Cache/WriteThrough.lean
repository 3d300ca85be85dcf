import MxExchange.Cache.Setters

/-!
# Writing through the cache

The cache is a map from keys to values, and nothing expires. A getter
answers from it, or computes its answer and leaves it there; a setter
overwrites one key.

A setter writes through (`WritesThrough`) when afterwards its getter answers
with the value set, and any other getter with what it answered before. It
does so if it writes the key its getter reads, and otherwise only where the
getter answered with that very value already: `writesThrough_iff`. Of the
setters of a token's derived prices neither does, so after a swap event the
getters go on answering with the old prices
(`handleSwapEvents_derivedPrices_iff`).
-/

namespace MxExchange.Cache

open MxExchange.Collections

/-- `cachingService`: what is cached under which key. -/
abbrev CacheService (V : Type) := JsMap String V

/-- What the methods behind the getters compute, from whatever they like.
Of the cache they see what other getters answer, and they may leave more
answers there. -/
structure Services (V : Type) where
  originalMethod : GetterCall → CacheService V → V × CacheService V
  readsThroughGetters : ∀ (g : GetterCall) (cache : CacheService V) (key : String) (value : V),
    (∀ g' : GetterCall, g'.Declared → g'.cacheKey ≠ key) →
    (originalMethod g (JsMap.set cache key value)).1 = (originalMethod g cache).1

/-- `cachingService.getOrSet`: the answer, and the cache afterwards. -/
def getOrSet {V : Type} (services : Services V) (g : GetterCall) (cache : CacheService V) :
    V × CacheService V :=
  match JsMap.get cache g.cacheKey with
  | some value => (value, cache)
  | none =>
    -- the getters called on the way have left their answers in `cache'`
    let (value, cache') := services.originalMethod g cache
    (value, JsMap.set cache' g.cacheKey value)

/-- `GenericSetterService.setData`. -/
def setData {V : Type} (cacheKey : String) (value : V) (cache : CacheService V) : CacheService V :=
  JsMap.set cache cacheKey value

/-- A setter sets one entry. -/
def Setter.run {V : Type} (setter : Setter) (value : V) (cache : CacheService V) : CacheService V :=
  setData setter.cacheKey value cache

section WriteThrough

variable {V : Type} {services : Services V} {cache cache' : CacheService V} {s : Setter}
  {g : GetterCall} {value : V}

/-- An answer stays in the cache. -/
theorem get_of_getOrSet (h : getOrSet services g cache = (value, cache')) :
    JsMap.get cache' g.cacheKey = some value := by
  unfold getOrSet at h
  split at h
  next v hget =>
    obtain ⟨rfl, rfl⟩ := Prod.mk.inj h
    exact hget
  next =>
    obtain ⟨rfl, rfl⟩ := Prod.mk.inj h
    exact JsMap.get_set_self _ _ _

/-- A cached value is answered, and nothing changes. -/
theorem getOrSet_of_get (h : JsMap.get cache g.cacheKey = some value) :
    getOrSet services g cache = (value, cache) := by
  unfold getOrSet
  rw [h]

/-- A key that is no getter's does not show. -/
theorem getOrSet_lost {key : String} (hkey : ∀ g : GetterCall, g.Declared → g.cacheKey ≠ key)
    (hg : g.Declared) :
    (getOrSet services g (JsMap.set cache key value)).1 = (getOrSet services g cache).1 := by
  unfold getOrSet
  rw [JsMap.get_set_ne _ (hkey g hg)]
  split
  · rfl
  · exact services.readsThroughGetters g cache key value hkey

/-- The setter's getter answers with the value set; any other getter that
had answered before answers the same. -/
structure WritesThrough (services : Services V) (cache : CacheService V) (s : Setter) (value : V) :
    Prop where
  same : (getOrSet services s.getter (s.run value cache)).1 = value
  others : ∀ g : GetterCall, g.Declared → g ≠ s.getter → ∀ before cache',
    getOrSet services g cache = (before, cache') →
      (getOrSet services g (s.run value cache')).1 = before

/-- No setter writes another getter's key. -/
theorem cacheKey_ne (hg : g.Declared) (hne : g ≠ s.getter) : g.cacheKey ≠ s.cacheKey := by
  cases hwrites : s.writesGetterKey with
  | true => exact fun heq => hne (Setter.cacheKey_inj hwrites hg heq)
  | false => exact lostKey_ne hwrites hg

/-- A setter does not change what other getters answer. -/
theorem setter_others (hg : g.Declared) (hne : g ≠ s.getter) {before : V}
    (h : getOrSet services g cache = (before, cache')) :
    (getOrSet services g (s.run value cache')).1 = before := by
  have hget : JsMap.get (s.run value cache') g.cacheKey = some before := by
    show JsMap.get (JsMap.set cache' s.cacheKey value) g.cacheKey = some before
    rw [JsMap.get_set_ne _ (cacheKey_ne hg hne)]
    exact get_of_getOrSet h
  rw [getOrSet_of_get hget]

/-- Whether the setter's getter sees the value. -/
theorem setter_same_iff : (getOrSet services s.getter (s.run value cache)).1 = value ↔
    s.writesGetterKey = true ∨ (getOrSet services s.getter cache).1 = value := by
  cases hwrites : s.writesGetterKey with
  | true =>
    have hget : JsMap.get (s.run value cache) s.getter.cacheKey = some value := by
      rw [← Setter.cacheKey_eq hwrites]
      exact JsMap.get_set_self _ _ _
    rw [getOrSet_of_get hget]
    simp
  | false =>
    have hlost := @getOrSet_lost _ services cache _ value _
      (fun g hg => lostKey_ne hwrites hg) s.getter_declared
    show (getOrSet services s.getter (JsMap.set cache s.cacheKey value)).1 = value ↔ _
    rw [hlost]
    simp

end WriteThrough

/-! ## `pair.swap.handler.service.ts` -/

/-- The prices a swap event ends with: the pair's, and each token's as
recomputed. -/
structure SwapPrices (V : Type) where
  pairAddress : Address
  firstTokenID : TokenIdentifier
  secondTokenID : TokenIdentifier
  firstTokenPrice : V
  secondTokenPrice : V
  firstTokenPriceUSD : V
  secondTokenPriceUSD : V
  tokenPriceDerivedEGLD : TokenIdentifier → V
  tokenPriceDerivedUSD : TokenIdentifier → V

/-- Setters called one after the other. -/
def runSetters {V : Type} (calls : List (Setter × V)) (cache : CacheService V) :
    CacheService V :=
  calls.foldl (fun cache call => call.1.run call.2 cache) cache

/-- The setters of `updatePairPrices`, in their order. -/
def updatePairPrices {V : Type} (prices : SwapPrices V) : List (Setter × V) :=
  [(.pair (.setFirstTokenPrice prices.pairAddress), prices.firstTokenPrice),
    (.pair (.setSecondTokenPrice prices.pairAddress), prices.secondTokenPrice),
    (.pair (.setFirstTokenPriceUSD prices.pairAddress), prices.firstTokenPriceUSD),
    (.pair (.setSecondTokenPriceUSD prices.pairAddress), prices.secondTokenPriceUSD)]

/-- The setters of `updateTokenPrices`. -/
def updateTokenPrices {V : Type} (prices : SwapPrices V) (tokenID : TokenIdentifier) :
    List (Setter × V) :=
  [(.token (.setDerivedEGLD tokenID), prices.tokenPriceDerivedEGLD tokenID),
    (.token (.setDerivedUSD tokenID), prices.tokenPriceDerivedUSD tokenID)]

/-- What `handleSwapEvents` does to the cache at its end. -/
def handleSwapEvents {V : Type} (prices : SwapPrices V) (cache : CacheService V) :
    CacheService V :=
  runSetters (updatePairPrices prices ++ updateTokenPrices prices prices.firstTokenID ++
    updateTokenPrices prices prices.secondTokenID) cache

/-- The getters of a token's derived prices have the recomputed ones. -/
def DerivedPricesCached {V : Type} (prices : SwapPrices V) (cache : CacheService V) : Prop :=
  ∀ tokenID ∈ [prices.firstTokenID, prices.secondTokenID],
    JsMap.get cache (tokenCall "tokenPriceDerivedEGLD" tokenID).cacheKey =
        some (prices.tokenPriceDerivedEGLD tokenID) ∧
      JsMap.get cache (tokenCall "tokenPriceDerivedUSD" tokenID).cacheKey =
        some (prices.tokenPriceDerivedUSD tokenID)

section SwapEvents

variable {V : Type} {services : Services V} {cache : CacheService V} {prices : SwapPrices V}
  {calls : List (Setter × V)} {key : String}

/-- Entries that no setter writes stay. -/
theorem get_runSetters (h : ∀ call ∈ calls, key ≠ call.1.cacheKey) :
    JsMap.get (runSetters calls cache) key = JsMap.get cache key := by
  unfold runSetters
  induction calls generalizing cache with
  | nil => rfl
  | cons call calls ih =>
    rw [List.foldl_cons, ih (fun c hc => h c (List.mem_cons_of_mem _ hc))]
    exact JsMap.get_set_ne cache (h call (by simp)) call.2

/-- The four setters of the pair's prices have pair getters. -/
theorem updatePairPrices_getter {call : Setter × V} (h : call ∈ updatePairPrices prices) :
    ∃ getter : CachedCall, call.1.getter = .cached getter ∧ getter.baseKey = "pair" := by
  simp only [updatePairPrices, List.mem_cons, List.not_mem_nil, or_false] at h
  rcases h with rfl | rfl | rfl | rfl
  · exact ⟨_, rfl, rfl⟩
  · exact ⟨_, rfl, rfl⟩
  · exact ⟨_, rfl, rfl⟩
  · exact ⟨_, rfl, rfl⟩

/-- No setter of token prices writes the key of its getter. -/
theorem updateTokenPrices_lost {call : Setter × V} {tokenID : TokenIdentifier}
    (h : call ∈ updateTokenPrices prices tokenID) : call.1.writesGetterKey = false := by
  simp only [updateTokenPrices, List.mem_cons, List.not_mem_nil, or_false] at h
  rcases h with rfl | rfl
  · rfl
  · rfl

/-- The derived prices are written where nobody looks: what was cached for a
token stays. -/
theorem get_handleSwapEvents_token {call : CachedCall} (hcall : call.Declared)
    (htoken : call.baseKey = "token") :
    JsMap.get (handleSwapEvents prices cache) call.cacheKey = JsMap.get cache call.cacheKey := by
  refine get_runSetters ?_
  intro write hwrite
  have hg : (GetterCall.cached call).Declared := hcall
  rcases List.mem_append.mp hwrite with hwrite | hsecond
  · rcases List.mem_append.mp hwrite with hpair | hfirst
    · -- a key of the pair's getters, and the call is none of them
      obtain ⟨getter, hgetter, hbase⟩ := updatePairPrices_getter hpair
      refine cacheKey_ne hg ?_
      intro heq
      have hsame : call = getter := GetterCall.cached.inj (heq.trans hgetter)
      rw [hsame, hbase] at htoken
      exact absurd htoken (by decide)
    · exact lostKey_ne (updateTokenPrices_lost hfirst) hg
  · exact lostKey_ne (updateTokenPrices_lost hsecond) hg

/-- After a swap event the derived prices are as fresh as they were before. -/
theorem handleSwapEvents_derivedPrices_iff :
    DerivedPricesCached prices (handleSwapEvents prices cache) ↔
      DerivedPricesCached prices cache := by
  unfold DerivedPricesCached
  refine forall_congr' fun tokenID => imp_congr_right fun _ => ?_
  have hEGLD : (tokenCall "tokenPriceDerivedEGLD" tokenID).Declared :=
    tokenCall_declared tokenID (by decide)
  have hUSD : (tokenCall "tokenPriceDerivedUSD" tokenID).Declared :=
    tokenCall_declared tokenID (by decide)
  rw [get_handleSwapEvents_token hEGLD rfl, get_handleSwapEvents_token hUSD rfl]

end SwapEvents

/-- A setter writes through exactly if it writes the key its getter reads,
or if the getter answered with that value already. And a swap event leaves
the recomputed prices of its tokens cached exactly if they were before. -/
theorem writesThrough_iff {V : Type} (services : Services V) (cache : CacheService V) :
    (∀ (s : Setter) (value : V), WritesThrough services cache s value ↔
      s.writesGetterKey = true ∨ (getOrSet services s.getter cache).1 = value) ∧
    ∀ prices : SwapPrices V, DerivedPricesCached prices (handleSwapEvents prices cache) ↔
      DerivedPricesCached prices cache := by
  constructor
  · intro s value
    rw [← setter_same_iff]
    exact ⟨WritesThrough.same, fun hsame => ⟨hsame, fun g hg hne before cache' h =>
      setter_others hg hne h⟩⟩
  · exact fun prices => handleSwapEvents_derivedPrices_iff

/-! ## A stale price -/

def sampleToken : TokenIdentifier where
  text := "MEX-455c57"
  dash := by decide
  plain := by decide

/-- Methods that would all answer `0`. -/
def sampleServices : Services String where
  originalMethod := fun _ cache => ("0", cache)
  readsThroughGetters := fun _ _ _ _ _ => rfl

/-- The getter has been called when the price was `1`. -/
def staleCache : CacheService String := [("token.tokenPriceDerivedEGLD.MEX-455c57", "1")]

/-- The price is set to `2`, under a key of its own; the getter says `1`. -/
theorem setDerivedEGLD_stale :
    (Setter.token (.setDerivedEGLD sampleToken)).cacheKey =
      "token.MEX-455c57.[\"derivedEGLD\"]" ∧
    (getOrSet sampleServices (.cached (tokenCall "tokenPriceDerivedEGLD" sampleToken))
      ((Setter.token (.setDerivedEGLD sampleToken)).run "2" staleCache)).1 = "1" ∧
    ¬WritesThrough sampleServices staleCache (.token (.setDerivedEGLD sampleToken)) "2" := by
  refine ⟨by decide +kernel, by decide +kernel, ?_⟩
  intro h
  exact absurd h.same (by decide +kernel)

end MxExchange.Cache
