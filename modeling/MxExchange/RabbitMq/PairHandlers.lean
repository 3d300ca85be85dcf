import MxExchange.Cache.WriteThrough
import MxExchange.Num.BigNumber

/-!
# `pair.handler.service.ts`, `pair.swap.handler.service.ts`, `pair.liquidity.handler.service.ts`

A swap and a change of liquidity leave the reserves of their pair in the
cache, once under a key of each reserve and once more, with the total
supply, in the record `pairInfoMetadata`. A swap does not carry the supply,
so the handler reads it and puts what it read in the record; and it does not
carry the reserves in the order of the pair but in that of the trade, so the
handler compares the token sold with the first token of the pair.

Both handlers read many other things on the way, through getters that leave
missing answers in the cache, and set prices and locked values. Which
getters they call does not matter here (`Reads`), only that a getter never
overwrites an entry (`KeepsEntries`). What the setters write is
spelled out, because they do overwrite.

`pairState_follows_events` is what the cache then stands for after any
sequence of events: the latest event of each pair.
-/

namespace MxExchange.RabbitMq

open MxExchange.Collections MxExchange.Cache MxExchange.Num

/-! ## What is cached -/

/-- A cached value: an amount, printed as a decimal, the record of a pair,
or anything else. -/
inductive CacheValue where
  | amount (x : BigNumber)
  | pairInfo (reserves0 reserves1 totalSupply : CacheValue)
  | other (json : String)
  deriving DecidableEq

/-- `new BigNumber(value)`. -/
def CacheValue.toBigNumber : CacheValue → BigNumber
  | amount x => x
  | _ => .nan

/-- The facts about a pair that its events change. -/
inductive PairFact where
  | firstTokenReserve
  | secondTokenReserve
  | totalSupply
  | pairInfoMetadata
  deriving DecidableEq

/-- The setter that a handler writes the fact with. -/
def PairFact.setter (pairAddress : Address) : PairFact → Setter
  | firstTokenReserve => .pair (.setFirstTokenReserve pairAddress)
  | secondTokenReserve => .pair (.setSecondTokenReserve pairAddress)
  | totalSupply => .pair (.setTotalSupply pairAddress)
  | pairInfoMetadata => .pair (.setPairInfoMetadata pairAddress)

/-- The getter that answers with it. -/
def PairFact.getter (pairAddress : Address) (fact : PairFact) : GetterCall :=
  (fact.setter pairAddress).getter

/-- The key it is cached under. -/
def PairFact.cacheKey (pairAddress : Address) (fact : PairFact) : String :=
  (fact.getter pairAddress).cacheKey

/-- The cache has this value of a fact. -/
def cachedFact (cache : CacheService CacheValue) (pairAddress : Address) (fact : PairFact) :
    Option CacheValue :=
  JsMap.get cache (fact.cacheKey pairAddress)

/-- A getter that finds its key in the cache leaves it there, and so do the
getters it calls when it does not. -/
def KeepsEntries {V : Type} (services : Services V) : Prop :=
  ∀ (g : GetterCall) (cache : CacheService V) (key : String) (value : V),
    JsMap.get cache key = some value →
      JsMap.get (services.originalMethod g cache).2 key = some value

/-! ## `pair.handler.service.ts` -/

/-- A pair as the router knows it. -/
structure PairMetadata where
  address : Address
  firstTokenID : TokenIdentifier
  secondTokenID : TokenIdentifier

/-- `updatePairReserves`; a supply that is not given is read. -/
def updatePairReserves (services : Services CacheValue) (pairAddress : Address)
    (firstTokenReserves secondTokenReserves : BigNumber) (totalSupply : Option BigNumber)
    (cache : CacheService CacheValue) : CacheService CacheValue :=
  let cache := (PairFact.firstTokenReserve.setter pairAddress).run
    (.amount firstTokenReserves) cache
  let cache := (PairFact.secondTokenReserve.setter pairAddress).run
    (.amount secondTokenReserves) cache
  let (supply, cache) := match totalSupply with
    | some totalSupply =>
      (.amount totalSupply,
        (PairFact.totalSupply.setter pairAddress).run (.amount totalSupply) cache)
    | none => getOrSet services (PairFact.totalSupply.getter pairAddress) cache
  (PairFact.pairInfoMetadata.setter pairAddress).run
    (.pairInfo (.amount firstTokenReserves) (.amount secondTokenReserves) supply) cache

/-- The `switch` over a pair: which of its reserves counts for the token. -/
def reserveOfToken (tokenID : TokenIdentifier) (pair : PairMetadata) : Option PairFact :=
  if tokenID = pair.firstTokenID then some .firstTokenReserve
  else if tokenID = pair.secondTokenID then some .secondTokenReserve
  else none

/-- One answer after the other, and the cache as they leave it. -/
def readReserves (services : Services CacheValue) (tokenID : TokenIdentifier) :
    List PairMetadata → CacheService CacheValue → List CacheValue × CacheService CacheValue
  | [], cache => ([], cache)
  | pair :: pairs, cache =>
    match reserveOfToken tokenID pair with
    | some fact =>
      let (value, cache) := getOrSet services (fact.getter pair.address) cache
      let (values, cache) := readReserves services tokenID pairs cache
      (value :: values, cache)
    | none => readReserves services tokenID pairs cache

/-- The reducer that sums locked values, from zero. -/
def sumAll (values : List BigNumber) : BigNumber := values.foldl BigNumber.plus (.fin 0)

/-- The sum of a token's reserves in all pairs, read one after the other. -/
def getTokenTotalLockedValue (services : Services CacheValue) (pairsMetadata : List PairMetadata)
    (tokenID : TokenIdentifier) (cache : CacheService CacheValue) :
    BigNumber × CacheService CacheValue :=
  let (allLockedValues, cache) := readReserves services tokenID pairsMetadata cache
  (sumAll (allLockedValues.map CacheValue.toBigNumber), cache)

/-! ## The two handlers -/

structure TokenAmount where
  tokenID : TokenIdentifier
  amount : BigNumber

/-- What a swap logs. -/
structure SwapEvent where
  address : Address
  tokenIn : TokenAmount
  tokenOut : TokenAmount
  tokenInReserves : BigNumber
  tokenOutReserves : BigNumber

/-- `AddLiquidityEvent`; removing liquidity is handled by the same method. -/
structure LiquidityEvent where
  address : Address
  firstToken : TokenAmount
  secondToken : TokenAmount
  firstTokenReserves : BigNumber
  secondTokenReserves : BigNumber
  liquidityPoolSupply : BigNumber

/-- The events that change the reserves of a pair. -/
inductive PairEvent where
  | swap (event : SwapEvent)
  | liquidity (event : LiquidityEvent)

def PairEvent.address : PairEvent → Address
  | swap event => event.address
  | liquidity event => event.address

/-- `pairService.getFirstToken` and `getSecondToken`: a pair never changes
its tokens. -/
structure PairService where
  getFirstToken : Address → TokenIdentifier
  getSecondToken : Address → TokenIdentifier

/-- The getters a handler calls in the stretches between its writes. -/
structure Reads where
  tokens : List GetterCall
  prices : List GetterCall
  firstDerived : List GetterCall
  secondDerived : List GetterCall

/-- What an event meets: the pairs the router knows of, what is read on the
way, and the values of what is set. -/
structure Surroundings where
  pairsMetadata : List PairMetadata
  reads : Reads
  prices : SwapPrices CacheValue
  firstTokenLockedValueUSD : CacheValue
  secondTokenLockedValueUSD : CacheValue
  totalLockedValueUSD : CacheValue

/-- Getters are called for what they leave in the cache. -/
def runReads (services : Services CacheValue) (reads : List GetterCall)
    (cache : CacheService CacheValue) : CacheService CacheValue :=
  reads.foldl (fun cache g => (getOrSet services g cache).2) cache

/-- What is returned for the ingestion, as far as it does not depend on
prices; `lockedValue` is that of the two tokens' entries. -/
structure HandledEvent where
  firstTokenLocked : BigNumber
  secondTokenLocked : BigNumber
  volumes : Option (BigNumber × BigNumber)
  liquidity : CacheValue
  lockedValue : JsMap TokenIdentifier BigNumber

/-- The handler of a swap, in the order of its writes and reads. -/
def handleSwapEvents (services : Services CacheValue) (pairService : PairService)
    (surroundings : Surroundings) (event : SwapEvent) (cache : CacheService CacheValue) :
    HandledEvent × CacheService CacheValue :=
  let firstToken := pairService.getFirstToken event.address
  let secondToken := pairService.getSecondToken event.address
  let cache := runReads services surroundings.reads.tokens cache
  let (firstTokenAmount, secondTokenAmount, firstTokenReserve, secondTokenReserve) :=
    if event.tokenIn.tokenID = firstToken then
      (event.tokenIn.amount, event.tokenOut.amount, event.tokenInReserves, event.tokenOutReserves)
    else
      (event.tokenOut.amount, event.tokenIn.amount, event.tokenOutReserves, event.tokenInReserves)
  let cache := updatePairReserves services event.address firstTokenReserve secondTokenReserve none
    cache
  let cache := runReads services surroundings.reads.prices cache
  let (liquidity, cache) := getOrSet services (PairFact.totalSupply.getter event.address) cache
  let (firstTotal, cache) :=
    getTokenTotalLockedValue services surroundings.pairsMetadata firstToken cache
  let (secondTotal, cache) :=
    getTokenTotalLockedValue services surroundings.pairsMetadata secondToken cache
  let prices := { surroundings.prices with
    pairAddress := event.address, firstTokenID := firstToken, secondTokenID := secondToken }
  let cache := runSetters (updatePairPrices prices) cache
  let cache := runReads services surroundings.reads.firstDerived cache
  let cache := runSetters (updateTokenPrices prices firstToken) cache
  let cache := runReads services surroundings.reads.secondDerived cache
  let cache := runSetters (updateTokenPrices prices secondToken) cache
  ({ firstTokenLocked := firstTokenReserve
     secondTokenLocked := secondTokenReserve
     volumes := some (firstTokenAmount, secondTokenAmount)
     liquidity
     lockedValue := JsMap.set (JsMap.set [] firstToken firstTotal) secondToken secondTotal }, cache)

/-- `RouterSetterService.setTotalLockedValueUSD`. -/
def setTotalLockedValueUSD (value : CacheValue) (cache : CacheService CacheValue) :
    CacheService CacheValue :=
  setData (getCacheKey "router" [.string "totalLockedValueUSD"]) value cache

/-- The handler of added or removed liquidity. -/
def handleLiquidityEvent (services : Services CacheValue) (surroundings : Surroundings)
    (event : LiquidityEvent) (cache : CacheService CacheValue) :
    HandledEvent × CacheService CacheValue :=
  let firstToken := event.firstToken.tokenID
  let secondToken := event.secondToken.tokenID
  let cache := updatePairReserves services event.address event.firstTokenReserves
    event.secondTokenReserves (some event.liquidityPoolSupply) cache
  let cache := runReads services surroundings.reads.prices cache
  let (firstTotal, cache) :=
    getTokenTotalLockedValue services surroundings.pairsMetadata firstToken cache
  let (secondTotal, cache) :=
    getTokenTotalLockedValue services surroundings.pairsMetadata secondToken cache
  let cache := runSetters
    [(.pair (.setFirstTokenLockedValueUSD event.address), surroundings.firstTokenLockedValueUSD),
      (.pair (.setSecondTokenLockedValueUSD event.address),
        surroundings.secondTokenLockedValueUSD)] cache
  let cache := setTotalLockedValueUSD surroundings.totalLockedValueUSD cache
  ({ firstTokenLocked := event.firstTokenReserves
     secondTokenLocked := event.secondTokenReserves
     volumes := none
     liquidity := .amount event.liquidityPoolSupply
     lockedValue := JsMap.set (JsMap.set [] firstToken firstTotal) secondToken secondTotal }, cache)

/-- Which handler an event goes to. -/
def handlePairEvent (services : Services CacheValue) (pairService : PairService)
    (event : PairEvent × Surroundings) (cache : CacheService CacheValue) :
    HandledEvent × CacheService CacheValue :=
  match event.1 with
  | .swap swap => handleSwapEvents services pairService event.2 swap cache
  | .liquidity liquidity => handleLiquidityEvent services event.2 liquidity cache

/-- The cache after the events, one after the other. -/
def cacheAfter (services : Services CacheValue) (pairService : PairService)
    (events : List (PairEvent × Surroundings)) (cache : CacheService CacheValue) :
    CacheService CacheValue :=
  events.foldl (fun cache event => (handlePairEvent services pairService event cache).2) cache

/-! ## What is cached stays cached -/

/-- No fact is lost or changed. -/
def KeepsFacts (cache cache' : CacheService CacheValue) : Prop :=
  ∀ pairAddress fact value, cachedFact cache pairAddress fact = some value →
    cachedFact cache' pairAddress fact = some value

section Facts

variable {services : Services CacheValue} {cache cache' cache'' : CacheService CacheValue}
  {a b : Address} {fact fact' : PairFact} {value : CacheValue}

theorem KeepsFacts.refl : KeepsFacts cache cache := fun _ _ _ h => h

theorem KeepsFacts.trans (h : KeepsFacts cache cache') (h' : KeepsFacts cache' cache'') :
    KeepsFacts cache cache'' := fun a fact value hget => h' a fact value (h a fact value hget)

/-- The method of `pair.abi.service.ts` that answers with the fact. -/
def PairFact.propertyKey : PairFact → String
  | firstTokenReserve => "firstTokenReserve"
  | secondTokenReserve => "secondTokenReserve"
  | totalSupply => "totalSupply"
  | pairInfoMetadata => "pairInfoMetadata"

theorem PairFact.getter_eq (a : Address) (fact : PairFact) :
    fact.getter a = .cached (pairCall fact.propertyKey a) := by
  cases fact <;> rfl

/-- A getter is about one fact of one pair. -/
theorem PairFact.getter_inj (h : fact.getter a = fact'.getter b) : a = b ∧ fact = fact' := by
  rw [fact.getter_eq, fact'.getter_eq, GetterCall.cached.injEq, pairCall, pairCall,
    CachedCall.mk.injEq] at h
  obtain ⟨-, hname, hargs, -⟩ := h
  constructor
  · obtain ⟨text, _, _⟩ := a
    obtain ⟨text', _, _⟩ := b
    simpa using hargs
  · cases fact <;> cases fact' <;> first | rfl | exact absurd hname (by decide)

/-- A setter writes where the getter reads. -/
theorem PairFact.cacheKey_setter (a : Address) (fact : PairFact) :
    (fact.setter a).cacheKey = fact.cacheKey a := by
  cases fact <;> rfl

/-- The getters are among those of the service. -/
theorem PairFact.getter_declared (a : Address) (fact : PairFact) : (fact.getter a).Declared :=
  (fact.setter a).getter_declared

/-- A setter of something else does not touch a fact. -/
theorem cachedFact_run_ne {s : Setter} (h : fact.getter a ≠ s.getter) :
    cachedFact (s.run value cache) a fact = cachedFact cache a fact :=
  JsMap.get_set_ne cache (cacheKey_ne (fact.getter_declared a) h) value

/-- A setter sets its fact. -/
theorem cachedFact_run_self :
    cachedFact ((fact.setter a).run value cache) a fact = some value := by
  unfold cachedFact Setter.run setData
  rw [PairFact.cacheKey_setter, JsMap.get_set_self]

/-- And leaves the others alone. -/
theorem cachedFact_run_of_ne (h : a ≠ b ∨ fact ≠ fact') :
    cachedFact ((fact'.setter b).run value cache) a fact = cachedFact cache a fact := by
  refine cachedFact_run_ne ?_
  intro heq
  obtain ⟨hab, hfact⟩ := PairFact.getter_inj (show fact.getter a = fact'.getter b from heq)
  exact h.elim (fun hne => hne hab) (fun hne => hne hfact)

/-- Setters of other things leave all facts alone. -/
theorem keepsFacts_runSetters {calls : List (Setter × CacheValue)}
    (h : ∀ call ∈ calls, ∀ a (fact : PairFact), fact.getter a ≠ call.1.getter) :
    KeepsFacts cache (runSetters calls cache) := by
  intro a fact value hget
  unfold cachedFact
  rw [get_runSetters, ← hget]
  · rfl
  · exact fun call hcall => cacheKey_ne (fact.getter_declared a) (h call hcall a fact)

/-! ### Getters -/

/-- Getters only add to the cache. -/
theorem keepsFacts_getOrSet (hkeeps : KeepsEntries services) (g : GetterCall)
    (cache : CacheService CacheValue) : KeepsFacts cache (getOrSet services g cache).2 := by
  intro a fact value hget
  unfold getOrSet
  split
  · exact hget
  next hmiss =>
    -- the getter's key was missing, so it is not the fact's
    have hne : fact.cacheKey a ≠ g.cacheKey := by
      intro heq
      rw [cachedFact, heq, hmiss] at hget
      cases hget
    show JsMap.get (JsMap.set _ g.cacheKey _) (fact.cacheKey a) = some value
    rw [JsMap.get_set_ne _ hne]
    exact hkeeps g cache _ value hget

/-- What a getter answers is cached afterwards. -/
theorem cachedFact_getOrSet : cachedFact (getOrSet services (fact.getter a) cache).2 a fact =
    some (getOrSet services (fact.getter a) cache).1 :=
  get_of_getOrSet rfl

/-- A getter answers with what is cached. -/
theorem getOrSet_of_cachedFact (h : cachedFact cache a fact = some value) :
    getOrSet services (fact.getter a) cache = (value, cache) :=
  getOrSet_of_get h

theorem keepsFacts_runReads (hkeeps : KeepsEntries services) (reads : List GetterCall)
    (cache : CacheService CacheValue) : KeepsFacts cache (runReads services reads cache) := by
  unfold runReads
  induction reads generalizing cache with
  | nil => exact .refl
  | cons g reads ih => exact (keepsFacts_getOrSet hkeeps g cache).trans (ih _)

end Facts

/-! ## What one event does -/

/-- The reserves and the supply of a pair are these, in both representations. -/
structure PairCached (cache : CacheService CacheValue) (pairAddress : Address)
    (reserves0 reserves1 : BigNumber) (supply : CacheValue) : Prop where
  firstTokenReserve : cachedFact cache pairAddress .firstTokenReserve = some (.amount reserves0)
  secondTokenReserve : cachedFact cache pairAddress .secondTokenReserve = some (.amount reserves1)
  totalSupply : cachedFact cache pairAddress .totalSupply = some supply
  pairInfoMetadata : cachedFact cache pairAddress .pairInfoMetadata =
    some (.pairInfo (.amount reserves0) (.amount reserves1) supply)

/-- A cached reserve as an amount. -/
def cachedReserve (cache : CacheService CacheValue) (pairAddress : Address) (fact : PairFact) :
    BigNumber :=
  ((cachedFact cache pairAddress fact).map CacheValue.toBigNumber).getD .nan

/-- The cached reserves of a token, over the pairs that list it. -/
def tokenReserves (cache : CacheService CacheValue) (pairs : List PairMetadata)
    (tokenID : TokenIdentifier) : List BigNumber :=
  pairs.flatMap fun pair =>
    (if pair.firstTokenID = tokenID then [cachedReserve cache pair.address .firstTokenReserve]
      else []) ++
    (if pair.secondTokenID = tokenID then [cachedReserve cache pair.address .secondTokenReserve]
      else [])

section Event

variable {services : Services CacheValue} {pairService : PairService}
  {surroundings : Surroundings} {cache cache' : CacheService CacheValue} {a b : Address}
  {reserves0 reserves1 : BigNumber} {totalSupply : Option BigNumber} {supply value : CacheValue}
  {pairs : List PairMetadata} {tokenID : TokenIdentifier} {fact : PairFact}

/-- What keeps the facts of a pair keeps the pair. -/
theorem PairCached.frame (h : PairCached cache a reserves0 reserves1 supply)
    (hkeeps : ∀ fact value, cachedFact cache a fact = some value →
      cachedFact cache' a fact = some value) :
    PairCached cache' a reserves0 reserves1 supply where
  firstTokenReserve := hkeeps _ _ h.firstTokenReserve
  secondTokenReserve := hkeeps _ _ h.secondTokenReserve
  totalSupply := hkeeps _ _ h.totalSupply
  pairInfoMetadata := hkeeps _ _ h.pairInfoMetadata

theorem PairCached.keeps (h : PairCached cache a reserves0 reserves1 supply)
    (hkeeps : KeepsFacts cache cache') : PairCached cache' a reserves0 reserves1 supply :=
  h.frame fun _ _ => hkeeps _ _ _

/-- The supply is the one given, or the one that is cached. -/
theorem updatePairReserves_pairCached (hkeeps : KeepsEntries services) (a : Address)
    (reserves0 reserves1 : BigNumber) (totalSupply : Option BigNumber)
    (cache : CacheService CacheValue) :
    ∃ supply, PairCached
        (updatePairReserves services a reserves0 reserves1 totalSupply cache) a
        reserves0 reserves1 supply ∧
      (∀ given, totalSupply = some given → supply = .amount given) ∧
      (totalSupply = none → ∀ value, cachedFact cache a .totalSupply = some value →
        supply = value) := by
  let cache₁ := (PairFact.firstTokenReserve.setter a).run (.amount reserves0) cache
  let cache₂ := (PairFact.secondTokenReserve.setter a).run (.amount reserves1) cache₁
  have hfirst : cachedFact cache₂ a .firstTokenReserve = some (.amount reserves0) := by
    rw [cachedFact_run_of_ne (Or.inr (by decide)), cachedFact_run_self]
  have hsecond : cachedFact cache₂ a .secondTokenReserve = some (.amount reserves1) :=
    cachedFact_run_self
  -- the record is written last, over a cache with the other three
  have hrecord : ∀ cache₃ supply, cachedFact cache₃ a .firstTokenReserve =
        some (.amount reserves0) →
      cachedFact cache₃ a .secondTokenReserve = some (.amount reserves1) →
      cachedFact cache₃ a .totalSupply = some supply →
      PairCached ((PairFact.pairInfoMetadata.setter a).run
        (.pairInfo (.amount reserves0) (.amount reserves1) supply) cache₃) a
        reserves0 reserves1 supply := by
    intro cache₃ supply h₁ h₂ h₃
    refine ⟨?_, ?_, ?_, cachedFact_run_self⟩
    · rw [cachedFact_run_of_ne (Or.inr (by decide)), h₁]
    · rw [cachedFact_run_of_ne (Or.inr (by decide)), h₂]
    · rw [cachedFact_run_of_ne (Or.inr (by decide)), h₃]
  cases totalSupply with
  | some given =>
    refine ⟨.amount given, hrecord _ _ ?_ ?_ cachedFact_run_self, ?_, by simp⟩
    · rw [cachedFact_run_of_ne (Or.inr (by decide)), hfirst]
    · rw [cachedFact_run_of_ne (Or.inr (by decide)), hsecond]
    · intro given' heq
      rw [Option.some.inj heq]
  | none =>
    have hread := keepsFacts_getOrSet hkeeps (PairFact.totalSupply.getter a) cache₂
    refine ⟨(getOrSet services (PairFact.totalSupply.getter a) cache₂).1,
      hrecord _ _ (hread _ _ _ hfirst) (hread _ _ _ hsecond) cachedFact_getOrSet, by simp, ?_⟩
    intro _ value hvalue
    have hcached : cachedFact cache₂ a .totalSupply = some value := by
      rw [cachedFact_run_of_ne (Or.inr (by decide)), cachedFact_run_of_ne (Or.inr (by decide)),
        hvalue]
    rw [getOrSet_of_cachedFact hcached]

/-- Other pairs are left alone. -/
theorem updatePairReserves_frame (hkeeps : KeepsEntries services) (hne : b ≠ a)
    (h : cachedFact cache b fact = some value) :
    cachedFact (updatePairReserves services a reserves0 reserves1 totalSupply cache) b fact =
      some value := by
  have hset : ∀ cache (fact' : PairFact) set, cachedFact cache b fact = some value →
      cachedFact ((fact'.setter a).run set cache) b fact = some value := by
    intro cache fact' set hcache
    rw [cachedFact_run_of_ne (Or.inl hne), hcache]
  have hreserves := hset _ .secondTokenReserve (.amount reserves1)
    (hset _ .firstTokenReserve (.amount reserves0) h)
  refine hset _ .pairInfoMetadata _ ?_
  cases totalSupply with
  | some given => exact hset _ .totalSupply _ hreserves
  | none => exact keepsFacts_getOrSet hkeeps _ _ _ _ _ hreserves

/-! ### The total of a token -/

/-- Reading reserves adds to the cache and changes nothing. -/
theorem readReserves_keeps (hkeeps : KeepsEntries services) :
    KeepsFacts cache (readReserves services tokenID pairs cache).2 := by
  induction pairs generalizing cache with
  | nil => exact .refl
  | cons pair pairs ih =>
    unfold readReserves
    cases reserveOfToken tokenID pair with
    | none => exact ih
    | some fact => exact (keepsFacts_getOrSet hkeeps _ _).trans ih

/-- What is summed is what is cached, then and as long as it is kept. -/
theorem readReserves_eq (hkeeps : KeepsEntries services)
    (hdistinct : ∀ pair ∈ pairs, pair.firstTokenID ≠ pair.secondTokenID)
    (hlater : KeepsFacts (readReserves services tokenID pairs cache).2 cache') :
    (readReserves services tokenID pairs cache).1.map CacheValue.toBigNumber =
      tokenReserves cache' pairs tokenID := by
  induction pairs generalizing cache with
  | nil => rfl
  | cons pair pairs ih =>
    have hrest := fun pair' h => hdistinct pair' (List.mem_cons_of_mem pair h)
    have hpair := hdistinct pair (by simp)
    -- one answer, cached from now on
    have hone : ∀ fact : PairFact,
        KeepsFacts (getOrSet services (fact.getter pair.address) cache).2 cache' →
        cachedReserve cache' pair.address fact =
          (getOrSet services (fact.getter pair.address) cache).1.toBigNumber := by
      intro fact hlater'
      rw [cachedReserve, hlater' _ _ _ cachedFact_getOrSet]
      rfl
    unfold readReserves at hlater ⊢
    rw [tokenReserves, List.flatMap_cons, ← tokenReserves]
    unfold reserveOfToken at hlater ⊢
    by_cases hfirst : tokenID = pair.firstTokenID
    · have hsecond : pair.secondTokenID ≠ tokenID := fun h => hpair (hfirst.symm.trans h.symm)
      rw [if_pos hfirst] at hlater ⊢
      rw [if_pos hfirst.symm, if_neg hsecond, hone _ ((readReserves_keeps hkeeps).trans hlater),
        ← ih hrest hlater]
      rfl
    · rw [if_neg hfirst] at hlater ⊢
      rw [if_neg (Ne.symm hfirst)]
      by_cases hsecond : tokenID = pair.secondTokenID
      · rw [if_pos hsecond] at hlater ⊢
        rw [if_pos hsecond.symm, hone _ ((readReserves_keeps hkeeps).trans hlater),
          ← ih hrest hlater]
        rfl
      · rw [if_neg hsecond] at hlater ⊢
        rw [if_neg (Ne.symm hsecond), ← ih hrest hlater]
        rfl

theorem getTokenTotalLockedValue_keeps (hkeeps : KeepsEntries services) :
    KeepsFacts cache (getTokenTotalLockedValue services pairs tokenID cache).2 :=
  readReserves_keeps hkeeps

/-- The sum is that of the reserves as they are cached from then on. -/
theorem getTokenTotalLockedValue_eq (hkeeps : KeepsEntries services)
    (hdistinct : ∀ pair ∈ pairs, pair.firstTokenID ≠ pair.secondTokenID)
    (hlater : KeepsFacts (getTokenTotalLockedValue services pairs tokenID cache).2 cache') :
    (getTokenTotalLockedValue services pairs tokenID cache).1 =
      sumAll (tokenReserves cache' pairs tokenID) :=
  congrArg sumAll (readReserves_eq hkeeps hdistinct hlater)

/-! ### The other setters -/

/-- Setters of prices and values: a method of the pair that answers with no
fact, or one of a token. -/
theorem keepsFacts_otherSetters {calls : List (Setter × CacheValue)}
    (h : ∀ call ∈ calls, ∃ getter, call.1.getter = .cached getter ∧
      (getter.baseKey ≠ "pair" ∨ getter.propertyKey ∉
        ["firstTokenReserve", "secondTokenReserve", "totalSupply", "pairInfoMetadata"])) :
    KeepsFacts cache (runSetters calls cache) := by
  refine keepsFacts_runSetters ?_
  intro call hcall a fact heq
  obtain ⟨getter, hgetter, hother⟩ := h call hcall
  rw [hgetter, fact.getter_eq, GetterCall.cached.injEq] at heq
  rw [← heq] at hother
  rcases hother with hbase | hname
  · exact hbase rfl
  · exact hname (by cases fact <;> simp [pairCall, PairFact.propertyKey])

/-- None of the price setters is about a fact. -/
theorem keepsFacts_updatePairPrices (prices : SwapPrices CacheValue)
    (cache : CacheService CacheValue) :
    KeepsFacts cache (runSetters (updatePairPrices prices) cache) := by
  refine keepsFacts_otherSetters ?_
  intro call hcall
  simp only [updatePairPrices, List.mem_cons, List.not_mem_nil, or_false] at hcall
  rcases hcall with rfl | rfl | rfl | rfl
  · exact ⟨pairCall "firstTokenPrice" _, rfl, Or.inr (by show "firstTokenPrice" ∉ _; decide)⟩
  · exact ⟨pairCall "secondTokenPrice" _, rfl, Or.inr (by show "secondTokenPrice" ∉ _; decide)⟩
  · exact ⟨pairCall "firstTokenPriceUSD" _, rfl,
      Or.inr (by show "firstTokenPriceUSD" ∉ _; decide)⟩
  · exact ⟨pairCall "secondTokenPriceUSD" _, rfl,
      Or.inr (by show "secondTokenPriceUSD" ∉ _; decide)⟩

theorem keepsFacts_updateTokenPrices (prices : SwapPrices CacheValue) (tokenID : TokenIdentifier)
    (cache : CacheService CacheValue) :
    KeepsFacts cache (runSetters (updateTokenPrices prices tokenID) cache) := by
  refine keepsFacts_otherSetters ?_
  intro call hcall
  have htoken : ("token" : String) ≠ "pair" := by decide
  simp only [updateTokenPrices, List.mem_cons, List.not_mem_nil, or_false] at hcall
  rcases hcall with rfl | rfl
  · exact ⟨tokenCall "tokenPriceDerivedEGLD" tokenID, rfl, Or.inl htoken⟩
  · exact ⟨tokenCall "tokenPriceDerivedUSD" tokenID, rfl, Or.inl htoken⟩

theorem keepsFacts_lockedValues (address : Address) (first second : CacheValue)
    (cache : CacheService CacheValue) :
    KeepsFacts cache (runSetters [(.pair (.setFirstTokenLockedValueUSD address), first),
      (.pair (.setSecondTokenLockedValueUSD address), second)] cache) := by
  refine keepsFacts_otherSetters ?_
  intro call hcall
  simp only [List.mem_cons, List.not_mem_nil, or_false] at hcall
  rcases hcall with rfl | rfl
  · exact ⟨pairCall "firstTokenLockedValueUSD" address, rfl,
      Or.inr (by show "firstTokenLockedValueUSD" ∉ _; decide)⟩
  · exact ⟨pairCall "secondTokenLockedValueUSD" address, rfl,
      Or.inr (by show "secondTokenLockedValueUSD" ∉ _; decide)⟩

theorem keepsFacts_setTotalLockedValueUSD :
    KeepsFacts cache (setTotalLockedValueUSD value cache) := by
  intro a fact v hget
  have hrouter : ∀ arg ∈ [CacheArg.string "router", .string "totalLockedValueUSD"], arg.Plain := by
    intro arg harg
    simp only [List.mem_cons, List.not_mem_nil, or_false] at harg
    rcases harg with rfl | rfl <;> unfold CacheArg.Plain <;> decide
  have hne : fact.cacheKey a ≠ getCacheKey "router" [.string "totalLockedValueUSD"] := by
    intro heq
    have hparts := params_text_eq (fact.getter_declared a) (List.cons_ne_nil _ _) hrouter heq
    rw [fact.getter_eq] at hparts
    have hbase : ("pair" : String) = "router" := (List.cons.inj hparts).1
    exact absurd hbase (by decide)
  show JsMap.get (JsMap.set cache _ value) _ = some v
  rw [JsMap.get_set_ne _ hne]
  exact hget

end Event

/-! ## What an event says -/

/-- The reserves of a token, as the event carries them. -/
def PairEvent.reserveOf (tokenID : TokenIdentifier) : PairEvent → BigNumber
  | swap event =>
    if event.tokenIn.tokenID = tokenID then event.tokenInReserves else event.tokenOutReserves
  | liquidity event =>
    if event.firstToken.tokenID = tokenID then event.firstTokenReserves
    else event.secondTokenReserves

/-- The supply after the event, if it changes the supply. -/
def PairEvent.liquidityPoolSupply : PairEvent → Option BigNumber
  | swap _ => none
  | liquidity event => some event.liquidityPoolSupply

/-- An event of a pair of two different tokens is about these: a swap sells
one for the other, a change of liquidity names them in their order. -/
def PairEvent.Fits (pairService : PairService) : PairEvent → Prop
  | swap event =>
    pairService.getFirstToken event.address ≠ pairService.getSecondToken event.address ∧
      ((event.tokenIn.tokenID = pairService.getFirstToken event.address ∧
          event.tokenOut.tokenID = pairService.getSecondToken event.address) ∨
        (event.tokenIn.tokenID = pairService.getSecondToken event.address ∧
          event.tokenOut.tokenID = pairService.getFirstToken event.address))
  | liquidity event =>
    pairService.getFirstToken event.address ≠ pairService.getSecondToken event.address ∧
      event.firstToken.tokenID = pairService.getFirstToken event.address ∧
      event.secondToken.tokenID = pairService.getSecondToken event.address

/-- What a handler makes of the cache, and what it says about it. -/
structure Handled (services : Services CacheValue) (pairs : List PairMetadata)
    (pairAddress : Address) (reserves0 reserves1 : BigNumber) (totalSupply : Option BigNumber)
    (cache : CacheService CacheValue) (result : HandledEvent × CacheService CacheValue) :
    Prop where
  update : ∃ cache₁, KeepsFacts cache cache₁ ∧ KeepsFacts
    (updatePairReserves services pairAddress reserves0 reserves1 totalSupply cache₁) result.2
  liquidity : cachedFact result.2 pairAddress .totalSupply = some result.1.liquidity
  lockedValue : (∀ pair ∈ pairs, pair.firstTokenID ≠ pair.secondTokenID) →
    ∀ tokenID total, JsMap.get result.1.lockedValue tokenID = some total →
      total = sumAll (tokenReserves result.2 pairs tokenID)

section Handlers

variable {services : Services CacheValue} {pairService : PairService}
  {surroundings : Surroundings} {cache : CacheService CacheValue}

/-- The totals of the two tokens, read one after the other. -/
theorem lockedValue_eq {cache' : CacheService CacheValue} {pairs : List PairMetadata}
    {firstToken secondToken : TokenIdentifier} (hkeeps : KeepsEntries services)
    (hdistinct : ∀ pair ∈ pairs, pair.firstTokenID ≠ pair.secondTokenID)
    (hlater : KeepsFacts (getTokenTotalLockedValue services pairs secondToken
      (getTokenTotalLockedValue services pairs firstToken cache).2).2 cache')
    {tokenID : TokenIdentifier} {total : BigNumber}
    (h : JsMap.get (JsMap.set (JsMap.set []
        firstToken (getTokenTotalLockedValue services pairs firstToken cache).1)
        secondToken (getTokenTotalLockedValue services pairs secondToken
          (getTokenTotalLockedValue services pairs firstToken cache).2).1) tokenID = some total) :
    total = sumAll (tokenReserves cache' pairs tokenID) := by
  rw [JsMap.get_set, JsMap.get_set] at h
  split at h
  next heq =>
    rw [← Option.some.inj h, heq]
    exact getTokenTotalLockedValue_eq hkeeps hdistinct hlater
  next =>
    split at h
    next heq =>
      rw [← Option.some.inj h, heq]
      exact getTokenTotalLockedValue_eq hkeeps hdistinct
        ((getTokenTotalLockedValue_keeps hkeeps).trans hlater)
    next => cases h

/-- Both sums together. -/
theorem totalLockedValues_keep (hkeeps : KeepsEntries services) {pairs : List PairMetadata}
    {firstToken secondToken : TokenIdentifier} :
    KeepsFacts cache (getTokenTotalLockedValue services pairs secondToken
      (getTokenTotalLockedValue services pairs firstToken cache).2).2 :=
  (getTokenTotalLockedValue_keeps hkeeps).trans (getTokenTotalLockedValue_keeps hkeeps)

/-- The prices that a swap sets, with what it reads between them. -/
theorem swapPrices_keep (hkeeps : KeepsEntries services) {reads : Reads}
    {prices : SwapPrices CacheValue} {firstToken secondToken : TokenIdentifier} :
    KeepsFacts cache (runSetters (updateTokenPrices prices secondToken)
      (runReads services reads.secondDerived (runSetters (updateTokenPrices prices firstToken)
        (runReads services reads.firstDerived (runSetters (updatePairPrices prices) cache))))) := by
  have hpair := keepsFacts_updatePairPrices prices cache
  have hfirst := (hpair.trans (keepsFacts_runReads hkeeps reads.firstDerived _)).trans
    (keepsFacts_updateTokenPrices prices firstToken _)
  exact (hfirst.trans (keepsFacts_runReads hkeeps reads.secondDerived _)).trans
    (keepsFacts_updateTokenPrices prices secondToken _)

/-- The locked values that a change of liquidity sets. -/
theorem liquidityValues_keep {address : Address} {first second total : CacheValue} :
    KeepsFacts cache (setTotalLockedValueUSD total
      (runSetters [(.pair (.setFirstTokenLockedValueUSD address), first),
        (.pair (.setSecondTokenLockedValueUSD address), second)] cache)) :=
  (keepsFacts_lockedValues address first second cache).trans keepsFacts_setTotalLockedValueUSD

/-- The branch that a swap takes, with the reserves as the event carries them. -/
theorem swap_oriented {event : SwapEvent} (hfits : (PairEvent.swap event).Fits pairService) :
    ∃ x y, (if event.tokenIn.tokenID = pairService.getFirstToken event.address then
        (event.tokenIn.amount, event.tokenOut.amount, event.tokenInReserves,
          event.tokenOutReserves)
      else
        (event.tokenOut.amount, event.tokenIn.amount, event.tokenOutReserves,
          event.tokenInReserves)) =
      (x, y, (PairEvent.swap event).reserveOf (pairService.getFirstToken event.address),
        (PairEvent.swap event).reserveOf (pairService.getSecondToken event.address)) := by
  obtain ⟨hne, htokens⟩ := hfits
  unfold PairEvent.reserveOf
  dsimp only
  rcases htokens with ⟨hin, -⟩ | ⟨hin, -⟩
  · rw [if_pos hin, if_pos hin, if_neg (by rw [hin]; exact hne)]
    exact ⟨_, _, rfl⟩
  · rw [if_neg (by rw [hin]; exact hne.symm), if_neg (by rw [hin]; exact hne.symm), if_pos hin]
    exact ⟨_, _, rfl⟩

/-- A swap: the reserves are put in the order of the pair. -/
theorem handled_swap (hkeeps : KeepsEntries services) {event : SwapEvent}
    (hfits : (PairEvent.swap event).Fits pairService) :
    Handled services surroundings.pairsMetadata event.address
      ((PairEvent.swap event).reserveOf (pairService.getFirstToken event.address))
      ((PairEvent.swap event).reserveOf (pairService.getSecondToken event.address)) none cache
      (handleSwapEvents services pairService surroundings event cache) := by
  obtain ⟨x, y, horiented⟩ := swap_oriented hfits
  unfold handleSwapEvents
  dsimp only
  rw [horiented]
  dsimp only
  have hprices := keepsFacts_runReads hkeeps surroundings.reads.prices
  refine ⟨⟨_, keepsFacts_runReads hkeeps surroundings.reads.tokens cache, ?_⟩, ?_, ?_⟩
  · exact (((hprices _).trans (keepsFacts_getOrSet hkeeps _ _)).trans
      (totalLockedValues_keep hkeeps)).trans (swapPrices_keep hkeeps)
  · exact ((totalLockedValues_keep hkeeps).trans (swapPrices_keep hkeeps)) _ _ _
      cachedFact_getOrSet
  · intro hdistinct tokenID total h
    exact lockedValue_eq hkeeps hdistinct (swapPrices_keep hkeeps) h

/-- Liquidity carries the supply, and the tokens in the order of the pair. -/
theorem handled_liquidity (hkeeps : KeepsEntries services) {event : LiquidityEvent}
    (hfits : (PairEvent.liquidity event).Fits pairService) :
    Handled services surroundings.pairsMetadata event.address
      ((PairEvent.liquidity event).reserveOf (pairService.getFirstToken event.address))
      ((PairEvent.liquidity event).reserveOf (pairService.getSecondToken event.address))
      (some event.liquidityPoolSupply) cache
      (handleLiquidityEvent services surroundings event cache) := by
  obtain ⟨hne, hfirst, hsecond⟩ := hfits
  have hreserve0 : (PairEvent.liquidity event).reserveOf
      (pairService.getFirstToken event.address) = event.firstTokenReserves := if_pos hfirst
  have hreserve1 : (PairEvent.liquidity event).reserveOf
      (pairService.getSecondToken event.address) = event.secondTokenReserves :=
    if_neg (by rw [hfirst]; exact hne)
  rw [hreserve0, hreserve1]
  have hprices := keepsFacts_runReads hkeeps surroundings.reads.prices
  obtain ⟨supply, hcached, hgiven, -⟩ := updatePairReserves_pairCached hkeeps
    event.address event.firstTokenReserves event.secondTokenReserves
    (some event.liquidityPoolSupply) cache
  rw [hgiven _ rfl] at hcached
  unfold handleLiquidityEvent
  dsimp only
  refine ⟨⟨cache, .refl, ?_⟩, ?_, ?_⟩
  · exact ((hprices _).trans (totalLockedValues_keep hkeeps)).trans liquidityValues_keep
  · exact (((hprices _).trans (totalLockedValues_keep hkeeps)).trans liquidityValues_keep) _ _ _
      hcached.totalSupply
  · intro hdistinct tokenID total h
    exact lockedValue_eq hkeeps hdistinct liquidityValues_keep h

/-- A handler answers with a locked value of each of the two tokens. -/
theorem lockedValue_ne_none {event : PairEvent × Surroundings} (hfits : event.1.Fits pairService)
    {tokenID : TokenIdentifier} (htoken : tokenID = pairService.getFirstToken event.1.address ∨
      tokenID = pairService.getSecondToken event.1.address) :
    JsMap.get (handlePairEvent services pairService event cache).1.lockedValue tokenID ≠ none := by
  have hset : ∀ (a b : TokenIdentifier) (x y : BigNumber), tokenID = a ∨ tokenID = b →
      JsMap.get (JsMap.set (JsMap.set [] a x) b y) tokenID ≠ none := by
    intro a b x y h
    rw [← JsMap.mem_keys_iff, JsMap.mem_keys_set, JsMap.mem_keys_set]
    exact h.symm.imp id Or.inl
  obtain ⟨event, surroundings⟩ := event
  cases event with
  | swap swap => exact hset _ _ _ _ htoken
  | liquidity liquidity =>
    -- the event's own tokens are set, and these are the pair's
    obtain ⟨-, hfirst, hsecond⟩ := hfits
    exact hset _ _ _ _ (htoken.imp (·.trans hfirst.symm) (·.trans hsecond.symm))

/-- Either handler does what it is to. -/
theorem handled_event (hkeeps : KeepsEntries services) {event : PairEvent × Surroundings}
    (hfits : event.1.Fits pairService) (cache : CacheService CacheValue) :
    Handled services event.2.pairsMetadata event.1.address
      (event.1.reserveOf (pairService.getFirstToken event.1.address))
      (event.1.reserveOf (pairService.getSecondToken event.1.address))
      event.1.liquidityPoolSupply cache (handlePairEvent services pairService event cache) := by
  obtain ⟨event, surroundings⟩ := event
  cases event with
  | swap swap => exact handled_swap hkeeps hfits
  | liquidity liquidity => exact handled_liquidity hkeeps hfits

variable {pairs : List PairMetadata} {a b : Address} {reserves0 reserves1 : BigNumber}
  {totalSupply : Option BigNumber} {result : HandledEvent × CacheService CacheValue}

/-- Afterwards the pair is cached as the event has it. -/
theorem Handled.pairCached (hkeeps : KeepsEntries services)
    (h : Handled services pairs a reserves0 reserves1 totalSupply cache result) :
    PairCached result.2 a reserves0 reserves1 result.1.liquidity ∧
      (∀ given, totalSupply = some given → result.1.liquidity = .amount given) ∧
      (totalSupply = none → ∀ value, cachedFact cache a .totalSupply = some value →
        result.1.liquidity = value) := by
  obtain ⟨cache₁, hbefore, hafter⟩ := h.update
  obtain ⟨supply, hcached, hgiven, hread⟩ := updatePairReserves_pairCached hkeeps a reserves0
    reserves1 totalSupply cache₁
  have hcached := hcached.keeps hafter
  have hsupply : supply = result.1.liquidity :=
    Option.some.inj (hcached.totalSupply.symm.trans h.liquidity)
  rw [hsupply] at hcached hgiven hread
  exact ⟨hcached, hgiven, fun hnone value hvalue => hread hnone value (hbefore _ _ _ hvalue)⟩

/-- Other pairs keep what is cached of them. -/
theorem Handled.frame (hkeeps : KeepsEntries services)
    (h : Handled services pairs a reserves0 reserves1 totalSupply cache result) (hne : b ≠ a)
    {fact : PairFact} {value : CacheValue} (hvalue : cachedFact cache b fact = some value) :
    cachedFact result.2 b fact = some value := by
  obtain ⟨cache₁, hbefore, hafter⟩ := h.update
  exact hafter _ _ _ (updatePairReserves_frame hkeeps hne (hbefore _ _ _ hvalue))

end Handlers

/-! ## Runs -/

/-- The events of a pair, in their order. -/
def eventsOf (pairAddress : Address) (events : List (PairEvent × Surroundings)) :
    List PairEvent :=
  (events.map Prod.fst).filter fun event => event.address = pairAddress

/-- The supplies they carry. -/
def suppliesOf (pairAddress : Address) (events : List (PairEvent × Surroundings)) :
    List BigNumber :=
  (eventsOf pairAddress events).filterMap PairEvent.liquidityPoolSupply

section Runs

variable {services : Services CacheValue} {pairService : PairService}
  {cache : CacheService CacheValue} {events : List (PairEvent × Surroundings)}
  {event : PairEvent × Surroundings} {a : Address} {latest : PairEvent}

/-- The last event is handled last. -/
theorem cacheAfter_concat : cacheAfter services pairService (events ++ [event]) cache =
    (handlePairEvent services pairService event
      (cacheAfter services pairService events cache)).2 := by
  simp [cacheAfter, List.foldl_append]

/-- The last event of a pair. -/
theorem eventsOf_concat_self (h : event.1.address = a) :
    eventsOf a (events ++ [event]) = eventsOf a events ++ [event.1] := by
  simp [eventsOf, h]

/-- Events of other pairs do not count. -/
theorem eventsOf_concat_ne (h : event.1.address ≠ a) :
    eventsOf a (events ++ [event]) = eventsOf a events := by
  simp [eventsOf, h]

/-- The supply of the last event, if it carries one. -/
theorem suppliesOf_concat_self (h : event.1.address = a) :
    suppliesOf a (events ++ [event]) =
      suppliesOf a events ++ event.1.liquidityPoolSupply.toList := by
  rw [suppliesOf, eventsOf_concat_self h, List.filterMap_append]
  cases hsupply : event.1.liquidityPoolSupply <;> simp [suppliesOf, hsupply]

/-- A pair without events keeps what is cached about it. -/
theorem cachedFact_cacheAfter (hkeeps : KeepsEntries services)
    (hfits : ∀ event ∈ events, event.1.Fits pairService) (hnone : eventsOf a events = [])
    {fact : PairFact} {value : CacheValue} (h : cachedFact cache a fact = some value) :
    cachedFact (cacheAfter services pairService events cache) a fact = some value := by
  induction events using List.reverseRecOn with
  | nil => exact h
  | append_singleton events event ih =>
    have hne : event.1.address ≠ a := by
      intro heq
      rw [eventsOf_concat_self heq] at hnone
      exact absurd hnone (by simp)
    rw [eventsOf_concat_ne hne] at hnone
    rw [cacheAfter_concat]
    exact (handled_event hkeeps (hfits event (by simp)) _).frame hkeeps hne.symm
      (ih (fun e he => hfits e (List.mem_append_left _ he)) hnone)

/-- Where a supply comes from: the latest event that carries one, or else
what the first event of the pair read, which is what was cached before. -/
def SupplyFollows (services : Services CacheValue) (pairService : PairService)
    (events : List (PairEvent × Surroundings)) (cache : CacheService CacheValue) (a : Address)
    (supply : CacheValue) : Prop :=
  (∀ given, (suppliesOf a events).getLast? = some given → supply = .amount given) ∧
  (suppliesOf a events = [] → ∃ pre event post, events = pre ++ event :: post ∧
    event.1.address = a ∧ eventsOf a pre = [] ∧
    supply = (handlePairEvent services pairService event
      (cacheAfter services pairService pre cache)).1.liquidity ∧
    ∀ value, cachedFact cache a .totalSupply = some value → supply = value)

/-- An event without a supply changes nothing about where it comes from. -/
theorem SupplyFollows.concat (h : SupplyFollows services pairService events cache a supply)
    (hsame : suppliesOf a (events ++ [event]) = suppliesOf a events) :
    SupplyFollows services pairService (events ++ [event]) cache a supply := by
  refine ⟨fun given => by rw [hsame]; exact h.1 given, ?_⟩
  intro hnone
  obtain ⟨pre, first, post, rfl, hrest⟩ := h.2 (hsame ▸ hnone)
  exact ⟨pre, first, post ++ [event], by simp, hrest⟩

/-- An event with a supply gives it. -/
theorem SupplyFollows.of_given {given : BigNumber} (hself : event.1.address = a)
    (hsupply : event.1.liquidityPoolSupply = some given) :
    SupplyFollows services pairService (events ++ [event]) cache a (.amount given) := by
  have hsupplies : suppliesOf a (events ++ [event]) = suppliesOf a events ++ [given] := by
    rw [suppliesOf_concat_self hself, hsupply]
    rfl
  refine ⟨?_, by simp [hsupplies]⟩
  intro given' hlast
  rw [hsupplies, List.getLast?_concat] at hlast
  rw [Option.some.inj hlast]

/-- The pair's first event: what it reads was cached before all. -/
theorem SupplyFollows.of_first (hself : event.1.address = a)
    (hsupply : event.1.liquidityPoolSupply = none) (hfirst : eventsOf a events = [])
    (hread : ∀ value, cachedFact cache a .totalSupply = some value →
      (handlePairEvent services pairService event
        (cacheAfter services pairService events cache)).1.liquidity = value) :
    SupplyFollows services pairService (events ++ [event]) cache a
      (handlePairEvent services pairService event
        (cacheAfter services pairService events cache)).1.liquidity := by
  have hempty : suppliesOf a (events ++ [event]) = [] := by
    rw [suppliesOf_concat_self hself, hsupply, suppliesOf, hfirst]
    rfl
  refine ⟨by simp [hempty], ?_⟩
  intro _
  exact ⟨events, event, [], rfl, hself, hfirst, rfl, hread⟩

/-- The latest event of a pair decides its reserves. -/
theorem pairCached_latest (hkeeps : KeepsEntries services)
    (hfits : ∀ event ∈ events, event.1.Fits pairService)
    (hlatest : (eventsOf a events).getLast? = some latest) :
    ∃ supply, PairCached (cacheAfter services pairService events cache) a
        (latest.reserveOf (pairService.getFirstToken a))
        (latest.reserveOf (pairService.getSecondToken a)) supply ∧
      SupplyFollows services pairService events cache a supply := by
  induction events using List.reverseRecOn generalizing latest with
  | nil => simp [eventsOf] at hlatest
  | append_singleton events event ih =>
    have hfits' : ∀ e ∈ events, e.1.Fits pairService :=
      fun e he => hfits e (List.mem_append_left _ he)
    have hhandled := handled_event hkeeps (hfits event (by simp))
      (cacheAfter services pairService events cache)
    by_cases hself : event.1.address = a
    · rw [eventsOf_concat_self hself, List.getLast?_concat] at hlatest
      obtain rfl := Option.some.inj hlatest
      obtain ⟨hcached, hgiven, hread⟩ := hhandled.pairCached hkeeps
      rw [← cacheAfter_concat, hself] at hcached
      refine ⟨_, hcached, ?_⟩
      cases hsupply : event.1.liquidityPoolSupply with
      | some given =>
        rw [hgiven given hsupply]
        exact SupplyFollows.of_given hself hsupply
      | none =>
        cases hbefore : (eventsOf a events).getLast? with
        | some before =>
          -- the supply of the events before is cached, and was read
          obtain ⟨supply, hcached', hfollows⟩ := ih hfits' hbefore
          rw [hread hsupply supply (by rw [hself]; exact hcached'.totalSupply)]
          refine hfollows.concat ?_
          rw [suppliesOf_concat_self hself, hsupply]
          simp
        | none =>
          have hfirst : eventsOf a events = [] := List.getLast?_eq_none_iff.mp hbefore
          refine SupplyFollows.of_first hself hsupply hfirst ?_
          intro value hvalue
          refine hread hsupply value ?_
          rw [hself]
          exact cachedFact_cacheAfter hkeeps hfits' hfirst hvalue
    · rw [eventsOf_concat_ne hself] at hlatest
      obtain ⟨supply, hcached, hfollows⟩ := ih hfits' hlatest
      rw [cacheAfter_concat]
      refine ⟨supply, ?_, hfollows.concat ?_⟩
      · exact hcached.frame fun _ _ => hhandled.frame hkeeps (Ne.symm hself)
      · rw [suppliesOf, eventsOf_concat_ne hself, suppliesOf]

end Runs

/-- After any sequence of events, from any cache: the reserves and the record
of a pair are those of its latest event, the supply is the latest that an
event carried, and what was emitted last as the locked value of a token is
the sum of what is cached; for both tokens of the pair there is one. -/
theorem pairState_follows_events (services : Services CacheValue)
    (hkeeps : KeepsEntries services) (pairService : PairService)
    (cache : CacheService CacheValue) (events : List (PairEvent × Surroundings))
    (hfits : ∀ event ∈ events, event.1.Fits pairService) :
    (∀ a latest, (eventsOf a events).getLast? = some latest →
      ∃ supply, PairCached (cacheAfter services pairService events cache) a
          (latest.reserveOf (pairService.getFirstToken a))
          (latest.reserveOf (pairService.getSecondToken a)) supply ∧
        (∀ given, (suppliesOf a events).getLast? = some given → supply = .amount given) ∧
        (suppliesOf a events = [] → ∃ pre event post, events = pre ++ event :: post ∧
          event.1.address = a ∧ eventsOf a pre = [] ∧
          supply = (handlePairEvent services pairService event
            (cacheAfter services pairService pre cache)).1.liquidity ∧
          ∀ value, cachedFact cache a .totalSupply = some value → supply = value)) ∧
    ∀ pre event, events = pre ++ [event] →
      (∀ tokenID, (tokenID = pairService.getFirstToken event.1.address ∨
          tokenID = pairService.getSecondToken event.1.address) →
        ∃ total, JsMap.get (handlePairEvent services pairService event
          (cacheAfter services pairService pre cache)).1.lockedValue tokenID = some total) ∧
      ((∀ pair ∈ event.2.pairsMetadata, pair.firstTokenID ≠ pair.secondTokenID) →
        ∀ tokenID total,
          JsMap.get (handlePairEvent services pairService event
            (cacheAfter services pairService pre cache)).1.lockedValue tokenID = some total →
          total = sumAll (tokenReserves (cacheAfter services pairService events cache)
            event.2.pairsMetadata tokenID)) := by
  refine ⟨fun a latest hlatest => pairCached_latest hkeeps hfits hlatest, ?_⟩
  rintro pre event rfl
  have hfit : event.1.Fits pairService := hfits event (by simp)
  refine ⟨fun tokenID htoken => Option.ne_none_iff_exists'.mp (lockedValue_ne_none hfit htoken),
    ?_⟩
  intro hdistinct tokenID total htotal
  rw [cacheAfter_concat]
  exact (handled_event hkeeps hfit _).lockedValue hdistinct tokenID total htotal

/-! ## Two events -/

def utkToken : TokenIdentifier where
  text := "UTK-2f80e9"
  dash := by decide
  plain := by decide

def wegldToken : TokenIdentifier where
  text := "WEGLD-a28c59"
  dash := by decide
  plain := by decide

def utkPair : Address where
  text := "erd1utkwegld"
  hrp := by decide
  plain := by decide

/-- Methods that would all answer nothing. -/
def silentServices : Services CacheValue where
  originalMethod := fun _ cache => (.other "null", cache)
  readsThroughGetters := fun _ _ _ _ _ => rfl

/-- A router with one pair. -/
def utkService : PairService where
  getFirstToken := fun _ => utkToken
  getSecondToken := fun _ => wegldToken

def utkSurroundings : Surroundings where
  pairsMetadata := [⟨utkPair, utkToken, wegldToken⟩]
  reads := ⟨[], [], [], []⟩
  prices := ⟨utkPair, utkToken, wegldToken, .other "", .other "", .other "", .other "",
    fun _ => .other "", fun _ => .other ""⟩
  firstTokenLockedValueUSD := .other ""
  secondTokenLockedValueUSD := .other ""
  totalLockedValueUSD := .other ""

/-- Liquidity is added, and then some of the second token is sold. -/
def utkEvents : List (PairEvent × Surroundings) :=
  [(.liquidity ⟨utkPair, ⟨utkToken, .fin 100⟩, ⟨wegldToken, .fin 10⟩, .fin 100, .fin 10,
      .fin 50⟩, utkSurroundings),
    (.swap ⟨utkPair, ⟨wegldToken, .fin 10⟩, ⟨utkToken, .fin 50⟩, .fin 20, .fin 50⟩,
      utkSurroundings)]

theorem pairState_follows_utkEvents :
    PairCached (cacheAfter silentServices utkService utkEvents []) utkPair (.fin 50) (.fin 20)
      (.amount (.fin 50)) := by
  have hkeeps : KeepsEntries silentServices := fun _ _ _ _ h => h
  have hne : utkToken ≠ wegldToken := by decide
  have hfits : ∀ event ∈ utkEvents, event.1.Fits utkService := by
    intro event hevent
    simp only [utkEvents, List.mem_cons, List.not_mem_nil, or_false] at hevent
    rcases hevent with rfl | rfl
    · exact ⟨hne, rfl, rfl⟩
    · exact ⟨hne, Or.inr ⟨rfl, rfl⟩⟩
  obtain ⟨supply, hcached, hsupply, -⟩ := (pairState_follows_events silentServices hkeeps
    utkService [] utkEvents hfits).1 utkPair _ rfl
  rw [hsupply (.fin 50) rfl] at hcached
  exact hcached

end MxExchange.RabbitMq
