import MxExchange.Cache.CachedMethods

/-!
# The setter services of tokens, pairs and the fees collector

Event handlers and cache warmers put fresh values in the cache under keys
that the setters build themselves. `PairSetterService` and
`FeesCollectorSetterService` use `getCacheKey`, base key first;
`TokenSetterService` spells most keys out and builds the others with
`getTokenCacheKey`, whose rest parameter arrives at
`generateCacheKeyFromParams` as one array and is printed as such.

Each setter has a getter of the same quantity (`Setter.getter`). Six setters
write where that getter does not look (`Setter.writesGetterKey`), and where
no other getter looks either (`lostKey_ne`): what they write is never read.
The others write exactly the getter's key (`Setter.cacheKey_eq`).
-/

namespace MxExchange.Cache

open MxExchange.Collections

/-! ## `pair.setter.service.ts` -/

/-- The setters of `pair.setter.service.ts`, by what identifies the entry. -/
inductive PairSetterService where
  | setFirstTokenID (pairAddress : Address)
  | setSecondTokenID (pairAddress : Address)
  | setLpTokenID (pairAddress : Address)
  | setTotalFeePercent (pairAddress : Address)
  | setSpecialFeePercent (pairAddress : Address)
  | setState (pairAddress : Address)
  | setFeeState (pairAddress : Address)
  | setFirstTokenReserve (pairAddress : Address)
  | setSecondTokenReserve (pairAddress : Address)
  | setTotalSupply (pairAddress : Address)
  | setPairInfoMetadata (pairAddress : Address)
  | setFirstTokenPrice (pairAddress : Address)
  | setSecondTokenPrice (pairAddress : Address)
  | setFirstTokenPriceUSD (pairAddress : Address)
  | setSecondTokenPriceUSD (pairAddress : Address)
  | setTokenPriceUSD (tokenID : TokenIdentifier)
  | setLpTokenPriceUSD (pairAddress : Address)
  | setFirstTokenLockedValueUSD (pairAddress : Address)
  | setSecondTokenLockedValueUSD (pairAddress : Address)
  | setLockedValueUSD (pairAddress : Address)
  | setFirstTokenVolume (pairAddress : Address) (time : TimeSpan)
  | setSecondTokenVolume (pairAddress : Address) (time : TimeSpan)
  | setVolumeUSD (pairAddress : Address) (time : TimeSpan)
  | setFeesUSD (pairAddress : Address) (time : TimeSpan)
  | setFeesAPR (pairAddress : Address)
  | setType (pairAddress : Address)
  | setRouterAddress (pairAddress : Address)
  | setWhitelistedAddresses (pairAddress : Address)
  | setFeeDestinations (pairAddress : Address)
  | setFeesCollectorAddress (pairAddress : Address)
  | setFeesCollectorCutPercentage (pairAddress : Address)
  | setHasFarms (pairAddress : Address)
  | setHasDualFarms (pairAddress : Address)
  | setTradesCount (pairAddress : Address)
  | setDeployedAt (pairAddress : Address)

/-- `GenericSetterService.getCacheKey`, for a setter with the given base key. -/
def getCacheKey (baseKey : String) (args : List CacheArg) : String :=
  generateCacheKeyFromParams (.string baseKey :: args)

/-- `getCacheKey(name, pairAddress)`. -/
def pairKey (name : String) (pairAddress : Address) : String :=
  getCacheKey "pair" [.string name, .string pairAddress.text]

/-- `getCacheKey(name, pairAddress, time)`. -/
def pairTimeKey (name : String) (pairAddress : Address) (time : TimeSpan) : String :=
  getCacheKey "pair" [.string name, .string pairAddress.text, .string time.text]

/-- The key that the setter writes. -/
def PairSetterService.cacheKey : PairSetterService → String
  | setFirstTokenID pairAddress => pairKey "firstTokenID" pairAddress
  | setSecondTokenID pairAddress => pairKey "secondTokenID" pairAddress
  | setLpTokenID pairAddress => pairKey "lpTokenID" pairAddress
  | setTotalFeePercent pairAddress => pairKey "totalFeePercent" pairAddress
  | setSpecialFeePercent pairAddress => pairKey "specialFeePercent" pairAddress
  | setState pairAddress => pairKey "state" pairAddress
  | setFeeState pairAddress => pairKey "feeState" pairAddress
  | setFirstTokenReserve pairAddress => pairKey "firstTokenReserve" pairAddress
  | setSecondTokenReserve pairAddress => pairKey "secondTokenReserve" pairAddress
  | setTotalSupply pairAddress => pairKey "totalSupply" pairAddress
  | setPairInfoMetadata pairAddress => pairKey "pairInfoMetadata" pairAddress
  | setFirstTokenPrice pairAddress => pairKey "firstTokenPrice" pairAddress
  | setSecondTokenPrice pairAddress => pairKey "secondTokenPrice" pairAddress
  | setFirstTokenPriceUSD pairAddress => pairKey "firstTokenPriceUSD" pairAddress
  | setSecondTokenPriceUSD pairAddress => pairKey "secondTokenPriceUSD" pairAddress
  | setTokenPriceUSD tokenID =>
    getCacheKey "pair" [.string "tokenPriceUSD", .string tokenID.text]
  | setLpTokenPriceUSD pairAddress => pairKey "lpTokenPriceUSD" pairAddress
  | setFirstTokenLockedValueUSD pairAddress => pairKey "firstTokenLockedValueUSD" pairAddress
  | setSecondTokenLockedValueUSD pairAddress => pairKey "secondTokenLockedValueUSD" pairAddress
  | setLockedValueUSD pairAddress => pairKey "lockedValueUSD" pairAddress
  | setFirstTokenVolume pairAddress time => pairTimeKey "firstTokenVolume" pairAddress time
  | setSecondTokenVolume pairAddress time => pairTimeKey "secondTokenVolume" pairAddress time
  | setVolumeUSD pairAddress time => pairTimeKey "volumeUSD" pairAddress time
  | setFeesUSD pairAddress time => pairTimeKey "feesUSD" pairAddress time
  | setFeesAPR pairAddress => pairKey "feesAPR" pairAddress
  | setType pairAddress => pairKey "type" pairAddress
  | setRouterAddress pairAddress => pairKey "routerAddress" pairAddress
  | setWhitelistedAddresses pairAddress => pairKey "whitelistedAddresses" pairAddress
  | setFeeDestinations pairAddress => pairKey "feeDestinations" pairAddress
  | setFeesCollectorAddress pairAddress => pairKey "feesCollectorAddress" pairAddress
  | setFeesCollectorCutPercentage pairAddress => pairKey "feesCollectorCutPercentage" pairAddress
  | setHasFarms pairAddress => pairKey "hasFarms" pairAddress
  | setHasDualFarms pairAddress => pairKey "hasDualFarms" pairAddress
  | setTradesCount pairAddress => pairKey "tradesCount" pairAddress
  | setDeployedAt pairAddress => pairKey "deployedAt" pairAddress

/-- A decorated pair method called with an address, by a request about now. -/
def pairCall (propertyKey : String) (pairAddress : Address) : CachedCall :=
  ⟨"pair", propertyKey, [.string pairAddress.text], 0⟩

def pairTimeCall (propertyKey : String) (pairAddress : Address) (time : TimeSpan) : CachedCall :=
  ⟨"pair", propertyKey, [.string pairAddress.text, .string time.text], 0⟩

/-- The getter of the quantity a setter is named after. -/
def PairSetterService.getter : PairSetterService → CachedCall
  | setFirstTokenID pairAddress => pairCall "firstTokenID" pairAddress
  | setSecondTokenID pairAddress => pairCall "secondTokenID" pairAddress
  | setLpTokenID pairAddress => pairCall "lpTokenID" pairAddress
  | setTotalFeePercent pairAddress => pairCall "totalFeePercent" pairAddress
  | setSpecialFeePercent pairAddress => pairCall "specialFeePercent" pairAddress
  | setState pairAddress => pairCall "state" pairAddress
  | setFeeState pairAddress => pairCall "feeState" pairAddress
  | setFirstTokenReserve pairAddress => pairCall "firstTokenReserve" pairAddress
  | setSecondTokenReserve pairAddress => pairCall "secondTokenReserve" pairAddress
  | setTotalSupply pairAddress => pairCall "totalSupply" pairAddress
  | setPairInfoMetadata pairAddress => pairCall "pairInfoMetadata" pairAddress
  | setFirstTokenPrice pairAddress => pairCall "firstTokenPrice" pairAddress
  | setSecondTokenPrice pairAddress => pairCall "secondTokenPrice" pairAddress
  | setFirstTokenPriceUSD pairAddress => pairCall "firstTokenPriceUSD" pairAddress
  | setSecondTokenPriceUSD pairAddress => pairCall "secondTokenPriceUSD" pairAddress
  | setTokenPriceUSD tokenID => ⟨"pair", "tokenPriceUSD", [.string tokenID.text], 0⟩
  | setLpTokenPriceUSD pairAddress => pairCall "lpTokenPriceUSD" pairAddress
  | setFirstTokenLockedValueUSD pairAddress => pairCall "firstTokenLockedValueUSD" pairAddress
  | setSecondTokenLockedValueUSD pairAddress => pairCall "secondTokenLockedValueUSD" pairAddress
  | setLockedValueUSD pairAddress => pairCall "lockedValueUSD" pairAddress
  | setFirstTokenVolume pairAddress time => pairTimeCall "firstTokenVolume" pairAddress time
  | setSecondTokenVolume pairAddress time => pairTimeCall "secondTokenVolume" pairAddress time
  | setVolumeUSD pairAddress time => pairTimeCall "volumeUSD" pairAddress time
  | setFeesUSD pairAddress time => pairTimeCall "feesUSD" pairAddress time
  | setFeesAPR pairAddress => pairCall "feesAPR" pairAddress
  | setType pairAddress => pairCall "type" pairAddress
  | setRouterAddress pairAddress => pairCall "routerAddress" pairAddress
  | setWhitelistedAddresses pairAddress => pairCall "whitelistedAddresses" pairAddress
  | setFeeDestinations pairAddress => pairCall "feeDestinations" pairAddress
  | setFeesCollectorAddress pairAddress => pairCall "feesCollectorAddress" pairAddress
  | setFeesCollectorCutPercentage pairAddress => pairCall "feesCollectorCutPercentage" pairAddress
  | setHasFarms pairAddress => pairCall "hasFarms" pairAddress
  | setHasDualFarms pairAddress => pairCall "hasDualFarms" pairAddress
  | setTradesCount pairAddress => pairCall "tradesCount" pairAddress
  | setDeployedAt pairAddress => pairCall "deployedAt" pairAddress

/-! ## `token.setter.service.ts` -/

/-- The setters of `token.setter.service.ts`. -/
inductive TokenSetterService where
  | setTokenMetadata (tokenID : TokenIdentifier)
  | setNftCollectionMetadata (collection : TokenIdentifier)
  | setEsdtTokenType (tokenID : TokenIdentifier)
  | setDerivedEGLD (tokenID : TokenIdentifier)
  | setDerivedUSD (tokenID : TokenIdentifier)
  | setVolumeLast2Days (tokenID : TokenIdentifier)
  | setPricePrevious24h (tokenID : TokenIdentifier)
  | setPricePrevious7d (tokenID : TokenIdentifier)
  | setLiquidityUSD (tokenID : TokenIdentifier)
  | setAllTokensSwapsCount
  | setAllTokensPrevious24hSwapsCount
  | setTrendingScore (tokenID : TokenIdentifier)

/-- The rest parameter is an array, and is passed on as one. -/
def getTokenCacheKey (tokenID : TokenIdentifier) (args : List String) : String :=
  generateCacheKeyFromParams [.string "token", .string tokenID.text, .array args]

/-- Some keys have the name of the service in them, others have not. -/
def TokenSetterService.cacheKey : TokenSetterService → String
  | setTokenMetadata tokenID => getTokenCacheKey tokenID []
  | setNftCollectionMetadata collection => getTokenCacheKey collection []
  | setEsdtTokenType tokenID => getTokenCacheKey tokenID ["type"]
  | setDerivedEGLD tokenID => getTokenCacheKey tokenID ["derivedEGLD"]
  | setDerivedUSD tokenID => getTokenCacheKey tokenID ["derivedUSD"]
  | setVolumeLast2Days tokenID => "token.tokenLast2DaysVolumeUSD." ++ tokenID.text
  | setPricePrevious24h tokenID => "token.tokenPrevious24hPrice." ++ tokenID.text
  | setPricePrevious7d tokenID => "token.tokenPrevious7dPrice." ++ tokenID.text
  | setLiquidityUSD tokenID => "token.tokenLiquidityUSD." ++ tokenID.text
  | setAllTokensSwapsCount => "token.allTokensSwapsCount"
  | setAllTokensPrevious24hSwapsCount => "token.allTokensSwapsCountPrevious24h"
  | setTrendingScore tokenID => "token.tokenTrendingScore." ++ tokenID.text

/-- A decorated token method, called by a request about now. -/
def tokenCall (propertyKey : String) (tokenID : TokenIdentifier) : CachedCall :=
  ⟨"token", propertyKey, [.string tokenID.text], 0⟩

/-- The getter that the setter is for. -/
def TokenSetterService.getter : TokenSetterService → GetterCall
  | setTokenMetadata tokenID => .getTokenMetadata tokenID
  | setNftCollectionMetadata collection => .getNftCollectionMetadata collection
  | setEsdtTokenType tokenID => .cached (tokenCall "getEsdtTokenType" tokenID)
  | setDerivedEGLD tokenID => .cached (tokenCall "tokenPriceDerivedEGLD" tokenID)
  | setDerivedUSD tokenID => .cached (tokenCall "tokenPriceDerivedUSD" tokenID)
  | setVolumeLast2Days tokenID => .cached (tokenCall "tokenLast2DaysVolumeUSD" tokenID)
  | setPricePrevious24h tokenID => .cached (tokenCall "tokenPrevious24hPrice" tokenID)
  | setPricePrevious7d tokenID => .cached (tokenCall "tokenPrevious7dPrice" tokenID)
  | setLiquidityUSD tokenID => .cached (tokenCall "tokenLiquidityUSD" tokenID)
  | setAllTokensSwapsCount => .allTokensSwapsCount
  | setAllTokensPrevious24hSwapsCount => .allTokensSwapsCountPrevious24h
  | setTrendingScore tokenID => .cached (tokenCall "tokenTrendingScore" tokenID)

/-! ## `fees-collector.setter.service.ts` -/

/-- The setters of `fees-collector.setter.service.ts`. -/
inductive FeesCollectorSetterService where
  | userRewardsForWeek (scAddress userAddress : Address) (week : ℕ)
  | accumulatedFees (week : ℕ) (token : TokenIdentifier)

def FeesCollectorSetterService.cacheKey : FeesCollectorSetterService → String
  | userRewardsForWeek scAddress userAddress week =>
    -- the contract comes before the name here
    getCacheKey "feesCollector"
      [.string scAddress.text, .string "userRewardsForWeek", .string userAddress.text, .number week]
  | accumulatedFees week token =>
    getCacheKey "feesCollector" [.string "accumulatedFees", .number week, .string token.text]

/-- The getter that the setter is for. -/
def FeesCollectorSetterService.getter : FeesCollectorSetterService → CachedCall
  | userRewardsForWeek scAddress userAddress week =>
    ⟨"feesCollector", "userRewardsForWeek",
      [.string scAddress.text, .string userAddress.text, .number week], 0⟩
  | accumulatedFees week token =>
    ⟨"feesCollector", "accumulatedFees", [.number week, .string token.text], 0⟩

/-! ## All setters -/

/-- All setters. -/
inductive Setter where
  | pair (setter : PairSetterService)
  | token (setter : TokenSetterService)
  | feesCollector (setter : FeesCollectorSetterService)

def Setter.cacheKey : Setter → String
  | pair setter => setter.cacheKey
  | token setter => setter.cacheKey
  | feesCollector setter => setter.cacheKey

def Setter.getter : Setter → GetterCall
  | pair setter => .cached setter.getter
  | token setter => setter.getter
  | feesCollector setter => .cached setter.getter

/-- Not so: the five setters that use `getTokenCacheKey`, and the one that
puts the contract before the name of the quantity. -/
def Setter.writesGetterKey : Setter → Bool
  | token (.setTokenMetadata _) => false
  | token (.setNftCollectionMetadata _) => false
  | token (.setEsdtTokenType _) => false
  | token (.setDerivedEGLD _) => false
  | token (.setDerivedUSD _) => false
  | feesCollector (.userRewardsForWeek ..) => false
  | _ => true

/-! ## The getters exist -/

theorem TokenIdentifier.arg_plain (tokenID : TokenIdentifier) :
    (CacheArg.string tokenID.text).Plain := tokenID.plain

theorem Address.arg_plain (address : Address) : (CacheArg.string address.text).Plain :=
  address.plain

theorem TimeSpan.arg_plain (time : TimeSpan) : (CacheArg.string time.text).Plain := time.plain

/-- Each getter is one that the services declare. -/
theorem PairSetterService.getter_declared (s : PairSetterService) : s.getter.Declared := by
  have haddress : ∀ (propertyKey : String) (pairAddress : Address),
      (propertyKey, [.string]) ∈ pairMethods → (pairCall propertyKey pairAddress).Declared := by
    intro propertyKey pairAddress hmem
    exact declared_of_mem [.string] rfl hmem (.cons (.string _) .nil)
      (by simp [pairAddress.arg_plain])
  have htime : ∀ (propertyKey : String) (pairAddress : Address) (time : TimeSpan),
      (propertyKey, [.string, .string]) ∈ pairMethods →
      (pairTimeCall propertyKey pairAddress time).Declared := by
    intro propertyKey pairAddress time hmem
    exact declared_of_mem [.string, .string] rfl hmem
      (.cons (.string _) (.cons (.string _) .nil)) (by simp [pairAddress.arg_plain, time.arg_plain])
  cases s with
  | setTokenPriceUSD tokenID =>
    exact declared_of_mem [.string] rfl (by decide) (.cons (.string _) .nil)
      (by simp [tokenID.arg_plain])
  | setFirstTokenVolume | setSecondTokenVolume | setVolumeUSD | setFeesUSD =>
    exact htime _ _ _ (by decide)
  | _ => exact haddress _ _ (by decide)

theorem tokenCall_declared {propertyKey : String} (tokenID : TokenIdentifier)
    (hmem : (propertyKey, [.string]) ∈ tokenMethods) :
    (tokenCall propertyKey tokenID).Declared :=
  declared_of_mem [.string] rfl hmem (.cons (.string _) .nil) (by simp [tokenID.arg_plain])

theorem TokenSetterService.getter_declared (s : TokenSetterService) : s.getter.Declared := by
  cases s with
  | setTokenMetadata | setNftCollectionMetadata => trivial
  | setAllTokensSwapsCount | setAllTokensPrevious24hSwapsCount => trivial
  | _ => exact tokenCall_declared _ (by decide)

theorem FeesCollectorSetterService.getter_declared (s : FeesCollectorSetterService) :
    s.getter.Declared := by
  cases s with
  | userRewardsForWeek scAddress userAddress week =>
    exact declared_of_mem [.string, .string, .number] rfl (by decide)
      (.cons (.string _) (.cons (.string _) (.cons (.number _) .nil)))
      (by simp [scAddress.arg_plain, userAddress.arg_plain, plain_number])
  | accumulatedFees week token =>
    exact declared_of_mem [.number, .string] rfl (by decide)
      (.cons (.number _) (.cons (.string _) .nil)) (by simp [token.arg_plain, plain_number])

theorem Setter.getter_declared (s : Setter) : s.getter.Declared := by
  cases s with
  | pair setter => exact setter.getter_declared
  | token setter => exact setter.getter_declared
  | feesCollector setter => exact setter.getter_declared

/-! ## The setters that write the getter's key -/

/-- A key spelled out up to its last part. -/
theorem spelledKey_eq {spelled text : String} (name : String)
    (h : spelled = generateCacheKeyFromParams [.string "token", .string name] ++ SEPARATOR) :
    spelled ++ text =
      generateCacheKeyFromParams [.string "token", .string name, .string text] := by
  have hconcat : generateCacheKeyFromParams
      ([.string "token", .string name] ++ [.string text]) = _ :=
    generateCacheKeyFromParams_concat (by simp) _
  rw [h, String.append_assoc]
  exact hconcat.symm

/-- A setter of a pair writes the key of its getter. -/
theorem PairSetterService.cacheKey_eq (s : PairSetterService) :
    s.cacheKey = s.getter.cacheKey := by
  cases s <;> rfl

/-- So does every setter that is listed as one that does. -/
theorem Setter.cacheKey_eq {s : Setter} (h : s.writesGetterKey = true) :
    s.cacheKey = s.getter.cacheKey := by
  cases s with
  | pair setter => exact setter.cacheKey_eq
  | feesCollector setter =>
    cases setter with
    | userRewardsForWeek => exact absurd h (by simp [Setter.writesGetterKey])
    | accumulatedFees => rfl
  | token setter =>
    cases setter with
    | setAllTokensSwapsCount | setAllTokensPrevious24hSwapsCount => rfl
    | setVolumeLast2Days => exact spelledKey_eq "tokenLast2DaysVolumeUSD" (by decide)
    | setPricePrevious24h => exact spelledKey_eq "tokenPrevious24hPrice" (by decide)
    | setPricePrevious7d => exact spelledKey_eq "tokenPrevious7dPrice" (by decide)
    | setLiquidityUSD => exact spelledKey_eq "tokenLiquidityUSD" (by decide)
    | setTrendingScore => exact spelledKey_eq "tokenTrendingScore" (by decide)
    | _ => exact absurd h (by simp [Setter.writesGetterKey])

/-! ## The setters that do not -/

/-- The parts of a key that no method has: where the name of the method
belongs there is a token or an address. -/
theorem lostParams_ne {baseKey second : String} {rest : List CacheArg} {g : GetterCall}
    (hg : g.Declared) (hbase : (decoratedMethods baseKey).isSome)
    (hsecond : '-' ∈ second.toList ∨ "erd1".toList <+: second.toList) (hrest : rest ≠ []) :
    g.params.map CacheArg.text ≠
      (CacheArg.string baseKey :: .string second :: rest).map CacheArg.text := by
  intro h
  have hlen : 0 < rest.length := List.length_pos_iff.mpr hrest
  cases g with
  | cached call =>
    have hparts : call.baseKey = baseKey ∧ call.propertyKey = second := by
      simp only [GetterCall.params, CachedCall.params, List.map_cons, List.cons.injEq] at h
      exact ⟨h.1, h.2.1⟩
    obtain ⟨methods, hmethods⟩ := Option.isSome_iff_exists.mp hbase
    -- the second part would have to be the name of one of the methods
    obtain ⟨kinds, hmem, -⟩ := CachedCall.Declared.typed hg methods (hparts.1 ▸ hmethods)
    obtain ⟨-, hdash, herd⟩ := propertyKey_shape hmethods _ hmem
    rw [hparts.2] at hdash herd
    exact hsecond.elim hdash herd
  | _ =>
    have := congrArg List.length h
    simp only [GetterCall.params, List.length_map, List.length_cons, List.length_nil] at this
    omega

/-- No getter reads what these setters write. -/
theorem lostKey_ne {s : Setter} (h : s.writesGetterKey = false) {g : GetterCall}
    (hg : g.Declared) : g.cacheKey ≠ s.cacheKey := by
  -- the key has an identifier where a getter has the name of a method, and no name has
  -- a dash
  have htoken : ∀ (tokenID : TokenIdentifier) (words : List String),
      (CacheArg.array words).Plain → g.cacheKey ≠ getTokenCacheKey tokenID words := by
    intro tokenID words hwords hkey
    refine lostParams_ne hg rfl (Or.inl tokenID.dash) (List.cons_ne_nil _ [])
      (params_text_eq hg (by simp) ?_ hkey)
    intro arg harg
    simp only [List.mem_cons, List.not_mem_nil, or_false] at harg
    rcases harg with rfl | rfl | rfl
    · show '.' ∉ "token".toList
      decide
    · exact tokenID.plain
    · exact hwords
  -- the setters whose key a getter has drop out, the others differ from every getter
  cases s with
  | pair setter => exact absurd h (by simp [Setter.writesGetterKey])
  | token setter =>
    cases setter with
    | setTokenMetadata tokenID | setNftCollectionMetadata tokenID =>
      exact htoken tokenID [] (by unfold CacheArg.Plain; decide)
    | setEsdtTokenType tokenID => exact htoken tokenID _ (by unfold CacheArg.Plain; decide)
    | setDerivedEGLD tokenID => exact htoken tokenID _ (by unfold CacheArg.Plain; decide)
    | setDerivedUSD tokenID => exact htoken tokenID _ (by unfold CacheArg.Plain; decide)
    | _ => exact absurd h (by simp [Setter.writesGetterKey])
  | feesCollector setter =>
    cases setter with
    | accumulatedFees => exact absurd h (by simp [Setter.writesGetterKey])
    | userRewardsForWeek scAddress userAddress week =>
      intro hkey
      refine lostParams_ne hg rfl (Or.inr scAddress.hrp) (List.cons_ne_nil _ _)
        (params_text_eq hg (by simp) ?_ hkey)
      intro arg harg
      simp only [List.mem_cons, List.not_mem_nil, or_false] at harg
      rcases harg with rfl | rfl | rfl | rfl | rfl
      · show '.' ∉ "feesCollector".toList
        decide
      · exact scAddress.plain
      · show '.' ∉ "userRewardsForWeek".toList
        decide
      · exact userAddress.plain
      · exact plain_number week

/-- The keys of the two swap counts are nobody else's. -/
theorem swapsCountKey_inj {g : GetterCall} (name : String) (hg : g.Declared)
    (hdash : '-' ∉ name.toList) (hplain : '.' ∉ name.toList)
    (hkey : g.cacheKey = "token." ++ name) :
    (g = .allTokensSwapsCount ∧ name = "allTokensSwapsCount") ∨
      (g = .allTokensSwapsCountPrevious24h ∧ name = "allTokensSwapsCountPrevious24h") := by
  have htexts : g.params.map CacheArg.text = ["token", name] := by
    refine params_text_eq hg (List.cons_ne_nil _ _) ?_ (hkey.trans (tokenKey_eq name))
    intro arg harg
    rcases List.mem_cons.mp harg with rfl | harg
    · show '.' ∉ "token".toList
      decide
    · rw [List.mem_singleton.mp harg]
      exact hplain
  cases g with
  | cached call =>
    have hlen := CachedCall.two_lt_length hg (List.cons.inj htexts).1
    have := congrArg List.length htexts
    simp only [GetterCall.params, List.length_map, List.length_cons, List.length_nil] at this
    omega
  | getTokenMetadata tokenID | getNftCollectionMetadata tokenID =>
    have hname : tokenID.text = name := (List.cons.inj (List.cons.inj htexts).2).1
    exact absurd (hname ▸ tokenID.dash) hdash
  | allTokensSwapsCount =>
    exact Or.inl ⟨rfl, (List.cons.inj (List.cons.inj htexts).2).1.symm⟩
  | allTokensSwapsCountPrevious24h =>
    exact Or.inr ⟨rfl, (List.cons.inj (List.cons.inj htexts).2).1.symm⟩

/-- A setter that writes its getter's key writes no other getter's. -/
theorem Setter.cacheKey_inj {s : Setter} (h : s.writesGetterKey = true) {g : GetterCall}
    (hg : g.Declared) (hkey : g.cacheKey = s.cacheKey) : g = s.getter := by
  rw [Setter.cacheKey_eq h] at hkey
  have hdeclared := s.getter_declared
  cases s with
  | pair setter => exact Cache.cacheKey_inj hdeclared (by cases setter <;> rfl) hg hkey
  | feesCollector setter => exact Cache.cacheKey_inj hdeclared (by cases setter <;> rfl) hg hkey
  | token setter =>
    cases setter with
    | setAllTokensSwapsCount =>
      rcases swapsCountKey_inj "allTokensSwapsCount" hg (by decide) (by decide) hkey
        with ⟨rfl, -⟩ | ⟨-, hname⟩
      · rfl
      · exact absurd hname (by decide)
    | setAllTokensPrevious24hSwapsCount =>
      rcases swapsCountKey_inj "allTokensSwapsCountPrevious24h" hg (by decide)
        (by decide) hkey with ⟨-, hname⟩ | ⟨rfl, -⟩
      · exact absurd hname (by decide)
      · rfl
    | setVolumeLast2Days | setPricePrevious24h | setPricePrevious7d | setLiquidityUSD
    | setTrendingScore => exact Cache.cacheKey_inj hdeclared rfl hg hkey
    | _ => exact absurd h (by simp [Setter.writesGetterKey])

end MxExchange.Cache
