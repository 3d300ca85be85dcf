import Mathlib.Data.List.Forall2
import Mathlib.Data.List.Nodup
import MxExchange.Cache.CacheKey

/-!
# `caching.decorator.ts`: cached methods

`@GetOrSetCache` answers a call from the cache under a key made of the
decorator's base key, the name of the method and the arguments, followed by
the timestamp when the request is about the past. `pairMethods`,
`tokenMethods` and `feesCollectorMethods` list every method decorated with
one of the base keys `pair`, `token` and `feesCollector`; methods with other
base keys take part as well, whatever their names are. Four methods of the
token services keep their answers in the cache by hand.

`cacheKey_inj` is what a key is worth: a call of a decorated method of the
three base keys shares its key with no other call.
-/

namespace MxExchange.Cache

open MxExchange.Collections

/-! ## The decorated methods -/

/-- How an argument is passed. -/
inductive ArgKind where
  | string
  | number
  | object
  deriving DecidableEq

/-- `pair.abi.service.ts` and `pair.compute.service.ts`. -/
def pairMethods : List (String × List ArgKind) :=
  [("firstTokenID", [.string]), ("secondTokenID", [.string]), ("lpTokenID", [.string]),
    ("tokenReserve", [.string, .string]), ("firstTokenReserve", [.string]),
    ("secondTokenReserve", [.string]), ("totalSupply", [.string]),
    ("pairInfoMetadata", [.string]), ("totalFeePercent", [.string]),
    ("specialFeePercent", [.string]), ("trustedSwapPairs", [.string]),
    ("initialLiquidityAdder", [.string]), ("state", [.string]), ("feeState", [.string]),
    ("feeDestinations", [.string]), ("whitelistedAddresses", [.string]),
    ("routerAddress", [.string]), ("safePrice", [.string, .object]),
    ("feesCollectorAddress", [.string]), ("feesCollectorCutPercentage", [.string]),
    ("firstTokenPrice", [.string]), ("secondTokenPrice", [.string]),
    ("lpTokenPriceUSD", [.string]), ("tokenPriceUSD", [.string]),
    ("firstTokenPriceUSD", [.string]), ("secondTokenPriceUSD", [.string]),
    ("firstTokenLockedValueUSD", [.string]), ("secondTokenLockedValueUSD", [.string]),
    ("lockedValueUSD", [.string]), ("firstTokenVolume", [.string, .string]),
    ("secondTokenVolume", [.string, .string]), ("volumeUSD", [.string, .string]),
    ("feesUSD", [.string, .string]), ("feesAPR", [.string]), ("type", [.string]),
    ("hasFarms", [.string]), ("hasDualFarms", [.string]), ("tradesCount", [.string]),
    ("deployedAt", [.string])]

/-- `token.compute.service.ts` and `token.service.ts`. -/
def tokenMethods : List (String × List ArgKind) :=
  [("tokenPriceDerivedEGLD", [.string]), ("tokenPriceDerivedUSD", [.string]),
    ("tokenPrevious24hPrice", [.string]), ("tokenPrevious7dPrice", [.string]),
    ("tokenPriceChange24h", [.string]), ("tokenVolumeUSDChange24h", [.string]),
    ("tokenTradeChange24h", [.string]), ("tokenVolumeUSD24h", [.string]),
    ("tokenPrevious24hVolumeUSD", [.string]), ("tokenLast2DaysVolumeUSD", [.string]),
    ("tokenLiquidityUSD", [.string]), ("tokenCreatedAt", [.string]),
    ("tokenTrendingScore", [.string]), ("getEsdtTokenType", [.string])]

/-- `fees-collector.abi.service.ts` and `fees-collector.compute.service.ts`. -/
def feesCollectorMethods : List (String × List ArgKind) :=
  [("accumulatedFees", [.number, .string]), ("lockedTokenID", []),
    ("lockedTokensPerBlock", []), ("allTokens", []), ("knownContracts", []),
    ("userRewardsForWeek", [.string, .string, .number]),
    ("userRewardsDistributionForWeek", [.string, .string, .number]),
    ("accumulatedFeesUntilNow", [.string, .number])]

/-- The methods decorated with a base key, if it is one of the three. -/
def decoratedMethods (baseKey : String) : Option (List (String × List ArgKind)) :=
  if baseKey = "pair" then some pairMethods
  else if baseKey = "token" then some tokenMethods
  else if baseKey = "feesCollector" then some feesCollectorMethods
  else none

inductive ArgKind.Fits : ArgKind → CacheArg → Prop
  | string (s : String) : Fits .string (.string s)
  | number (n : ℕ) : Fits .number (.number n)
  | object (json : String) : Fits .object (.object json)

/-- A call of a decorated method. The timestamp is that of the request's
context; `0` stands for none, as it does in the source. -/
structure CachedCall where
  baseKey : String
  propertyKey : String
  args : List CacheArg
  deepHistoryTimestamp : ℕ
  deriving DecidableEq

/-- `GetOrSetCache`: the key of a call. -/
def CachedCall.cacheKey (call : CachedCall) : String :=
  let cacheKey := generateCacheKeyFromParams
    (.string call.baseKey :: .string call.propertyKey :: call.args)
  if call.deepHistoryTimestamp ≠ 0 then
    cacheKey ++ (SEPARATOR ++ toString call.deepHistoryTimestamp)
  else cacheKey

/-- A call the program can make. -/
structure CachedCall.Declared (call : CachedCall) : Prop where
  plain : ∀ arg ∈ CacheArg.string call.baseKey :: .string call.propertyKey :: call.args, arg.Plain
  typed : ∀ methods, decoratedMethods call.baseKey = some methods →
    ∃ kinds, (call.propertyKey, kinds) ∈ methods ∧ List.Forall₂ ArgKind.Fits kinds call.args

/-- A call of a method that answers from the cache: decorated, or by hand
in `token.service.ts` and `token.compute.service.ts`. -/
inductive GetterCall where
  | cached (call : CachedCall)
  | getTokenMetadata (tokenID : TokenIdentifier)
  | getNftCollectionMetadata (collection : TokenIdentifier)
  | allTokensSwapsCount
  | allTokensSwapsCountPrevious24h

/-- The key of a getter. -/
def GetterCall.cacheKey : GetterCall → String
  | cached call => call.cacheKey
  | getTokenMetadata tokenID => "token." ++ tokenID.text
  | getNftCollectionMetadata collection => "token." ++ collection.text
  | allTokensSwapsCount => "token.allTokensSwapsCount"
  | allTokensSwapsCountPrevious24h => "token.allTokensSwapsCountPrevious24h"

/-- The call is one that the services make. -/
def GetterCall.Declared : GetterCall → Prop
  | cached call => call.Declared
  | _ => True

/-! ## The parts of a key -/

/-- The arguments of the key. -/
def CachedCall.params (call : CachedCall) : List CacheArg :=
  .string call.baseKey :: .string call.propertyKey ::
    (call.args ++ if call.deepHistoryTimestamp ≠ 0 then [.number call.deepHistoryTimestamp] else [])

def GetterCall.params : GetterCall → List CacheArg
  | cached call => call.params
  | getTokenMetadata tokenID => [.string "token", .string tokenID.text]
  | getNftCollectionMetadata collection => [.string "token", .string collection.text]
  | allTokensSwapsCount => [.string "token", .string "allTokensSwapsCount"]
  | allTokensSwapsCountPrevious24h => [.string "token", .string "allTokensSwapsCountPrevious24h"]

theorem CachedCall.cacheKey_eq (call : CachedCall) :
    call.cacheKey = generateCacheKeyFromParams call.params := by
  unfold CachedCall.cacheKey CachedCall.params
  by_cases h : call.deepHistoryTimestamp ≠ 0
  · rw [if_pos h, if_pos h, ← List.cons_append, ← List.cons_append,
      generateCacheKeyFromParams_concat (by simp)]
    rfl
  · rw [if_neg h, if_neg h, List.append_nil]

theorem tokenKey_eq (text : String) :
    "token." ++ text = generateCacheKeyFromParams [.string "token", .string text] := by
  refine String.toList_inj.mp ?_
  rw [generateCacheKeyFromParams_toList, String.toList_append]
  simp [List.intercalate, CacheArg.text]

/-- Every key is made of the arguments. -/
theorem GetterCall.cacheKey_eq (g : GetterCall) :
    g.cacheKey = generateCacheKeyFromParams g.params := by
  cases g with
  | cached call => exact call.cacheKey_eq
  | getTokenMetadata tokenID => exact tokenKey_eq tokenID.text
  | getNftCollectionMetadata collection => exact tokenKey_eq collection.text
  | allTokensSwapsCount => rfl
  | allTokensSwapsCountPrevious24h => rfl

theorem GetterCall.params_ne_nil (g : GetterCall) : g.params ≠ [] := by
  cases g <;> simp [GetterCall.params, CachedCall.params]

/-- The arguments of declared calls have no separator in them. -/
theorem GetterCall.params_plain {g : GetterCall} (h : g.Declared) :
    ∀ arg ∈ g.params, arg.Plain := by
  have hpair : ∀ s : String, '.' ∉ s.toList →
      ∀ arg ∈ [CacheArg.string "token", CacheArg.string s], arg.Plain := by
    intro s hs arg harg
    rcases List.mem_cons.mp harg with rfl | harg
    · show '.' ∉ "token".toList
      decide
    · rw [List.mem_singleton.mp harg]
      exact hs
  cases g with
  | cached call =>
    intro arg harg
    have harg' : arg ∈ (CacheArg.string call.baseKey :: .string call.propertyKey :: call.args) ++
        if call.deepHistoryTimestamp ≠ 0 then [.number call.deepHistoryTimestamp] else [] := harg
    rcases List.mem_append.mp harg' with hin | hstamp
    · exact CachedCall.Declared.plain h arg hin
    · split at hstamp
      · rw [List.mem_singleton.mp hstamp]
        exact plain_number _
      · exact absurd hstamp (by simp)
  | getTokenMetadata tokenID => exact hpair _ tokenID.plain
  | getNftCollectionMetadata collection => exact hpair _ collection.plain
  | allTokensSwapsCount => exact hpair _ (by decide)
  | allTokensSwapsCountPrevious24h => exact hpair _ (by decide)

/-- A key that is a getter's has the getter's parts. -/
theorem params_text_eq {g : GetterCall} {args : List CacheArg} (h : g.Declared)
    (hargs : args ≠ []) (hplain : ∀ arg ∈ args, arg.Plain)
    (hkey : g.cacheKey = generateCacheKeyFromParams args) :
    g.params.map CacheArg.text = args.map CacheArg.text :=
  generateCacheKeyFromParams_inj g.params_ne_nil hargs (GetterCall.params_plain h) hplain
    (g.cacheKey_eq ▸ hkey)

/-! ## Which calls share a key -/

/-- Facts about the names and parameters in the lists. -/
theorem decoratedMethods_cases {baseKey : String} {methods : List (String × List ArgKind)}
    (h : decoratedMethods baseKey = some methods) :
    (baseKey = "pair" ∧ methods = pairMethods) ∨ (baseKey = "token" ∧ methods = tokenMethods) ∨
      (baseKey = "feesCollector" ∧ methods = feesCollectorMethods) := by
  unfold decoratedMethods at h
  split at h
  next hpair => exact Or.inl ⟨hpair, (Option.some.inj h).symm⟩
  next =>
    split at h
    next htoken => exact Or.inr (Or.inl ⟨htoken, (Option.some.inj h).symm⟩)
    next =>
      split at h
      next hfees => exact Or.inr (Or.inr ⟨hfees, (Option.some.inj h).symm⟩)
      next => exact absurd h (by simp)

/-- A service has no two methods of a name. -/
theorem propertyKeys_nodup {baseKey : String} {methods : List (String × List ArgKind)}
    (h : decoratedMethods baseKey = some methods) : (methods.map Prod.fst).Nodup := by
  rcases decoratedMethods_cases h with ⟨-, rfl⟩ | ⟨-, rfl⟩ | ⟨-, rfl⟩
  · decide +kernel
  · decide +kernel
  · decide +kernel

/-- Names have neither dots nor dashes, and begin like no address. -/
theorem propertyKey_shape {baseKey : String} {methods : List (String × List ArgKind)}
    (h : decoratedMethods baseKey = some methods) :
    ∀ m ∈ methods, '.' ∉ m.1.toList ∧ '-' ∉ m.1.toList ∧ ¬"erd1".toList <+: m.1.toList := by
  rcases decoratedMethods_cases h with ⟨-, rfl⟩ | ⟨-, rfl⟩ | ⟨-, rfl⟩
  · decide +kernel
  · decide +kernel
  · decide +kernel

/-- Every method of a token takes an argument. -/
theorem tokenMethods_kinds : ∀ m ∈ tokenMethods, m.2 ≠ [] := by decide

/-- A call as the lists have it. -/
theorem declared_of_mem {baseKey propertyKey : String} {args : List CacheArg}
    {methods : List (String × List ArgKind)} (kinds : List ArgKind)
    (hmethods : decoratedMethods baseKey = some methods) (hmem : (propertyKey, kinds) ∈ methods)
    (hfits : List.Forall₂ ArgKind.Fits kinds args) (hplain : ∀ arg ∈ args, arg.Plain) :
    CachedCall.Declared ⟨baseKey, propertyKey, args, 0⟩ := by
  constructor
  · intro arg harg
    rcases List.mem_cons.mp harg with rfl | harg
    · show '.' ∉ baseKey.toList
      rcases decoratedMethods_cases hmethods with ⟨rfl, -⟩ | ⟨rfl, -⟩ | ⟨rfl, -⟩ <;> decide
    · rcases List.mem_cons.mp harg with rfl | harg
      · exact (propertyKey_shape hmethods _ hmem).1
      · exact hplain arg harg
  · intro methods' hmethods'
    rw [hmethods] at hmethods'
    exact ⟨kinds, Option.some.inj hmethods' ▸ hmem, hfits⟩

/-- Arguments of the same kinds print differently unless they are the same. -/
theorem fits_text_inj {kinds : List ArgKind} {args args' : List CacheArg}
    (h : List.Forall₂ ArgKind.Fits kinds args) (h' : List.Forall₂ ArgKind.Fits kinds args')
    (htext : args.map CacheArg.text = args'.map CacheArg.text) : args = args' := by
  induction h generalizing args' with
  | nil =>
    cases h'
    rfl
  | cons hfit _ ih =>
    cases h' with
    | cons hfit' hrest' =>
      rw [List.map_cons, List.map_cons, List.cons.injEq] at htext
      rw [ih hrest' htext.2]
      cases hfit with
      | string s =>
        cases hfit' with
        | string s' => rw [show s = s' from htext.1]
      | number n =>
        cases hfit' with
        | number n' => rw [number_text_inj htext.1]
      | object json =>
        cases hfit' with
        | object json' => rw [show json = json' from htext.1]

/-- A timestamp at the end of a key can be told from none. -/
theorem stamp_inj {n m : ℕ}
    (h : (if n ≠ 0 then [CacheArg.number n] else []).map CacheArg.text =
      (if m ≠ 0 then [CacheArg.number m] else []).map CacheArg.text) : n = m := by
  by_cases hn : n ≠ 0 <;> by_cases hm : m ≠ 0
  · rw [if_pos hn, if_pos hm] at h
    exact number_text_inj (List.cons.inj h).1
  · rw [if_pos hn, if_neg hm] at h
    exact absurd h (by simp)
  · rw [if_neg hn, if_pos hm] at h
    exact absurd h (by simp)
  · omega

/-- Two calls of decorated methods of the three base keys. -/
theorem CachedCall.eq_of_params {call call' : CachedCall} (hcall : call.Declared)
    (hcall' : call'.Declared) (hbase : (decoratedMethods call.baseKey).isSome)
    (h : call'.params.map CacheArg.text = call.params.map CacheArg.text) : call' = call := by
  obtain ⟨baseKey, propertyKey, args, stamp⟩ := call
  obtain ⟨baseKey', propertyKey', args', stamp'⟩ := call'
  simp only [CachedCall.params, List.map_cons, List.map_append, List.cons.injEq] at h
  obtain ⟨rfl, rfl, hrest⟩ : baseKey' = baseKey ∧ propertyKey' = propertyKey ∧ _ := h
  obtain ⟨methods, hmethods⟩ := Option.isSome_iff_exists.mp hbase
  obtain ⟨kinds, hmem, hfits⟩ := hcall.typed methods hmethods
  obtain ⟨kinds', hmem', hfits'⟩ := hcall'.typed methods hmethods
  -- one method, hence as many arguments on both sides
  have hkinds : kinds' = kinds := (Prod.mk.inj
    (List.inj_on_of_nodup_map (propertyKeys_nodup hmethods) hmem' hmem rfl)).2
  subst hkinds
  have hlen : (args'.map CacheArg.text).length = (args.map CacheArg.text).length := by
    rw [List.length_map, List.length_map, ← hfits.length_eq, ← hfits'.length_eq]
  obtain ⟨hargs, hstamp⟩ := List.append_inj hrest hlen
  have hargs' : args' = args := fits_text_inj hfits' hfits hargs
  rw [hargs', stamp_inj hstamp]

/-- A token method's key has three parts at least. -/
theorem CachedCall.two_lt_length {call : CachedCall} (hcall : call.Declared)
    (hbase : call.baseKey = "token") : 2 < call.params.length := by
  obtain ⟨kinds, hmem, hfits⟩ := hcall.typed tokenMethods (by rw [hbase]; rfl)
  have hpos : 0 < kinds.length := List.length_pos_iff.mpr (tokenMethods_kinds _ hmem)
  have hlen := hfits.length_eq
  simp only [CachedCall.params, List.length_cons, List.length_append]
  omega

/-- A call of a decorated method of the three base keys shares its key with
no other call. -/
theorem cacheKey_inj {call : CachedCall} {g : GetterCall} (hcall : call.Declared)
    (hbase : (decoratedMethods call.baseKey).isSome) (hg : g.Declared)
    (h : g.cacheKey = call.cacheKey) : g = .cached call := by
  have htexts : g.params.map CacheArg.text = call.params.map CacheArg.text :=
    params_text_eq hg (by simp [CachedCall.params])
      (GetterCall.params_plain (g := .cached call) hcall) (by rw [h, call.cacheKey_eq])
  -- the keys kept by hand have two parts, the first of which is `token`
  have htoken : ∀ s : String, ["token", s] ≠ call.params.map CacheArg.text := by
    intro s heq
    have hlen := call.two_lt_length hcall (List.cons.inj heq).1.symm
    have := congrArg List.length heq
    rw [List.length_map] at this
    simp only [List.length_cons, List.length_nil] at this
    omega
  cases g with
  | cached call' => rw [CachedCall.eq_of_params hcall hg hbase htexts]
  | getTokenMetadata tokenID => exact absurd htexts (htoken _)
  | getNftCollectionMetadata collection => exact absurd htexts (htoken _)
  | allTokensSwapsCount => exact absurd htexts (htoken _)
  | allTokensSwapsCountPrevious24h => exact absurd htexts (htoken _)

end MxExchange.Cache
