import MxExchange.Collections.JsMap
import MxExchange.Utils.TokenConverters

/-!
# `simple.lock.service.ts`: attributes of locked tokens

A collection names its simple-lock contract, and the contract says what its
locked tokens and its proxies of pair tokens are called: the attributes asked
for are those of the contract's own token with the nonce given. Both getters
look for the decoded attributes under the identifier of that token, and fetch
and decode them if nothing is there. `getLpTokenProxyAttributes` keeps them
under the identifier. `getLockedTokenAttributes` keeps them under the
collection it was given, where no call looks.

So the cache serves its purpose in exactly the runs in which no attributes of
locked tokens are asked for (`servesTokens_iff`).
-/

namespace MxExchange.SimpleLock

open MxExchange.Collections MxExchange.Utils
open StakingProxy (decimalToHex tokenIdentifier)

/-- What the getters read: the configured contracts, the collections of each,
the attributes of the tokens on the chain, which are the same whoever holds
them, and what the library decodes attributes to. -/
structure SimpleLockService (Locked LockedLp : Type) where
  simpleLockAddress : List String
  lockedTokenID : String → Collection
  lpProxyTokenID : String → Collection
  farmProxyTokenID : String → Collection
  attributes : String → String
  lockedTokenAttributes : String → Locked
  lockedLpTokenAttributes : String → LockedLp

/-- `LockedTokenAttributesModel` and `LpProxyTokenAttributesModel`. Either
class copies the fields of the object it is given. -/
inductive DecodedAttributes (Locked LockedLp : Type) where
  | lockedToken (json : Locked) (attributes identifier : String)
  | lpTokenProxy (json : LockedLp) (attributes identifier : String)
  deriving DecidableEq

/-- What has been decoded, by key. -/
abbrev Cache (Locked LockedLp : Type) := JsMap String (DecodedAttributes Locked LockedLp)

/-- What a call comes to: its answer, the identifier it asks the API for,
and the entry it writes. -/
structure Served (Locked LockedLp : Type) where
  result : Option (DecodedAttributes Locked LockedLp)
  fetched : Option String
  written : Option (String × DecodedAttributes Locked LockedLp)
  deriving DecidableEq

/-- The two getters of attributes. -/
inductive Getter where
  | getLockedTokenAttributes
  | getLpTokenProxyAttributes
  deriving DecidableEq

/-- A call of a getter. -/
structure Call where
  getter : Getter
  tokenID : String
  tokenNonce : ℕ
  deriving DecidableEq

def decodedAttributesKey (text : String) : String := text ++ ".decodedAttributes"

namespace SimpleLockService

variable {Locked LockedLp : Type} (service : SimpleLockService Locked LockedLp)

/-- Which simple lock contract has the token. -/
def getSimpleLockAddressByTokenID (tokenID : String) : Option String :=
  service.simpleLockAddress.find? fun address =>
    tokenID = (service.lockedTokenID address).tokenID ∨
      tokenID = (service.lpProxyTokenID address).tokenID ∨
      tokenID = (service.farmProxyTokenID address).tokenID

/-- Attributes of a locked token. -/
def decodeLockedTokenAttributes (identifier attributes : String) :
    DecodedAttributes Locked LockedLp :=
  .lockedToken (service.lockedTokenAttributes attributes) attributes identifier

/-- Attributes of an LP token of the proxy. -/
def decodeLpProxyTokenAttributes (identifier attributes : String) :
    DecodedAttributes Locked LockedLp :=
  .lpTokenProxy (service.lockedLpTokenAttributes attributes) attributes identifier

/-- The entry of the one key, or else the attributes as they are fetched,
decoded and kept under the other. -/
def getOrDecode (identifier readKey writtenKey : String)
    (decode : String → String → DecodedAttributes Locked LockedLp)
    (cache : Cache Locked LockedLp) : Served Locked LockedLp × Cache Locked LockedLp :=
  match JsMap.get cache readKey with
  | some cachedValue => (⟨some cachedValue, none, none⟩, cache)
  | none =>
    let decodedAttributes := decode identifier (service.attributes identifier)
    (⟨some decodedAttributes, some identifier, some (writtenKey, decodedAttributes)⟩,
      JsMap.set cache writtenKey decodedAttributes)

/-- Decoded once, then read from the cache. -/
def getLockedTokenAttributes (tokenID : String) (tokenNonce : ℕ) (cache : Cache Locked LockedLp) :
    Served Locked LockedLp × Cache Locked LockedLp :=
  match service.getSimpleLockAddressByTokenID tokenID with
  -- the contract is asked for at no address, which fails
  | none => (⟨none, none, none⟩, cache)
  | some simpleLockAddress =>
    let lockedTokenIdentifier :=
      tokenIdentifier (service.lockedTokenID simpleLockAddress).tokenID tokenNonce
    service.getOrDecode lockedTokenIdentifier (decodedAttributesKey lockedTokenIdentifier)
      (decodedAttributesKey tokenID) service.decodeLockedTokenAttributes cache

/-- The same with the other decoder, and another key. -/
def getLpTokenProxyAttributes (lockedLpTokenID : String) (tokenNonce : ℕ)
    (cache : Cache Locked LockedLp) : Served Locked LockedLp × Cache Locked LockedLp :=
  match service.getSimpleLockAddressByTokenID lockedLpTokenID with
  | none => (⟨none, none, none⟩, cache)
  | some simpleLockAddress =>
    let lockedLpTokenIdentifier :=
      tokenIdentifier (service.lpProxyTokenID simpleLockAddress).tokenID tokenNonce
    service.getOrDecode lockedLpTokenIdentifier (decodedAttributesKey lockedLpTokenIdentifier)
      (decodedAttributesKey lockedLpTokenIdentifier) service.decodeLpProxyTokenAttributes cache

/-- What a call answers, and the cache after it. -/
def answer (call : Call) (cache : Cache Locked LockedLp) :
    Served Locked LockedLp × Cache Locked LockedLp :=
  match call.getter with
  | .getLockedTokenAttributes => service.getLockedTokenAttributes call.tokenID call.tokenNonce cache
  | .getLpTokenProxyAttributes =>
    service.getLpTokenProxyAttributes call.tokenID call.tokenNonce cache

/-- Calls one after the other, without an entry expiring. -/
def run : List Call → Cache Locked LockedLp → List (Call × Served Locked LockedLp)
  | [], _ => []
  | call :: calls, cache =>
    (call, (service.answer call cache).1) :: run calls (service.answer call cache).2

/-! ## What the cache is for -/

/-- The token a call is about: the contract's own, with the nonce given. -/
def identifier (call : Call) : Option String :=
  (service.getSimpleLockAddressByTokenID call.tokenID).map fun address =>
    match call.getter with
    | .getLockedTokenAttributes =>
      tokenIdentifier (service.lockedTokenID address).tokenID call.tokenNonce
    | .getLpTokenProxyAttributes =>
      tokenIdentifier (service.lpProxyTokenID address).tokenID call.tokenNonce

def decode : Getter → String → String → DecodedAttributes Locked LockedLp
  | .getLockedTokenAttributes => service.decodeLockedTokenAttributes
  | .getLpTokenProxyAttributes => service.decodeLpProxyTokenAttributes

/-- The attributes of a token as a getter decodes them. -/
def decoding (getter : Getter) (identifier : String) : DecodedAttributes Locked LockedLp :=
  service.decode getter identifier (service.attributes identifier)

/-- Every call is answered with the attributes of its token and keeps them,
if at all, under the token's key; tokens do not share an entry; and a call
made before needs no fetch. -/
structure ServesTokens (served : List (Call × Served Locked LockedLp)) : Prop where
  decoded : ∀ s ∈ served, ∃ id, service.identifier s.1 = some id ∧
    s.2.result = some (service.decoding s.1.getter id)
  keyed : ∀ s ∈ served, ∀ entry, s.2.written = some entry →
    ∃ id, service.identifier s.1 = some id ∧ entry.1 = decodedAttributesKey id
  apart : ∀ s ∈ served, ∀ t ∈ served, ∀ entry entry', s.2.written = some entry →
    t.2.written = some entry' → entry.1 = entry'.1 → service.identifier s.1 = service.identifier t.1
  answered : served.Pairwise fun s t => s.1 = t.1 → t.2.fetched = none

/-! ## Keys -/

theorem decodedAttributesKey_inj {text text' : String}
    (h : decodedAttributesKey text = decodedAttributesKey text') : text = text' := by
  have hlist := congrArg String.toList h
  rw [decodedAttributesKey, decodedAttributesKey, String.toList_append, String.toList_append,
    List.append_cancel_right_eq] at hlist
  exact String.toList_inj.mp hlist

/-- A collection has one dash and a token two. -/
theorem tokenIdentifier_ne_tokenID (collection collection' : Collection) (nonce : ℕ) :
    tokenIdentifier collection.tokenID nonce ≠ collection'.tokenID := by
  intro h
  have hsplit : collection'.tokenID.toList.splitOn '-' =
      [collection'.ticker, collection'.suffix] := by
    have hlist : collection'.tokenID.toList =
        collection'.ticker ++ '-' :: collection'.suffix := by
      unfold Collection.tokenID
      simp
    rw [hlist, List.splitOn_append_cons_self_of_not_mem collection'.ticker_plain,
      List.splitOn_eq_singleton collection'.suffix_plain]
  have hlen := congrArg List.length (splitOn_tokenIdentifier collection nonce)
  rw [h, hsplit] at hlen
  exact absurd hlen (by simp)

/-- What names a contract is one of its collections. -/
theorem tokenID_of_address {tokenID address : String}
    (h : service.getSimpleLockAddressByTokenID tokenID = some address) :
    ∃ collection : Collection, tokenID = collection.tokenID := by
  have hfound := List.find?_some h
  rcases of_decide_eq_true hfound with heq | heq | heq
  · exact ⟨_, heq⟩
  · exact ⟨_, heq⟩
  · exact ⟨_, heq⟩

/-! ## One call -/

/-- Where a call keeps what it fetches. -/
def writtenKey (call : Call) (identifier : String) : String :=
  match call.getter with
  | .getLockedTokenAttributes => decodedAttributesKey call.tokenID
  | .getLpTokenProxyAttributes => decodedAttributesKey identifier

theorem answer_of_some {call : Call} {id : String} (h : service.identifier call = some id)
    (cache : Cache Locked LockedLp) :
    service.answer call cache =
      service.getOrDecode id (decodedAttributesKey id) (writtenKey call id)
        (service.decode call.getter) cache := by
  obtain ⟨address, haddress, hid⟩ := Option.map_eq_some_iff.mp h
  obtain ⟨getter, tokenID, tokenNonce⟩ := call
  subst hid
  unfold answer getLockedTokenAttributes getLpTokenProxyAttributes
  dsimp only at haddress
  cases getter <;> simp only [haddress] <;> rfl

theorem getOrDecode_of_some {cache : Cache Locked LockedLp} {id readKey writtenKey : String}
    {decode : String → String → DecodedAttributes Locked LockedLp}
    {value : DecodedAttributes Locked LockedLp} (h : JsMap.get cache readKey = some value) :
    service.getOrDecode id readKey writtenKey decode cache = (⟨some value, none, none⟩, cache) := by
  unfold getOrDecode
  rw [h]

theorem getOrDecode_of_none {cache : Cache Locked LockedLp} {id readKey writtenKey : String}
    {decode : String → String → DecodedAttributes Locked LockedLp}
    (h : JsMap.get cache readKey = none) :
    service.getOrDecode id readKey writtenKey decode cache =
      (⟨some (decode id (service.attributes id)), some id,
        some (writtenKey, decode id (service.attributes id))⟩,
        JsMap.set cache writtenKey (decode id (service.attributes id))) := by
  unfold getOrDecode
  rw [h]

/-- The cache as calls of `getLpTokenProxyAttributes` leave it. -/
def KeepsProxies (cache : Cache Locked LockedLp) : Prop :=
  ∀ key value, JsMap.get cache key = some value →
    ∃ id, key = decodedAttributesKey id ∧ value = service.decoding .getLpTokenProxyAttributes id

variable {service}

/-- What is kept under a token's key. -/
theorem KeepsProxies.value {cache : Cache Locked LockedLp} (h : service.KeepsProxies cache)
    {id : String} {value : DecodedAttributes Locked LockedLp}
    (hget : JsMap.get cache (decodedAttributesKey id) = some value) :
    value = service.decoding .getLpTokenProxyAttributes id := by
  obtain ⟨id', hkey, hvalue⟩ := h _ _ hget
  rw [hvalue, decodedAttributesKey_inj hkey]

theorem KeepsProxies.set {cache : Cache Locked LockedLp} (h : service.KeepsProxies cache)
    (id : String) :
    service.KeepsProxies (JsMap.set cache (decodedAttributesKey id)
      (service.decoding .getLpTokenProxyAttributes id)) := by
  intro key value hkey
  rw [JsMap.get_set] at hkey
  split at hkey
  next heq => exact ⟨id, heq, (Option.some.inj hkey).symm⟩
  next => exact h key value hkey

/-- What is kept stays, or is replaced. -/
theorem isSome_get_set {cache : Cache Locked LockedLp} (key' : String)
    (value : DecodedAttributes Locked LockedLp) {key : String}
    (h : (JsMap.get cache key).isSome) : (JsMap.get (JsMap.set cache key' value) key).isSome := by
  rw [JsMap.get_set]
  split
  next => rfl
  next => exact h

/-- A call of `getLpTokenProxyAttributes` for a token, whatever is kept. -/
structure ProxyServed (id : String) (served : Served Locked LockedLp)
    (cache cache' : Cache Locked LockedLp) : Prop where
  result : served.result = some (service.decoding .getLpTokenProxyAttributes id)
  keyed : ∀ entry, served.written = some entry → entry.1 = decodedAttributesKey id
  fetched : (JsMap.get cache (decodedAttributesKey id)).isSome → served.fetched = none
  kept : (JsMap.get cache' (decodedAttributesKey id)).isSome
  keeps : service.KeepsProxies cache'
  grows : ∀ key, (JsMap.get cache key).isSome → (JsMap.get cache' key).isSome

/-- Calls for tokens of the proxy keep the cache as it is to be. -/
theorem KeepsProxies.answer {cache : Cache Locked LockedLp} (h : service.KeepsProxies cache)
    {call : Call} {id : String} (hgetter : call.getter = .getLpTokenProxyAttributes)
    (hid : service.identifier call = some id) :
    service.ProxyServed id (service.answer call cache).1 cache (service.answer call cache).2 := by
  have hwritten : writtenKey call id = decodedAttributesKey id := by
    unfold writtenKey
    rw [hgetter]
  rw [service.answer_of_some hid, hwritten, hgetter]
  -- an entry of a proxy is what decoding would give
  cases hget : JsMap.get cache (decodedAttributesKey id) with
  | some value =>
    rw [service.getOrDecode_of_some hget]
    exact {
      result := congrArg some (h.value hget)
      keyed := fun _ hentry => absurd hentry (by simp)
      fetched := fun _ => rfl
      kept := by simp [hget]
      keeps := h
      grows := fun _ hkey => hkey }
  | none =>
    rw [service.getOrDecode_of_none hget]
    exact {
      result := rfl
      keyed := by
        rintro entry ⟨rfl⟩
        rfl
      fetched := fun hsome => absurd hsome (by simp [hget])
      kept := by simp
      keeps := h.set id
      grows := fun _ hkey => isSome_get_set _ _ hkey }

/-- A call of `getLockedTokenAttributes` is answered with the attributes of
a proxy, or keeps the attributes under its collection. -/
theorem KeepsProxies.answer_locked {cache : Cache Locked LockedLp} (h : service.KeepsProxies cache)
    {call : Call} {id : String} (hgetter : call.getter = .getLockedTokenAttributes)
    (hid : service.identifier call = some id) :
    (service.answer call cache).1.result =
        some (service.decoding .getLpTokenProxyAttributes id) ∨
      ∃ value, (service.answer call cache).1.written =
        some (decodedAttributesKey call.tokenID, value) := by
  have hwritten : writtenKey call id = decodedAttributesKey call.tokenID := by
    unfold writtenKey
    rw [hgetter]
  rw [service.answer_of_some hid, hwritten]
  cases hget : JsMap.get cache (decodedAttributesKey id) with
  | some value =>
    rw [service.getOrDecode_of_some hget]
    exact Or.inl (congrArg some (h.value hget))
  | none =>
    rw [service.getOrDecode_of_none hget]
    exact Or.inr ⟨_, rfl⟩

/-- The call asks for the proxy of a pair token at a contract that is there. -/
def AsksForProxy (service : SimpleLockService Locked LockedLp) (call : Call) : Prop :=
  call.getter = .getLpTokenProxyAttributes ∧
    (service.getSimpleLockAddressByTokenID call.tokenID).isSome

theorem AsksForProxy.identifier {call : Call} (h : service.AsksForProxy call) :
    ∃ id, service.identifier call = some id := by
  obtain ⟨address, haddress⟩ := Option.isSome_iff_exists.mp h.2
  unfold SimpleLockService.identifier
  rw [haddress]
  exact ⟨_, rfl⟩

/-! ## Runs -/

theorem mem_run {calls : List Call} {cache : Cache Locked LockedLp}
    {s : Call × Served Locked LockedLp} (h : s ∈ service.run calls cache) : s.1 ∈ calls := by
  induction calls generalizing cache with
  | nil => exact absurd h List.not_mem_nil
  | cons call calls ih =>
    rcases List.mem_cons.mp h with rfl | hrest
    · exact List.mem_cons_self
    · exact List.mem_cons_of_mem _ (ih hrest)

/-- Where a run of such calls is, something is kept, and more is kept later. -/
theorem run_proxies {calls : List Call} {cache : Cache Locked LockedLp}
    (h : service.KeepsProxies cache) (hcalls : ∀ call ∈ calls, service.AsksForProxy call) :
    ∀ s ∈ service.run calls cache, ∃ id cache₁ cache₂, service.identifier s.1 = some id ∧
      service.ProxyServed id s.2 cache₁ cache₂ ∧
      ∀ key, (JsMap.get cache key).isSome → (JsMap.get cache₁ key).isSome := by
  induction calls generalizing cache with
  | nil => exact fun s hs => absurd hs List.not_mem_nil
  | cons call calls ih =>
    intro s hs
    have hcall := hcalls call List.mem_cons_self
    obtain ⟨id, hid⟩ := hcall.identifier
    have hserved := h.answer hcall.1 hid
    rcases List.mem_cons.mp hs with rfl | hrest
    · exact ⟨id, cache, _, hid, hserved, fun _ hkey => hkey⟩
    · obtain ⟨id', cache₁, cache₂, hid', hserved', hgrows⟩ :=
        ih hserved.keeps (fun c hc => hcalls c (List.mem_cons_of_mem _ hc)) s hrest
      exact ⟨id', cache₁, cache₂, hid', hserved',
        fun key hkey => hgrows key (hserved.grows key hkey)⟩

/-- So every call of a run is answered with what was decoded. -/
theorem run_answered {calls : List Call} {cache : Cache Locked LockedLp}
    (h : service.KeepsProxies cache) (hcalls : ∀ call ∈ calls, service.AsksForProxy call) :
    (service.run calls cache).Pairwise fun s t => s.1 = t.1 → t.2.fetched = none := by
  induction calls generalizing cache with
  | nil => exact List.Pairwise.nil
  | cons call calls ih =>
    have hcall := hcalls call List.mem_cons_self
    have hcalls' : ∀ c ∈ calls, service.AsksForProxy c :=
      fun c hc => hcalls c (List.mem_cons_of_mem _ hc)
    obtain ⟨id, hid⟩ := hcall.identifier
    have hserved := h.answer hcall.1 hid
    refine List.pairwise_cons.mpr ⟨fun t ht hsame => ?_, ih hserved.keeps hcalls'⟩
    -- what the first call has left is still there
    obtain ⟨id', cache₁, cache₂, hid', hserved', hgrows⟩ :=
      run_proxies hserved.keeps hcalls' t ht
    have hsame' : call = t.1 := hsame
    rw [← hsame', hid, Option.some.injEq] at hid'
    exact hserved'.fetched (hgrows _ (hid' ▸ hserved.kept))

/-- Runs that ask for tokens of the proxy only serve them. -/
theorem servesTokens_of_proxies {calls : List Call}
    (hcalls : ∀ call ∈ calls, service.AsksForProxy call) :
    service.ServesTokens (service.run calls []) := by
  have hempty : service.KeepsProxies [] := fun _ _ h => absurd h (by simp)
  have hserved := run_proxies hempty hcalls
  have hkeyed : ∀ s ∈ service.run calls [], ∀ entry, s.2.written = some entry →
      ∃ id, service.identifier s.1 = some id ∧ entry.1 = decodedAttributesKey id := by
    intro s hs entry hentry
    obtain ⟨id, _, _, hid, hs', -⟩ := hserved s hs
    exact ⟨id, hid, hs'.keyed entry hentry⟩
  refine ⟨?_, hkeyed, ?_, run_answered hempty hcalls⟩
  · intro s hs
    obtain ⟨id, _, _, hid, hs', -⟩ := hserved s hs
    refine ⟨id, hid, ?_⟩
    rw [hs'.result, (hcalls s.1 (mem_run hs)).1]
  · intro s hs t ht entry entry' hentry hentry' hkey
    obtain ⟨id, hid, hk⟩ := hkeyed s hs entry hentry
    obtain ⟨id', hid', hk'⟩ := hkeyed t ht entry' hentry'
    rw [hid, hid', decodedAttributesKey_inj (hk.symm.trans (hkey.trans hk'))]

/-- A run that serves its tokens asks for proxies only. -/
theorem proxies_of_servesTokens {calls : List Call} {cache : Cache Locked LockedLp}
    (h : service.KeepsProxies cache) (hserves : service.ServesTokens (service.run calls cache)) :
    ∀ call ∈ calls, service.AsksForProxy call := by
  induction calls generalizing cache with
  | nil => exact fun call hcall => absurd hcall List.not_mem_nil
  | cons call calls ih =>
    have hmem : (call, (service.answer call cache).1) ∈ service.run (call :: calls) cache :=
      List.mem_cons_self
    obtain ⟨id, hid, hresult⟩ := hserves.decoded _ hmem
    -- by induction the calls before were for proxies, and only their attributes are in
    -- the cache
    have hcall : service.AsksForProxy call := by
      obtain ⟨address, haddress, -⟩ := Option.map_eq_some_iff.mp hid
      refine ⟨?_, by rw [haddress]; rfl⟩
      cases hgetter : call.getter with
      | getLpTokenProxyAttributes => rfl
      | getLockedTokenAttributes =>
        rcases h.answer_locked hgetter hid with hproxy | ⟨value, hwritten⟩
        · rw [hproxy, hgetter] at hresult
          exact absurd (Option.some.inj hresult) (by simp [decoding, decode,
            decodeLockedTokenAttributes, decodeLpProxyTokenAttributes])
        · -- the collection would have to be the token
          obtain ⟨id', hid', hkey⟩ := hserves.keyed _ hmem _ hwritten
          obtain ⟨collection, hcollection⟩ := service.tokenID_of_address haddress
          have htoken : id' = tokenIdentifier (service.lockedTokenID address).tokenID
              call.tokenNonce := by
            simpa [SimpleLockService.identifier, haddress, hgetter] using hid'.symm
          have heq := decodedAttributesKey_inj hkey
          rw [htoken, hcollection] at heq
          exact absurd heq.symm (tokenIdentifier_ne_tokenID _ _ _)
    obtain ⟨id, hid⟩ := hcall.identifier
    have hrest : service.ServesTokens (service.run calls (service.answer call cache).2) := by
      exact {
        decoded := fun s hs => hserves.decoded s (List.mem_cons_of_mem _ hs)
        keyed := fun s hs => hserves.keyed s (List.mem_cons_of_mem _ hs)
        apart := fun s hs t ht =>
          hserves.apart s (List.mem_cons_of_mem _ hs) t (List.mem_cons_of_mem _ ht)
        answered := (List.pairwise_cons.mp hserves.answered).2 }
    intro c hc
    rcases List.mem_cons.mp hc with rfl | hc
    · exact hcall
    · exact ih (h.answer hcall.1 hid).keeps hrest c hc

/-- The cache serves tokens in the runs that ask for proxies of pair tokens,
and in no others. -/
theorem servesTokens_iff (service : SimpleLockService Locked LockedLp) (calls : List Call) :
    service.ServesTokens (service.run calls []) ↔ ∀ call ∈ calls, service.AsksForProxy call :=
  ⟨proxies_of_servesTokens fun _ _ h => absurd h (by simp), servesTokens_of_proxies⟩

end SimpleLockService

/-- One contract, and a library that leaves attributes as they are. -/
def oneContract : SimpleLockService String String where
  simpleLockAddress := ["erd1qqqqqqqqqqqqqpgqs0jjyjmx0cvek4p8yj923q5yreshtpa62jpsz6vt84"]
  lockedTokenID := fun _ => ⟨"LKESDT".toList, "1a2b3c".toList, by decide, by decide⟩
  lpProxyTokenID := fun _ => ⟨"LKLP".toList, "4d5e6f".toList, by decide, by decide⟩
  farmProxyTokenID := fun _ => ⟨"LKFARM".toList, "a1b2c3".toList, by decide, by decide⟩
  attributes := id
  lockedTokenAttributes := id
  lockedLpTokenAttributes := id

/-- The attributes of a locked token, asked for twice. -/
def askedTwice : List Call :=
  [⟨.getLockedTokenAttributes, "LKESDT-1a2b3c", 1⟩, ⟨.getLockedTokenAttributes, "LKESDT-1a2b3c", 1⟩]

/-- The contract is there, and the second call fetches what the first did. -/
theorem not_servesTokens_askedTwice :
    (∀ call ∈ askedTwice, (oneContract.getSimpleLockAddressByTokenID call.tokenID).isSome) ∧
      ¬oneContract.ServesTokens (oneContract.run askedTwice []) := by
  refine ⟨by decide +kernel, fun h => ?_⟩
  have hfetched : (oneContract.run askedTwice []).map (fun s => s.2.fetched) =
      [some "LKESDT-1a2b3c-01", some "LKESDT-1a2b3c-01"] := by decide +kernel
  have hanswered := h.answered
  simp only [askedTwice, SimpleLockService.run, List.map_cons, List.cons.injEq] at hfetched
  simp only [askedTwice, SimpleLockService.run, List.pairwise_cons] at hanswered
  have hnone := hanswered.1 _ List.mem_cons_self rfl
  rw [hfetched.2.1] at hnone
  exact absurd hnone (by simp)

end MxExchange.SimpleLock
