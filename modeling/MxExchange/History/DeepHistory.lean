import MxExchange.Cache.CachedMethods
import MxExchange.Collections.Runs

/-!
# Requests at a point in history

A request may carry a timestamp, and is then to see the chain as it was.
The timestamp travels in the context of the request: the decorated getters
put it behind their cache keys, and the two network clients behind their
URLs. Two places do without. Queries in flight are shared by those who ask
the same (`PendingExecutor`), whatever the timestamp, and the keys of
`ContextGetterService` have no room for it.

So a request sees the chain at its own timestamp, and leaves nothing in the
cache that another would take for something else, in every run in which
queries are shared under one timestamp only and the context is asked for
without (`deep_history_isolation`). That the keys of the views keep the
timestamps apart is `View.cacheKey_inj`. A query started for the past can
answer a request for the present (`pending_query_shared`).
-/

namespace MxExchange.History

open MxExchange.Collections MxExchange.Cache

/-- The parameters of each contract view. None goes by the base key of the
context getters. -/
structure Signatures where
  kinds : String → String → Option (List ArgKind)
  noContext : ∀ propertyKey, kinds "context" propertyKey = none

/-- A call of a getter that asks the contract: decorated with
`GetOrSetCache`, over `getGenericData`. -/
structure View (signatures : Signatures) where
  baseKey : String
  propertyKey : String
  args : List CacheArg
  plain : ∀ arg ∈ CacheArg.string baseKey :: .string propertyKey :: args, arg.Plain
  typed : ∃ kinds, signatures.kinds baseKey propertyKey = some kinds ∧
    List.Forall₂ ArgKind.Fits kinds args

/-- The two getters of `ContextGetterService` that ask for the present. -/
inductive ContextGetter where
  | getCurrentEpoch
  | getShardCurrentBlockNonce (shardID : ℕ)

/-- What a request asks for: a view of a contract, or something of the context.
-/
inductive Getter (signatures : Signatures) where
  | view (view : View signatures)
  | context (getter : ContextGetter)

variable {signatures : Signatures}

/-! ## Keys -/

/-- The call at a timestamp, where `0` stands for none. -/
def View.call (view : View signatures) (timestamp : ℕ) : CachedCall :=
  ⟨view.baseKey, view.propertyKey, view.args, timestamp⟩

def ContextGetter.params : ContextGetter → List CacheArg
  | getCurrentEpoch => [.string "context", .string "currentEpoch"]
  | getShardCurrentBlockNonce shardID =>
    [.string "context", .string "shardBlockNonce", .number shardID]

/-- `GenericGetterService.getCacheKey`: the timestamp takes no part. -/
def ContextGetter.cacheKey (getter : ContextGetter) : String :=
  generateCacheKeyFromParams getter.params

/-- The timestamp is in the key of a view only. -/
def Getter.cacheKey (timestamp : ℕ) : Getter signatures → String
  | view v => (v.call timestamp).cacheKey
  | context getter => getter.cacheKey

/-- No part of a key has a separator in it. -/
theorem View.params_plain (v : View signatures) (timestamp : ℕ) :
    ∀ arg ∈ (v.call timestamp).params, arg.Plain := by
  intro arg harg
  have harg' : arg ∈ (CacheArg.string v.baseKey :: .string v.propertyKey :: v.args) ++
      if timestamp ≠ 0 then [.number timestamp] else [] := harg
  rcases List.mem_append.mp harg' with hin | hstamp
  · exact v.plain arg hin
  · split at hstamp
    · rw [List.mem_singleton.mp hstamp]
      exact plain_number _
    · exact absurd hstamp (by simp)

theorem ContextGetter.params_plain (getter : ContextGetter) :
    ∀ arg ∈ getter.params, arg.Plain := by
  intro arg harg
  cases getter with
  | getCurrentEpoch =>
    simp only [params, List.mem_cons, List.not_mem_nil, or_false] at harg
    rcases harg with rfl | rfl
    · show '.' ∉ "context".toList
      decide
    · show '.' ∉ "currentEpoch".toList
      decide
  | getShardCurrentBlockNonce shardID =>
    simp only [params, List.mem_cons, List.not_mem_nil, or_false] at harg
    rcases harg with rfl | rfl | rfl
    · show '.' ∉ "context".toList
      decide
    · show '.' ∉ "shardBlockNonce".toList
      decide
    · exact plain_number shardID

/-- A view's key tells the call and its timestamp. -/
theorem View.cacheKey_inj {v v' : View signatures} {timestamp timestamp' : ℕ}
    (h : (v.call timestamp).cacheKey = (v'.call timestamp').cacheKey) :
    v = v' ∧ timestamp = timestamp' := by
  rw [CachedCall.cacheKey_eq, CachedCall.cacheKey_eq] at h
  have htexts := generateCacheKeyFromParams_inj (by simp [CachedCall.params])
    (by simp [CachedCall.params]) (v.params_plain timestamp) (v'.params_plain timestamp') h
  obtain ⟨baseKey, propertyKey, args, plain, kinds, hkinds, hfits⟩ := v
  obtain ⟨baseKey', propertyKey', args', plain', kinds', hkinds', hfits'⟩ := v'
  simp only [View.call, CachedCall.params, List.map_cons, List.map_append,
    List.cons.injEq] at htexts
  obtain ⟨rfl, rfl, hrest⟩ : baseKey = baseKey' ∧ propertyKey = propertyKey' ∧ _ := htexts
  -- one view, hence as many arguments on both sides
  obtain rfl : kinds = kinds' := Option.some.inj (hkinds.symm.trans hkinds')
  have hlen : (args.map CacheArg.text).length = (args'.map CacheArg.text).length := by
    rw [List.length_map, List.length_map, ← hfits.length_eq, ← hfits'.length_eq]
  obtain ⟨hargs, hstamp⟩ := List.append_inj hrest hlen
  obtain rfl := fits_text_inj hfits hfits' hargs
  exact ⟨rfl, stamp_inj hstamp⟩

/-- A view and the context do not share keys. -/
theorem view_ne_context (v : View signatures) (timestamp : ℕ) (getter : ContextGetter) :
    (v.call timestamp).cacheKey ≠ getter.cacheKey := by
  intro h
  rw [CachedCall.cacheKey_eq] at h
  have htexts := generateCacheKeyFromParams_inj (by simp [CachedCall.params])
    (by cases getter <;> simp [ContextGetter.params]) (v.params_plain timestamp)
    getter.params_plain h
  have hbase : v.baseKey = "context" := by
    cases getter <;> exact (List.cons.inj htexts).1
  obtain ⟨kinds, hkinds, -⟩ := v.typed
  rw [hbase, signatures.noContext] at hkinds
  exact absurd hkinds (by simp)

theorem ContextGetter.cacheKey_inj {getter getter' : ContextGetter}
    (h : getter.cacheKey = getter'.cacheKey) : getter = getter' := by
  have htexts := generateCacheKeyFromParams_inj (by cases getter <;> simp [params])
    (by cases getter' <;> simp [params]) getter.params_plain getter'.params_plain h
  cases getter with
  | getCurrentEpoch =>
    cases getter' with
    | getCurrentEpoch => rfl
    | getShardCurrentBlockNonce => exact absurd (congrArg List.length htexts) (by simp [params])
  | getShardCurrentBlockNonce shardID =>
    cases getter' with
    | getCurrentEpoch => exact absurd (congrArg List.length htexts) (by simp [params])
    | getShardCurrentBlockNonce shardID' =>
      simp only [params, List.map_cons, List.map_nil, List.cons.injEq, and_true, true_and] at htexts
      rw [number_text_inj htexts]

/-! ## The run of the requests -/

/-- The chain at each timestamp: what it answers to a query (queries of
different services count as different), what a view makes of the answer,
and what the API says of the context. -/
structure Network (signatures : Signatures) (Q R V : Type) where
  query : View signatures → Q
  parse : View signatures → R → V
  queryContract : ℕ → Q → R
  context : ℕ → ContextGetter → V

/-- The chain's value of what a getter is for. -/
def Network.value {Q R V : Type} (network : Network signatures Q R V) (timestamp : ℕ) :
    Getter signatures → V
  | .view v => network.parse v (network.queryContract timestamp (network.query v))
  | .context getter => network.context timestamp getter

/-- How far the call of a getter is. -/
inductive Phase (V : Type) where
  | looking
  | missed
  | waiting (promise : ℕ) (starter : Bool)
  | received (value : V)
  | returned (value : V)
  | failed

/-- A call under way, with the timestamp of its request. -/
structure Call (signatures : Signatures) (V : Type) where
  timestamp : ℕ
  getter : Getter signatures
  phase : Phase V

/-- A query on its way, under the timestamp of the call that started it.
The answer may be an error. -/
structure Promise (Q R : Type) where
  query : Q
  timestamp : ℕ
  response : Option (Option R)

/-- The cache, the calls in the order they were made, and the executor with
its dictionary of pending queries. -/
structure State (signatures : Signatures) (Q R V : Type) where
  cache : String → Option V
  calls : List (Call signatures V)
  promises : List (Promise Q R)
  dictionary : Q → Option ℕ

/-- What can happen next. `expire` is an entry leaving the cache, `other` a
getter of the program that is neither view nor context getter leaving its
value there. -/
inductive Action (signatures : Signatures) (V : Type) where
  | call (timestamp : ℕ) (getter : Getter signatures)
  | look (i : ℕ)
  | request (i : ℕ)
  | settle (promise : ℕ) (succeeds : Bool)
  | resume (i : ℕ)
  | store (i : ℕ)
  | fail (i : ℕ)
  | expire (key : String)
  | other (key : String) (value : V)

section Step

variable {Q R V : Type} [DecidableEq Q]

/-- The `i`-th call goes on to another phase. -/
def State.moveTo (s : State signatures Q R V) (i : ℕ) (c : Call signatures V) (phase : Phase V) :
    State signatures Q R V :=
  { s with calls := s.calls.set i { c with phase := phase } }

/-- `PendingExecutor.execute`: a query that is pending is shared. -/
def execute (s : State signatures Q R V) (i : ℕ) (c : Call signatures V) (query : Q) :
    State signatures Q R V :=
  match s.dictionary query with
  | some promise => s.moveTo i c (.waiting promise false)
  | none =>
    { s.moveTo i c (.waiting s.promises.length true) with
      promises := s.promises ++ [⟨query, c.timestamp, none⟩]
      dictionary := Function.update s.dictionary query (some s.promises.length) }

/-- What a promise is to the calls that wait for it. -/
def resolved (network : Network signatures Q R V) (v : View signatures) : Option R → Phase V
  | some response => .received (network.parse v response)
  | none => .failed

/-- A segment of a call between two awaits. -/
def step (network : Network signatures Q R V) (s : State signatures Q R V) :
    Action signatures V → Option (State signatures Q R V)
  | .call timestamp getter =>
    some { s with calls := s.calls ++ [⟨timestamp, getter, .looking⟩] }
  | .look i => do
    let c ← s.calls[i]?
    match c.phase with
    | .looking =>
      match s.cache (c.getter.cacheKey c.timestamp) with
      | some value => some (s.moveTo i c (.returned value))
      | none => some (s.moveTo i c .missed)
    | _ => none
  | .request i => do
    let c ← s.calls[i]?
    match c.phase, c.getter with
    | .missed, .view v => some (execute s i c (network.query v))
    -- the API is asked under the timestamp of the call, and by each call anew
    | .missed, .context getter =>
      some (s.moveTo i c (.received (network.context c.timestamp getter)))
    | _, _ => none
  | .settle p succeeds => do
    let promise ← s.promises[p]?
    match promise.response with
    | none => some { s with
        promises := s.promises.set p { promise with
          response := some (if succeeds then
            some (network.queryContract promise.timestamp promise.query) else none) } }
    | some _ => none
  | .resume i => do
    let c ← s.calls[i]?
    match c.phase, c.getter with
    | .waiting p starter, .view v =>
      let promise ← s.promises[p]?
      let response ← promise.response
      let s := s.moveTo i c (resolved network v response)
      some { s with
        dictionary :=
          if starter then Function.update s.dictionary promise.query none else s.dictionary }
    | _, _ => none
  | .store i => do
    let c ← s.calls[i]?
    match c.phase with
    | .received value => some { s.moveTo i c (.returned value) with
        cache := Function.update s.cache (c.getter.cacheKey c.timestamp) (some value) }
    | _ => none
  | .fail i => do
    let c ← s.calls[i]?
    match c.phase with
    | .missed => some (s.moveTo i c .failed)
    | _ => none
  | .expire key => some { s with cache := Function.update s.cache key none }
  | .other key value => some { s with cache := Function.update s.cache key (some value) }

def start : State signatures Q R V where
  cache := fun _ => none
  calls := []
  promises := []
  dictionary := fun _ => none

/-- What a step must look at: a pending query is shared under its own
timestamp, the context is found in the cache and left there by calls without
a timestamp only, and no other getter writes under a key of these. -/
def Isolated (network : Network signatures Q R V) (s : State signatures Q R V) :
    Action signatures V → Prop
  | .request i => ∀ c v p promise, s.calls[i]? = some c → c.getter = .view v →
      s.dictionary (network.query v) = some p → s.promises[p]? = some promise →
      promise.timestamp = c.timestamp
  | .look i => ∀ c getter, s.calls[i]? = some c → c.getter = .context getter →
      s.cache getter.cacheKey ≠ none → c.timestamp = 0
  | .store i => ∀ c getter, s.calls[i]? = some c → c.getter = .context getter → c.timestamp = 0
  | .other key _ => ∀ (getter : Getter signatures) timestamp, getter.cacheKey timestamp ≠ key
  | _ => True

end Step

/-! ## The invariant -/

section Invariant

variable {Q R V : Type} [DecidableEq Q] {network : Network signatures Q R V}
  {s s' : State signatures Q R V} {i : ℕ} {c : Call signatures V} {phase : Phase V}

/-- A call waits for a query of its own, started under its own timestamp,
and has got the chain's value at that timestamp. -/
def CallOk (network : Network signatures Q R V) (s : State signatures Q R V)
    (c : Call signatures V) : Prop :=
  match c.phase with
  | .waiting p _ => ∃ v promise, c.getter = .view v ∧ s.promises[p]? = some promise ∧
      promise.query = network.query v ∧ promise.timestamp = c.timestamp
  | .received value => value = network.value c.timestamp c.getter
  | .returned value => value = network.value c.timestamp c.getter
  | _ => True

/-- What holds of every state of an isolated run: answers are of the time that
was asked for. -/
structure Inv (network : Network signatures Q R V) (s : State signatures Q R V) : Prop where
  views : ∀ (v : View signatures) timestamp value,
    s.cache (v.call timestamp).cacheKey = some value → value = network.value timestamp (.view v)
  contexts : ∀ getter value, s.cache getter.cacheKey = some value → value = network.context 0 getter
  answers : ∀ (p : ℕ) (promise : Promise Q R) response, s.promises[p]? = some promise →
    promise.response = some (some response) →
    response = network.queryContract promise.timestamp promise.query
  pending : ∀ query p, s.dictionary query = some p →
    ∃ promise, s.promises[p]? = some promise ∧ promise.query = query
  calls : ∀ (i : ℕ) (c : Call signatures V), s.calls[i]? = some c → CallOk network s c

omit [DecidableEq Q] in
theorem inv_start : Inv network (start : State signatures Q R V) where
  views := fun _ _ _ h => absurd h (by simp [start])
  contexts := fun _ _ h => absurd h (by simp [start])
  answers := fun _ _ _ h => absurd h (by simp [start])
  pending := fun _ _ h => absurd h (by simp [start])
  calls := fun _ _ h => absurd h (by simp [start])

/-- Queries keep their names and timestamps. -/
def Extends (s s' : State signatures Q R V) : Prop :=
  ∀ (p : ℕ) (promise : Promise Q R), s.promises[p]? = some promise →
    ∃ promise' : Promise Q R, s'.promises[p]? = some promise' ∧
    promise'.query = promise.query ∧ promise'.timestamp = promise.timestamp

omit [DecidableEq Q] in
theorem extends_of_eq (h : s'.promises = s.promises) : Extends s s' :=
  fun _ promise hp => ⟨promise, by rwa [h], rfl, rfl⟩

omit [DecidableEq Q] in
/-- A promise more does not matter to the calls there are. -/
theorem CallOk.mono (h : CallOk network s c) (hext : Extends s s') : CallOk network s' c := by
  unfold CallOk at h ⊢
  split at h
  next p _ _ =>
    obtain ⟨v, promise, hgetter, hp, hquery, htimestamp⟩ := h
    obtain ⟨promise', hp', hquery', htimestamp'⟩ := hext p promise hp
    exact ⟨v, promise', hgetter, hp', hquery'.trans hquery, htimestamp'.trans htimestamp⟩
  next => exact h
  next => exact h
  next => trivial

omit [DecidableEq Q] in
/-- The other calls do not notice that one goes on. -/
theorem calls_moveTo
    (hcalls : ∀ (i : ℕ) (c : Call signatures V), s.calls[i]? = some c → CallOk network s c)
    (hext : Extends s s') (hset : s'.calls = s.calls.set i { c with phase := phase })
    (hok : CallOk network s' { c with phase := phase }) :
    ∀ (j : ℕ) (c' : Call signatures V), s'.calls[j]? = some c' → CallOk network s' c' := by
  intro j c' hj
  rw [hset, List.getElem?_set] at hj
  split at hj
  next =>
    split at hj
    next =>
      rw [← Option.some.inj hj]
      exact hok
    next => exact absurd hj (by simp)
  next => exact (hcalls j c' hj).mono hext

omit [DecidableEq Q] in
/-- A call goes on, and nothing else happens. -/
theorem inv_moveTo (hinv : Inv network s) (hok : CallOk network s { c with phase := phase }) :
    Inv network (s.moveTo i c phase) where
  views := hinv.views
  contexts := hinv.contexts
  answers := hinv.answers
  pending := hinv.pending
  calls := calls_moveTo hinv.calls (extends_of_eq rfl) rfl (hok.mono (extends_of_eq rfl))

omit [DecidableEq Q] in
theorem inv_call (hinv : Inv network s) (timestamp : ℕ) (getter : Getter signatures) :
    Inv network { s with calls := s.calls ++ [⟨timestamp, getter, .looking⟩] } where
  views := hinv.views
  contexts := hinv.contexts
  answers := hinv.answers
  pending := hinv.pending
  calls := by
    intro i c hi
    rw [List.getElem?_append] at hi
    split at hi
    next => exact (hinv.calls i c hi).mono (extends_of_eq rfl)
    next =>
      obtain ⟨_, hc⟩ := List.getElem?_eq_some_iff.mp hi
      rw [List.getElem_singleton] at hc
      rw [← hc]
      trivial

omit [DecidableEq Q] in
/-- What is in the cache is the answer. -/
theorem inv_look (hinv : Inv network s) (hi : s.calls[i]? = some c)
    (hok : Isolated network s (.look i)) {value : V}
    (hget : s.cache (c.getter.cacheKey c.timestamp) = some value) :
    Inv network (s.moveTo i c (.returned value)) := by
  refine inv_moveTo hinv ?_
  show value = network.value c.timestamp c.getter
  cases hgetter : c.getter with
  | view v =>
    rw [hgetter] at hget
    exact hinv.views v c.timestamp value hget
  | context getter =>
    rw [hgetter] at hget
    have hzero := hok c getter hi hgetter (by
      rw [show s.cache getter.cacheKey = some value from hget]
      simp)
    rw [hzero]
    exact hinv.contexts getter value hget

theorem inv_execute (hinv : Inv network s) (hi : s.calls[i]? = some c) {v : View signatures}
    (hgetter : c.getter = .view v) (hok : Isolated network s (.request i)) :
    Inv network (execute s i c (network.query v)) := by
  unfold execute
  split
  next p hpending =>
    -- shared under the same timestamp
    obtain ⟨promise, hp, hquery⟩ := hinv.pending _ p hpending
    exact inv_moveTo hinv
      ⟨v, promise, hgetter, hp, hquery, hok c v p promise hi hgetter hpending hp⟩
  next =>
    have hext : ∀ (p : ℕ) (promise : Promise Q R), s.promises[p]? = some promise →
        (s.promises ++ [⟨network.query v, c.timestamp, none⟩])[p]? = some promise := by
      intro p promise hp
      rw [List.getElem?_append_left (List.getElem?_eq_some_iff.mp hp).1]
      exact hp
    constructor
    · exact hinv.views
    · exact hinv.contexts
    · intro p promise response hp hresponse
      dsimp only at hp
      rw [List.getElem?_append] at hp
      split at hp
      next => exact hinv.answers p promise response hp hresponse
      next =>
        obtain ⟨_, hpromise⟩ := List.getElem?_eq_some_iff.mp hp
        rw [List.getElem_singleton] at hpromise
        rw [← hpromise] at hresponse
        exact absurd hresponse (by simp)
    · intro query p hp
      dsimp only at hp
      rw [Function.update_apply] at hp
      split at hp
      next heq =>
        rw [← Option.some.inj hp, heq]
        exact ⟨_, List.getElem?_concat_length, rfl⟩
      next =>
        obtain ⟨promise, hpromise, hquery⟩ := hinv.pending query p hp
        exact ⟨promise, hext p promise hpromise, hquery⟩
    · refine calls_moveTo hinv.calls (fun p promise hp => ⟨promise, hext p promise hp, rfl, rfl⟩)
        rfl ?_
      exact ⟨v, _, hgetter, List.getElem?_concat_length, rfl, rfl⟩

omit [DecidableEq Q] in
/-- The answer is the chain's at the timestamp of the starter. -/
theorem inv_settle (hinv : Inv network s) {p : ℕ} {promise : Promise Q R}
    (hp : s.promises[p]? = some promise) (succeeds : Bool) :
    Inv network { s with
      promises := s.promises.set p { promise with
        response := some (if succeeds then
          some (network.queryContract promise.timestamp promise.query) else none) } } := by
  have hext : Extends s { s with
      promises := s.promises.set p { promise with
        response := some (if succeeds then
          some (network.queryContract promise.timestamp promise.query) else none) } } := by
    intro p' promise' hp'
    show ∃ promise'', (s.promises.set p _)[p']? = _ ∧ _
    rw [List.getElem?_set]
    by_cases heq : p = p'
    · subst heq
      obtain rfl := Option.some.inj (hp.symm.trans hp')
      rw [if_pos rfl, if_pos (List.getElem?_eq_some_iff.mp hp).1]
      exact ⟨_, rfl, rfl, rfl⟩
    · rw [if_neg heq]
      exact ⟨promise', hp', rfl, rfl⟩
  -- only the answers change: that of `p` is the one just given, the others are as
  -- before
  constructor
  · exact hinv.views
  · exact hinv.contexts
  · intro p' promise' response hp' hresponse
    dsimp only at hp'
    rw [List.getElem?_set] at hp'
    split at hp'
    next =>
      split at hp'
      next =>
        rw [← Option.some.inj hp'] at hresponse ⊢
        dsimp only at hresponse ⊢
        split at hresponse
        next => exact (Option.some.inj (Option.some.inj hresponse)).symm
        next => exact absurd hresponse (by simp)
      next => exact absurd hp' (by simp)
    next => exact hinv.answers p' promise' response hp' hresponse
  · intro query p' hp'
    obtain ⟨promise', hpromise', hquery⟩ := hinv.pending query p' hp'
    obtain ⟨promise'', hpromise'', hquery', -⟩ := hext p' promise' hpromise'
    exact ⟨promise'', hpromise'', hquery'.trans hquery⟩
  · exact fun i c hi => (hinv.calls i c hi).mono hext

/-- What has been waited for is the chain's value at the call's timestamp. -/
theorem inv_resume (hinv : Inv network s) (hi : s.calls[i]? = some c) {v : View signatures}
    (hgetter : c.getter = .view v) {p : ℕ} {starter : Bool} (hphase : c.phase = .waiting p starter)
    {promise : Promise Q R} (hp : s.promises[p]? = some promise) {response : Option R}
    (hresponse : promise.response = some response) :
    Inv network { s.moveTo i c (resolved network v response) with
      dictionary :=
        if starter then Function.update s.dictionary promise.query none else s.dictionary } := by
  have hok : CallOk network s c := hinv.calls i c hi
  unfold CallOk at hok
  rw [hphase] at hok
  obtain ⟨v', promise', hgetter', hp', hquery, htimestamp⟩ := hok
  obtain rfl := Getter.view.inj (hgetter.symm.trans hgetter')
  obtain rfl := Option.some.inj (hp.symm.trans hp')
  constructor
  · exact hinv.views
  · exact hinv.contexts
  · exact hinv.answers
  · intro query p' hp'
    refine hinv.pending query p' ?_
    dsimp only at hp'
    split at hp'
    next =>
      rw [Function.update_apply] at hp'
      split at hp'
      next => exact absurd hp' (by simp)
      next => exact hp'
    next => exact hp'
  -- the promise was for the same query at the same timestamp, by `CallOk` of the call
  · refine calls_moveTo hinv.calls (extends_of_eq rfl) rfl ?_
    cases response with
    | none => trivial
    | some response =>
      show network.parse v response = network.value c.timestamp c.getter
      rw [hinv.answers p promise response hp hresponse, hquery, htimestamp, hgetter]
      rfl

omit [DecidableEq Q] in
/-- The value is stored under a key that says what it is. -/
theorem inv_store (hinv : Inv network s) (hi : s.calls[i]? = some c) {value : V}
    (hphase : c.phase = .received value) (hok : Isolated network s (.store i)) :
    Inv network { s.moveTo i c (.returned value) with
      cache := Function.update s.cache (c.getter.cacheKey c.timestamp) (some value) } := by
  -- the stored value is the call's own, and the key names its getter and its timestamp
  have hvalue : value = network.value c.timestamp c.getter := by
    have hcall := hinv.calls i c hi
    unfold CallOk at hcall
    rwa [hphase] at hcall
  constructor
  · intro v timestamp value' hget
    dsimp only at hget
    rw [Function.update_apply] at hget
    split at hget
    next hkey =>
      rw [← Option.some.inj hget, hvalue]
      cases hgetter : c.getter with
      | view v' =>
        rw [hgetter] at hkey
        obtain ⟨rfl, rfl⟩ := View.cacheKey_inj hkey
        rfl
      | context getter =>
        rw [hgetter] at hkey
        exact absurd hkey (view_ne_context v timestamp getter)
    next => exact hinv.views v timestamp value' hget
  · intro getter value' hget
    dsimp only at hget
    rw [Function.update_apply] at hget
    split at hget
    next hkey =>
      rw [← Option.some.inj hget, hvalue]
      cases hgetter : c.getter with
      | view v =>
        rw [hgetter] at hkey
        exact absurd hkey.symm (view_ne_context v c.timestamp getter)
      | context getter' =>
        rw [hgetter] at hkey
        obtain rfl := ContextGetter.cacheKey_inj hkey
        rw [hok c getter hi hgetter]
        rfl
    next => exact hinv.contexts getter value' hget
  · exact hinv.answers
  · exact hinv.pending
  · exact calls_moveTo hinv.calls (extends_of_eq rfl) rfl hvalue

omit [DecidableEq Q] in
/-- What happens to a key, if it is one of the views and the context, is that
its entry goes. -/
theorem inv_cache (hinv : Inv network s) (key : String) (entry : Option V)
    (h : entry = none ∨ ∀ (getter : Getter signatures) timestamp, getter.cacheKey timestamp ≠ key) :
    Inv network { s with cache := Function.update s.cache key entry } := by
  have hget : ∀ (getter : Getter signatures) timestamp value,
      Function.update s.cache key entry (getter.cacheKey timestamp) = some value →
      s.cache (getter.cacheKey timestamp) = some value := by
    intro getter timestamp value hget
    rw [Function.update_apply] at hget
    split at hget
    next hkey =>
      rcases h with rfl | hother
      · exact absurd hget (by simp)
      · exact absurd hkey (hother getter timestamp)
    next => exact hget
  constructor
  · exact fun v timestamp value h => hinv.views v timestamp value (hget (.view v) timestamp value h)
  · exact fun getter value h => hinv.contexts getter value (hget (.context getter) 0 value h)
  · exact hinv.answers
  · exact hinv.pending
  · exact fun i c hi => (hinv.calls i c hi).mono (extends_of_eq rfl)

/-- Every step of an isolated run keeps the invariant. -/
theorem inv_step {a : Action signatures V} (hinv : Inv network s) (hok : Isolated network s a)
    (hstep : step network s a = some s') : Inv network s' := by
  -- looks, requests and stores need the run to be isolated, as neither pending
  -- queries nor context values have the timestamp in their key
  cases a with
  | call timestamp getter =>
    obtain rfl := Option.some.inj hstep
    exact inv_call hinv timestamp getter
  | look i =>
    obtain ⟨c, hi, hstep⟩ := Option.bind_eq_some_iff.mp hstep
    split at hstep
    next =>
      split at hstep
      next value hget =>
        obtain rfl := Option.some.inj hstep
        exact inv_look hinv hi hok hget
      next =>
        obtain rfl := Option.some.inj hstep
        exact inv_moveTo hinv trivial
    next => exact absurd hstep (by simp)
  | request i =>
    obtain ⟨c, hi, hstep⟩ := Option.bind_eq_some_iff.mp hstep
    split at hstep
    next v _ hgetter =>
      obtain rfl := Option.some.inj hstep
      exact inv_execute hinv hi hgetter hok
    next getter _ hgetter =>
      obtain rfl := Option.some.inj hstep
      refine inv_moveTo hinv ?_
      show network.context c.timestamp getter = network.value c.timestamp c.getter
      rw [hgetter]
      rfl
    next => exact absurd hstep (by simp)
  | settle p succeeds =>
    obtain ⟨promise, hp, hstep⟩ := Option.bind_eq_some_iff.mp hstep
    split at hstep
    next =>
      obtain rfl := Option.some.inj hstep
      exact inv_settle hinv hp succeeds
    next => exact absurd hstep (by simp)
  | resume i =>
    obtain ⟨c, hi, hstep⟩ := Option.bind_eq_some_iff.mp hstep
    split at hstep
    next p starter v hphase hgetter =>
      obtain ⟨promise, hp, hstep⟩ := Option.bind_eq_some_iff.mp hstep
      obtain ⟨response, hresponse, hstep⟩ := Option.bind_eq_some_iff.mp hstep
      obtain rfl := Option.some.inj hstep
      exact inv_resume hinv hi hgetter hphase hp hresponse
    next => exact absurd hstep (by simp)
  | store i =>
    obtain ⟨c, hi, hstep⟩ := Option.bind_eq_some_iff.mp hstep
    split at hstep
    next value hphase =>
      obtain rfl := Option.some.inj hstep
      exact inv_store hinv hi hphase hok
    next => exact absurd hstep (by simp)
  | fail i =>
    obtain ⟨c, hi, hstep⟩ := Option.bind_eq_some_iff.mp hstep
    split at hstep
    next =>
      obtain rfl := Option.some.inj hstep
      exact inv_moveTo hinv trivial
    next => exact absurd hstep (by simp)
  | expire key =>
    obtain rfl := Option.some.inj hstep
    exact inv_cache hinv key none (Or.inl rfl)
  | other key value =>
    obtain rfl := Option.some.inj hstep
    exact inv_cache hinv key (some value) (Or.inr hok)

end Invariant

/-! ## Isolation -/

section Isolation

variable {Q R V : Type} [DecidableEq Q]

/-- The run is one of `network`'s from an empty cache, and all its steps are
isolated. -/
def IsolatedRun (network : Network signatures Q R V) (actions : List (Action signatures V))
    (s : State signatures Q R V) : Prop :=
  Meets (step network) (Isolated network) start actions ∧
    run (step network) start actions = some s

/-- In every isolated run, a call returns the chain's value at its own
timestamp, what calls without a timestamp find in the cache is the present
value, and no other request makes a difference to what is returned. -/
theorem deep_history_isolation (network : Network signatures Q R V)
    (actions : List (Action signatures V)) (s : State signatures Q R V)
    (hrun : IsolatedRun network actions s) :
    (∀ (i : ℕ) (c : Call signatures V) (value : V), s.calls[i]? = some c →
      c.phase = .returned value → value = network.value c.timestamp c.getter) ∧
    (∀ (getter : Getter signatures) (value : V), s.cache (getter.cacheKey 0) = some value →
      value = network.value 0 getter) ∧
    ∀ (actions' : List (Action signatures V)) (s' : State signatures Q R V),
      IsolatedRun network actions' s' →
      ∀ (i i' : ℕ) (c c' : Call signatures V) (value value' : V), s.calls[i]? = some c →
        s'.calls[i']? = some c' → c.timestamp = c'.timestamp → c.getter = c'.getter →
        c.phase = .returned value → c'.phase = .returned value' → value = value' := by
  have hinv : ∀ actions s, IsolatedRun network actions s → Inv network s :=
    fun actions s h => run_invariant (Inv network) (fun _ _ _ => inv_step) inv_start h.1 h.2
  have hreturned : ∀ actions s, IsolatedRun network actions s →
      ∀ (i : ℕ) (c : Call signatures V) (value : V), s.calls[i]? = some c →
        c.phase = .returned value → value = network.value c.timestamp c.getter := by
    intro actions s h i c value hi hphase
    have hcall := (hinv actions s h).calls i c hi
    unfold CallOk at hcall
    rwa [hphase] at hcall
  refine ⟨hreturned actions s hrun, ?_, ?_⟩
  · intro getter value hget
    cases getter with
    | view v => exact (hinv actions s hrun).views v 0 value hget
    | context getter => exact (hinv actions s hrun).contexts getter value hget
  · intro actions' s' hrun' i i' c c' value value' hi hi' htimestamp hgetter hphase hphase'
    rw [hreturned actions s hrun i c value hi hphase,
      hreturned actions' s' hrun' i' c' value' hi' hphase', htimestamp, hgetter]

end Isolation

/-! ## A query that is shared -/

/-- One method of a pair. -/
def sampleSignatures : Signatures where
  kinds baseKey propertyKey :=
    if baseKey = "pair" ∧ propertyKey = "state" then some [.string] else none
  noContext propertyKey := by simp

def sampleView : View sampleSignatures where
  baseKey := "pair"
  propertyKey := "state"
  args := [.string "erd1"]
  plain := by
    intro arg harg
    simp only [List.mem_cons, List.not_mem_nil, or_false] at harg
    rcases harg with rfl | rfl | rfl
    · show '.' ∉ "pair".toList
      decide
    · show '.' ∉ "state".toList
      decide
    · show '.' ∉ "erd1".toList
      decide
  typed := ⟨[.string], rfl, .cons (.string _) .nil⟩

/-- A chain that tells the time. -/
def sampleNetwork : Network sampleSignatures Unit ℕ ℕ where
  query := fun _ => ()
  parse := fun _ response => response
  queryContract := fun timestamp _ => timestamp
  context := fun timestamp _ => timestamp

/-- A call for the past, and one for the present while its query is on the
way. -/
def sharedRun : List (Action sampleSignatures ℕ) :=
  [.call 100 (.view sampleView), .look 0, .request 0, .call 0 (.view sampleView), .look 1,
    .request 1, .settle 0 true, .resume 0, .resume 1, .store 0, .store 1]

/-- The state after a present and a past call that share a promise. -/
def sharedEnd : State sampleSignatures Unit ℕ ℕ :=
  (run (step sampleNetwork) start sharedRun).getD start

/-- The call for the present gets the past, and leaves it in the cache. -/
theorem pending_query_shared :
    run (step sampleNetwork) start sharedRun = some sharedEnd ∧
    sharedEnd.calls[1]? = some ⟨0, .view sampleView, .returned 100⟩ ∧
    sharedEnd.cache ((Getter.view sampleView).cacheKey 0) = some 100 ∧
    ¬∀ (actions : List (Action sampleSignatures ℕ)) (s : State sampleSignatures Unit ℕ ℕ),
      run (step sampleNetwork) start actions = some s →
      ∀ (i : ℕ) (c : Call sampleSignatures ℕ) (value : ℕ), s.calls[i]? = some c →
        c.phase = .returned value → value = sampleNetwork.value c.timestamp c.getter := by
  have hrun : run (step sampleNetwork) start sharedRun = some sharedEnd := rfl
  have hcall : sharedEnd.calls[1]? = some ⟨0, .view sampleView, .returned 100⟩ := rfl
  refine ⟨hrun, hcall, by decide +kernel, ?_⟩
  intro h
  exact absurd (h sharedRun sharedEnd hrun 1 _ 100 hcall rfl) (by decide)

/-- A check of a step that is enough for it to be isolated; other getters do
not pass it. -/
def isolates {Q R V : Type} [DecidableEq Q] (network : Network signatures Q R V)
    (s : State signatures Q R V) : Action signatures V → Bool
  | .request i =>
    match s.calls[i]? with
    | some ⟨timestamp, .view v, _⟩ => (s.dictionary (network.query v)).all fun p =>
        (s.promises[p]?).all fun promise => promise.timestamp = timestamp
    | _ => true
  | .look i =>
    match s.calls[i]? with
    | some ⟨timestamp, .context getter, _⟩ => (s.cache getter.cacheKey).isNone || timestamp = 0
    | _ => true
  | .store i =>
    match s.calls[i]? with
    | some ⟨timestamp, .context _, _⟩ => timestamp = 0
    | _ => true
  | .other _ _ => false
  | _ => true

theorem isolated_of_isolates {Q R V : Type} [DecidableEq Q] (network : Network signatures Q R V)
    (s : State signatures Q R V) (a : Action signatures V) (h : isolates network s a = true) :
    Isolated network s a := by
  cases a with
  | request i =>
    intro ⟨timestamp, getter, phase⟩ v p promise hi hgetter hpending hp
    obtain rfl : getter = .view v := hgetter
    simpa [isolates, hi, hpending, hp] using h
  | look i =>
    intro ⟨timestamp, getter, phase⟩ getter' hi hgetter hget
    obtain rfl : getter = .context getter' := hgetter
    simpa [isolates, hi, hget] using h
  | store i =>
    intro ⟨timestamp, getter, phase⟩ getter' hi hgetter
    obtain rfl : getter = .context getter' := hgetter
    simpa [isolates, hi] using h
  | other key value => cases h
  | call timestamp getter => trivial
  | settle p succeeds => trivial
  | resume i => trivial
  | fail i => trivial
  | expire key => trivial

/-- Two calls for the past, the second of which shares the query of the first;
meanwhile a call for the present has looked in the cache, and asks when that
query is over. Another one finds what it has left. The epoch of the present is
asked for while the query of the past is on the way, and found again later. -/
def isolatedActions : List (Action sampleSignatures ℕ) :=
  [.call 100 (.view sampleView), .look 0, .request 0,
    .call 100 (.view sampleView), .look 1, .request 1,
    .call 0 (.view sampleView), .look 2,
    .call 0 (.context .getCurrentEpoch), .look 3, .request 3, .store 3,
    .settle 0 true, .resume 0, .resume 1, .store 0, .store 1,
    .request 2, .settle 1 true, .resume 2, .store 2,
    .call 0 (.view sampleView), .look 4,
    .call 0 (.context .getCurrentEpoch), .look 5]

def isolatedEnd : State sampleSignatures Unit ℕ ℕ :=
  (run (step sampleNetwork) start isolatedActions).getD start

/-- The calls for the present by themselves. -/
def presentActions : List (Action sampleSignatures ℕ) :=
  [.call 0 (.view sampleView), .look 0, .request 0, .settle 0 true, .resume 0, .store 0]

def presentEnd : State sampleSignatures Unit ℕ ℕ :=
  (run (step sampleNetwork) start presentActions).getD start

/-- Whether the call has returned the value. -/
def Call.hasReturned (c : Call sampleSignatures ℕ) (value : ℕ) : Bool :=
  match c.phase with
  | .returned v => v = value
  | _ => false

theorem deep_history_isolation_historical :
    isolatedEnd.calls.map (fun c => (c.timestamp, c.hasReturned c.timestamp)) =
      [(100, true), (100, true), (0, true), (0, true), (0, true), (0, true)] ∧
    (∀ (i : ℕ) (c : Call sampleSignatures ℕ) (value : ℕ), isolatedEnd.calls[i]? = some c →
      c.phase = .returned value → value = sampleNetwork.value c.timestamp c.getter) ∧
    (∀ (getter : Getter sampleSignatures) (value : ℕ),
      isolatedEnd.cache (getter.cacheKey 0) = some value →
        value = sampleNetwork.value 0 getter) ∧
    ∀ value value' : ℕ, isolatedEnd.calls[4]? = some ⟨0, .view sampleView, .returned value⟩ →
      presentEnd.calls[0]? = some ⟨0, .view sampleView, .returned value'⟩ → value = value' := by
  have hisolated : IsolatedRun sampleNetwork isolatedActions isolatedEnd := by
    have hchecked : Meets (step sampleNetwork) (fun s a => isolates sampleNetwork s a = true)
        start isolatedActions := by
      decide +kernel
    exact ⟨hchecked.mono (isolated_of_isolates sampleNetwork), rfl⟩
  have hpresent : IsolatedRun sampleNetwork presentActions presentEnd := by
    have hchecked : Meets (step sampleNetwork) (fun s a => isolates sampleNetwork s a = true)
        start presentActions := by
      decide +kernel
    exact ⟨hchecked.mono (isolated_of_isolates sampleNetwork), rfl⟩
  have hresult := deep_history_isolation sampleNetwork isolatedActions isolatedEnd hisolated
  refine ⟨by decide +kernel, hresult.1, hresult.2.1, ?_⟩
  intro value value' hvalue hvalue'
  exact hresult.2.2 presentActions presentEnd hpresent 4 0 _ _ value value' hvalue hvalue'
    rfl rfl rfl rfl

end MxExchange.History
