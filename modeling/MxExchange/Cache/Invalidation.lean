import MxExchange.Cache.CachedMethods
import MxExchange.Collections.Replicas
import MxExchange.Energy.EnergyCompute

/-!
# Invalidation between the processes of the service

Every process of the service keeps a cache of its own in front of the one
they share (`CacheService`: local, then remote). One of them consumes the
events of the contracts. Its handlers (`farm.handler.service.ts`,
`weeklyRewardsSplitting.handler.service.ts`, `energy.handler.service.ts`,
`token.unstake.handler.service.ts`) write what an event carries with
`setData` and publish the keys under `deleteCacheKeys`; in every process
`CacheController.deleteCacheKey` deletes them from the local cache.

A `getOrSet` sets what it has created in the remote cache, waits for that,
and then sets it in the local one; these are two steps. `setData` is one: its
key is outstanding until both entries are set, so it does not matter which of
them a getter meets first.

A getter may then answer with an old value only as long as something about
its key is outstanding (`getOrSet_old_outstanding`). This needs that no
`getOrSet` is overtaken on its way from looking to storing. It is not locked
against that: a value loaded before an event can be stored after its handler
is done, and then it stays (`overtaken_value_stays`).
-/

namespace MxExchange.Cache

open MxExchange.Collections MxExchange.Energy

/-- A payment of a token. -/
structure EsdtTokenPayment where
  tokenIdentifier : TokenIdentifier
  tokenNonce : ℕ
  amount : ℕ
  deriving DecidableEq

/-- Tokens that unlock at an epoch, and what they are then. -/
structure UnstakePairModel where
  unlockEpoch : ℕ
  lockedTokens : EsdtTokenPayment
  unlockedTokens : EsdtTokenPayment
  deriving DecidableEq

/-- What the handlers below put into the cache. -/
inductive CachedValue where
  | amount (value : ℕ)
  | week (value : ℕ)
  | energy (value : EnergyType)
  | claimProgress (energy : EnergyType) (week : ℕ)
  | unstakePairs (value : List UnstakePairModel)
  deriving DecidableEq

/-- The events that carry the state of the contract after them. -/
inductive ContractEvent where
  /-- Entering and leaving a farm of any version, claiming in one of V2. -/
  | farm (address : Address) (farmSupply : ℕ)
  | updateGlobalAmounts (address : Address) (currentWeek totalEnergy totalLockedTokens : ℕ)
  | updateUserEnergy (address caller : Address) (currentWeek : ℕ) (energy : EnergyType)
  | updateEnergy (caller : Address) (newEnergyEntry : EnergyType)
  | unlockedTokens (caller : Address) (unstakeTokens : List UnstakePairModel)

/-- The getters whose keys the handlers write. -/
def farmCall (propertyKey : String) (farmAddress : Address) : CachedCall :=
  ⟨"farm", propertyKey, [.string farmAddress.text], 0⟩

def weeklyRewardsCall (propertyKey : String) (scAddress : Address) (args : List CacheArg) :
    CachedCall :=
  ⟨"weeklyRewards", propertyKey, .string scAddress.text :: args, 0⟩

def energyCall (propertyKey : String) (userAddress : Address) : CachedCall :=
  ⟨"energy", propertyKey, [.string userAddress.text], 0⟩

def tokenUnstakeCall (propertyKey : String) (userAddress : Address) : CachedCall :=
  ⟨"tokenUnstake", propertyKey, [.string userAddress.text], 0⟩

/-- What the handler of the event sets, in its order. The entries on
outdated contracts, which it computes from other cached values, are left
out. -/
def ContractEvent.setters : ContractEvent → List (CachedCall × CachedValue)
  | farm address farmSupply => [(farmCall "farmTokenSupply" address, .amount farmSupply)]
  | updateGlobalAmounts address currentWeek totalEnergy totalLockedTokens =>
    [(weeklyRewardsCall "totalEnergyForWeek" address [.number currentWeek], .amount totalEnergy),
      (weeklyRewardsCall "totalLockedTokensForWeek" address [.number currentWeek],
        .amount totalLockedTokens)]
  | updateUserEnergy address caller currentWeek energy =>
    [(weeklyRewardsCall "currentClaimProgress" address [.string caller.text],
        .claimProgress energy currentWeek),
      (weeklyRewardsCall "userEnergyForWeek" address [.string caller.text, .number currentWeek],
        .energy energy),
      (weeklyRewardsCall "lastActiveWeekForUser" address [.string caller.text],
        .week currentWeek)]
  | updateEnergy caller newEnergyEntry =>
    [(energyCall "energyEntryForUser" caller, .energy newEnergyEntry)]
  | unlockedTokens caller unstakeTokens =>
    [(tokenUnstakeCall "unlockedTokensForUser" caller, .unstakePairs unstakeTokens)]

/-- The same by the keys of the cache: a setter writes the key of its getter. -/
def ContractEvent.writes (event : ContractEvent) : List (String × CachedValue) :=
  event.setters.map fun (call, value) => (call.cacheKey, value)

/-- What can happen next in the service, at its await points. -/
inductive ServiceAction (ρ : Type) where
  /-- A contract changes, and logs the event. -/
  | emit (event : ContractEvent)
  /-- The consumer turns to its next event. -/
  | consumeEvent
  | setData
  | publishDeleteCacheKeys
  /-- A process goes on with one of the keys it was sent. -/
  | deleteLocal (process : ρ) (i : ℕ)
  /-- A getter is called: the local cache is looked at at once. -/
  | getOrSet (process : ρ) (call : CachedCall)
  | getRemote (i : ℕ)
  | createValue (i : ℕ)
  | setRemote (i : ℕ)
  | setLocal (i : ℕ)
  | expireRemote (call : CachedCall)
  | expireLocal (process : ρ) (call : CachedCall)

/-- The same action on the caches. -/
def ServiceAction.action {ρ : Type} : ServiceAction ρ → Replicas.Action String CachedValue ρ
  | emit event => .change event.writes
  | consumeEvent => .takeUp
  | setData => .write
  | publishDeleteCacheKeys => .publish
  | deleteLocal process i => .delete process i
  | getOrSet process call => .fetch process call.cacheKey
  | getRemote i => .look i
  | createValue i => .load i
  | setRemote i => .store i
  | setLocal i => .take i
  | expireRemote call => .expireShared call.cacheKey
  | expireLocal process call => .expireCopy process call.cacheKey

/-- The caches of the processes, the contracts by the keys of their values,
and what is under way between them. -/
abbrev ServiceState (ρ : Type) := Replicas String CachedValue ρ

section Service

variable {ρ : Type} [DecidableEq ρ]

/-- A step of the service is one of its caches. -/
def serviceStep (consumer : ρ) (s : ServiceState ρ) (a : ServiceAction ρ) :
    Option (ServiceState ρ) :=
  Replicas.step consumer s a.action

/-- No `getOrSet` is overtaken: the consumer sets no key that a getter is
about to store with what it created for it, and no process is made to
delete a key that it is about to set to what it got from the remote cache or
has just set there. -/
def NotOvertaken (s : ServiceState ρ) (a : ServiceAction ρ) : Prop := s.Ordered a.action

instance (s : ServiceState ρ) (a : ServiceAction ρ) : Decidable (NotOvertaken s a) :=
  inferInstanceAs (Decidable (s.Ordered a.action))

/-- Something about the key is still to come to the process: an event that
waits or is being handled, keys that are not published, a message. -/
def Outstanding (s : ServiceState ρ) (process : ρ) (cacheKey : String) : Prop :=
  (∃ event ∈ s.waiting, ∃ write ∈ event, write.1 = cacheKey) ∨
    (∃ write ∈ s.writes, write.1 = cacheKey) ∨
    cacheKey ∈ s.written ∨ cacheKey ∈ s.told process

omit [DecidableEq ρ] in
instance (s : ServiceState ρ) (process : ρ) (cacheKey : String) :
    Decidable (Outstanding s process cacheKey) :=
  inferInstanceAs (Decidable (_ ∨ _ ∨ _ ∨ _))

omit [DecidableEq ρ] in
/-- A copy that will be dropped: something is outstanding. -/
theorem outstanding_of_covered {s : ServiceState ρ} {process : ρ} {cacheKey : String}
    {value : CachedValue} (h : s.Covered process cacheKey value) :
    value = s.source cacheKey ∨ Outstanding s process cacheKey := by
  rcases h with (h | h) | h | h
  · exact Or.inl h.symm
  · right
    obtain ⟨write, hwrite, rfl⟩ := List.mem_map.mp h
    rcases List.mem_append.mp hwrite with hwrite | hwrite
    · exact Or.inr (Or.inl ⟨write, hwrite, rfl⟩)
    · obtain ⟨event, hevent, hwrite⟩ := List.mem_flatten.mp hwrite
      exact Or.inl ⟨event, hevent, write, hwrite, rfl⟩
  · exact Or.inr (Or.inr (Or.inr (Or.inl h)))
  · exact Or.inr (Or.inr (Or.inr (Or.inr h)))

/-- In every state of a run in which no `getOrSet` is overtaken: what a
getter answers is what the contract has, or something about its key is
still outstanding. -/
theorem getOrSet_old_outstanding (consumer : ρ) (source : String → CachedValue)
    (actions : List (ServiceAction ρ)) (s : ServiceState ρ)
    (hmeets : Meets (serviceStep consumer) NotOvertaken (Replicas.start source) actions)
    (hrun : run (serviceStep consumer) (Replicas.start source) actions = some s)
    (process : ρ) (call : CachedCall) :
    s.value process call.cacheKey = s.source call.cacheKey ∨
      Outstanding s process call.cacheKey := by
  have hinv : s.Inv :=
    run_invariant Replicas.Inv (fun _ _ _ hs hok hstep => Replicas.inv_step hs hok hstep)
      (Replicas.inv_start source) hmeets hrun
  exact outstanding_of_covered (hinv.value_covered process call.cacheKey)

end Service

/-- A farm with a supply of 0, entered with 5. -/
def sampleFarm : Address := ⟨"erd1farm", by decide, by decide⟩

def farmSupplyCall : CachedCall := farmCall "farmTokenSupply" sampleFarm

/-- The API (`true`) reads the supply, the farm is entered, the consumer
(`false`) handles it, and the API drops its copy and reads again. -/
def farmEntered : List (ServiceAction Bool) :=
  [.getOrSet true farmSupplyCall, .getRemote 0, .createValue 0, .setRemote 0, .setLocal 0,
    .emit (.farm sampleFarm 5), .consumeEvent, .setData, .publishDeleteCacheKeys,
    .deleteLocal true 0, .deleteLocal false 0,
    .getOrSet true farmSupplyCall, .getRemote 0, .setLocal 0]

/-- After the run the API answers with the new supply. -/
theorem getOrSet_old_outstanding_sample :
    ((run (serviceStep false) (Replicas.start fun _ => .amount 0) farmEntered).map fun s =>
        s.value true farmSupplyCall.cacheKey) = some (.amount 5) ∧
      ∀ s, run (serviceStep false) (Replicas.start fun _ => .amount 0) farmEntered = some s →
        s.value true farmSupplyCall.cacheKey = s.source farmSupplyCall.cacheKey ∨
          Outstanding s true farmSupplyCall.cacheKey := by
  refine ⟨by decide, fun s hrun => ?_⟩
  have hmeets : Meets (serviceStep false) NotOvertaken (Replicas.start fun _ => .amount 0)
      farmEntered := by decide
  exact getOrSet_old_outstanding false (fun _ => .amount 0) farmEntered s hmeets hrun true
    farmSupplyCall

/-- The same, but what the API has created is stored when all is over. -/
def farmEnteredMeanwhile : List (ServiceAction Bool) :=
  [.getOrSet true farmSupplyCall, .getRemote 0, .createValue 0, .emit (.farm sampleFarm 5),
    .consumeEvent, .setData, .publishDeleteCacheKeys, .deleteLocal true 0, .deleteLocal false 0,
    .setRemote 0, .setLocal 0]

/-- Nothing is outstanding, and the API answers with the supply of before. -/
theorem overtaken_value_stays :
    ¬∀ (source : String → CachedValue) (actions : List (ServiceAction Bool))
      (s : ServiceState Bool), run (serviceStep false) (Replicas.start source) actions = some s →
        s.value true farmSupplyCall.cacheKey = s.source farmSupplyCall.cacheKey ∨
          Outstanding s true farmSupplyCall.cacheKey := by
  intro h
  have hafter : ((run (serviceStep false) (Replicas.start fun _ => .amount 0)
      farmEnteredMeanwhile).map fun s => (s.value true farmSupplyCall.cacheKey,
        s.source farmSupplyCall.cacheKey, decide (Outstanding s true farmSupplyCall.cacheKey))) =
      some (.amount 0, .amount 5, false) := by decide
  obtain ⟨s, hrun, hs⟩ := Option.map_eq_some_iff.mp hafter
  simp only [Prod.mk.injEq, decide_eq_false_iff_not] at hs
  obtain ⟨hvalue, hsource, hout⟩ := hs
  have hold := (h _ _ s hrun).resolve_right hout
  rw [hvalue, hsource] at hold
  exact absurd hold (by decide)

end MxExchange.Cache
