import MxExchange.Collections.Memo
import MxExchange.Farm.BoostedRewards
import Mathlib.Data.List.Induction

/-!
# `farm.v2.compute.service.ts`: boosted rewards from the cache

Three methods answer from the cache under a key made of the farm, the user
and the week. The liquidity, which the answer depends on as well, is not part
of any key, so a call is answered with what was computed for the first
liquidity that was asked for (`call_answer`). `keyed_iff` says which
sequences of calls are answered right all the same, and on which states of
the chain every one is.
-/

namespace MxExchange.Farm

open MxExchange.Num WeeklyRewards Collections

/-- What the computations read, fixed. -/
structure ChainState where
  farmAbi : FarmAbiServiceV2
  weeklyRewardsSplittingAbi : WeeklyRewardsSplittingAbiService
  contextGetter : ContextGetterService
  computeTokenPriceDerivedUSD : String → BigNumber

/-- What the methods are called with. The liquidity is the value of the text
that is passed, `NaN` if it is not a number. -/
structure Arguments where
  scAddress : String
  userAddress : String
  week : ℕ
  liquidity : BigNumber
  deriving DecidableEq

/-! ## Without the cache -/

section Raw

variable (chain : ChainState) (args : Arguments)

/-- What a computation yields on the chain as it is, for one user, week and
liquidity. -/
def rewards : List (EsdtTokenPayment BigNumber) :=
  computeUserRewardsForWeek chain.farmAbi chain.weeklyRewardsSplittingAbi args.scAddress
    args.userAddress args.week args.liquidity

def accumulated : Except String BigNumber :=
  computeUserAccumulatedRewards chain.farmAbi chain.weeklyRewardsSplittingAbi chain.contextGetter
    args.scAddress args.userAddress args.week args.liquidity

/-- The percentages of the payments by value. -/
def distributionOf (payments : List (EsdtTokenPayment BigNumber)) : List TokenDistributionModel :=
  computeDistribution chain.computeTokenPriceDerivedUSD payments

end Raw

/-! ## With the cache -/

/-- The arguments that become part of a key. -/
def Arguments.keyText (args : Arguments) : String :=
  args.scAddress ++ "." ++ args.userAddress ++ "." ++ toString args.week

/-- The liquidity is an argument, but not of the key. -/
def Arguments.cacheKey (method : String) (args : Arguments) : String :=
  "farm." ++ method ++ "." ++ args.keyText

def rewardsKey : Arguments → String := Arguments.cacheKey "userRewardsForWeek"

def accumulatedKey : Arguments → String := Arguments.cacheKey "userAccumulatedRewards"

def distributionKey : Arguments → String := Arguments.cacheKey "userRewardsDistributionForWeek"

/-- The entries of each of the three methods. The name of the method is in the
key, so none of them has a key of another one's. -/
structure CachingService where
  rewards : JsMap String (List (EsdtTokenPayment BigNumber))
  accumulated : JsMap String BigNumber
  distribution : JsMap String (List TokenDistributionModel)

/-- Nothing has been asked. -/
def emptyCache : CachingService :=
  { rewards := []
    accumulated := []
    distribution := [] }

/-- The cached computation. -/
def userRewardsForWeek (chain : ChainState) (args : Arguments) (cache : CachingService) :
    Except String (List (EsdtTokenPayment BigNumber)) × CachingService :=
  let (value, entries) := getOrCompute (rewardsKey args) (.ok (rewards chain args)) cache.rewards
  (value, { cache with rewards := entries })

/-- The other cached computation. -/
def userAccumulatedRewards (chain : ChainState) (args : Arguments) (cache : CachingService) :
    Except String BigNumber × CachingService :=
  let (value, entries) :=
    getOrCompute (accumulatedKey args) (accumulated chain args) cache.accumulated
  (value, { cache with accumulated := entries })

/-- `computeUserRewardsDistributionForWeek`, which takes the rewards from the
cache, is made only if its own entry is missing. -/
def userRewardsDistributionForWeek (chain : ChainState) (args : Arguments)
    (cache : CachingService) : Except String (List TokenDistributionModel) × CachingService :=
  match JsMap.get cache.distribution (distributionKey args) with
  | some value => (.ok value, cache)
  | none =>
    let (userRewards, cache) := userRewardsForWeek chain args cache
    let (value, entries) := getOrCompute (distributionKey args)
      (userRewards.map (distributionOf chain)) cache.distribution
    (value, { cache with distribution := entries })

/-- The calls that are made of the service. -/
inductive Call where
  | userRewardsForWeek (args : Arguments)
  | userAccumulatedRewards (args : Arguments)
  | userRewardsDistributionForWeek (args : Arguments)

def Call.args : Call → Arguments
  | .userRewardsForWeek args => args
  | .userAccumulatedRewards args => args
  | .userRewardsDistributionForWeek args => args

inductive Answer where
  | payments (value : Except String (List (EsdtTokenPayment BigNumber)))
  | amount (value : Except String BigNumber)
  | distribution (value : Except String (List TokenDistributionModel))

/-- A call on the cache as it is. -/
def run (chain : ChainState) (cache : CachingService) : Call → Answer × CachingService
  | .userRewardsForWeek args =>
    let (value, cache) := userRewardsForWeek chain args cache
    (.payments value, cache)
  | .userAccumulatedRewards args =>
    let (value, cache) := userAccumulatedRewards chain args cache
    (.amount value, cache)
  | .userRewardsDistributionForWeek args =>
    let (value, cache) := userRewardsDistributionForWeek chain args cache
    (.distribution value, cache)

/-- What a call computes for its own liquidity. -/
def raw (chain : ChainState) : Call → Answer
  | .userRewardsForWeek args => .payments (.ok (rewards chain args))
  | .userAccumulatedRewards args => .amount (accumulated chain args)
  | .userRewardsDistributionForWeek args =>
    .distribution (.ok (distributionOf chain (rewards chain args)))

/-- The cache after a sequence of calls. -/
def cacheAfter (chain : ChainState) (calls : List Call) : CachingService :=
  calls.foldl (fun cache call => (run chain cache call).2) emptyCache

/-- Every call is answered with what it computes itself. -/
def Keyed (chain : ChainState) (calls : List Call) : Prop :=
  ∀ earlier call later, calls = earlier ++ call :: later →
    (run chain (cacheAfter chain earlier) call).1 = raw chain call

/-! ## Keys -/

/-- Keys do not tell liquidities apart. -/
theorem cacheKey_eq_iff {method : String} {a b : Arguments} :
    a.cacheKey method = b.cacheKey method ↔ a.keyText = b.keyText := by
  unfold Arguments.cacheKey
  exact String.append_right_inj _

/-! ## What the cache holds -/

/-- The calls that ask for rewards: of those for a distribution, the rewards
behind it. -/
def Call.rewardsArgs : Call → Option Arguments
  | .userRewardsForWeek args => some args
  | .userRewardsDistributionForWeek args => some args
  | .userAccumulatedRewards _ => none

def Call.accumulatedArgs : Call → Option Arguments
  | .userAccumulatedRewards args => some args
  | _ => none

/-- The first call for the rewards under a key. -/
def firstRewards (chain : ChainState) (earlier : List Call) (args : Arguments) : Option Arguments :=
  firstKept rewardsKey (fun args => (.ok (rewards chain args) : Except String _))
    (earlier.filterMap Call.rewardsArgs) (rewardsKey args)

/-- The first call for the accumulated rewards under a key that did not fail. -/
def firstAccumulated (chain : ChainState) (earlier : List Call) (args : Arguments) :
    Option Arguments :=
  firstKept accumulatedKey (accumulated chain) (earlier.filterMap Call.accumulatedArgs)
    (accumulatedKey args)

/-- The cache holds the first computation under each key. -/
structure CacheInv (chain : ChainState) (calls : List Call) (cache : CachingService) : Prop where
  rewards : Remembers rewardsKey (fun args => (.ok (rewards chain args) : Except String _))
    (calls.filterMap Call.rewardsArgs) cache.rewards
  accumulated : Remembers accumulatedKey (accumulated chain)
    (calls.filterMap Call.accumulatedArgs) cache.accumulated
  distribution : ∀ args value, JsMap.get cache.distribution (distributionKey args) = some value →
    ∃ payments, JsMap.get cache.rewards (rewardsKey args) = some payments ∧
      value = distributionOf chain payments

section Runs

variable {chain : ChainState} {earlier : List Call} {cache : CachingService} {args : Arguments}

/-- Before all calls it holds nothing. -/
theorem cacheInv_empty : CacheInv chain [] emptyCache :=
  { rewards := remembers_nil
    accumulated := remembers_nil
    distribution := fun _ _ h => by cases h }

/-- The first call whose answer a call gets, with itself as the last resort. -/
def answeredAs (chain : ChainState) (earlier : List Call) : Call → Call
  | .userRewardsForWeek args => .userRewardsForWeek ((firstRewards chain earlier args).getD args)
  | .userAccumulatedRewards args =>
    .userAccumulatedRewards ((firstAccumulated chain earlier args).getD args)
  | .userRewardsDistributionForWeek args =>
    .userRewardsDistributionForWeek ((firstRewards chain earlier args).getD args)

theorem userRewardsForWeek_fst (h : CacheInv chain earlier cache) (args : Arguments) :
    (userRewardsForWeek chain args cache).1 =
      .ok (rewards chain ((firstRewards chain earlier args).getD args)) :=
  h.rewards.answer args

theorem userRewardsDistributionForWeek_fst (h : CacheInv chain earlier cache) (args : Arguments) :
    (userRewardsDistributionForWeek chain args cache).1 =
      .ok (distributionOf chain (rewards chain ((firstRewards chain earlier args).getD args))) := by
  have hfst := userRewardsForWeek_fst h args
  unfold userRewardsDistributionForWeek
  cases hget : JsMap.get cache.distribution (distributionKey args) with
  | some value =>
    obtain ⟨payments, hpayments, rfl⟩ := h.distribution args value hget
    unfold userRewardsForWeek getOrCompute at hfst
    rw [hpayments] at hfst
    show Except.ok (distributionOf chain payments) = _
    rw [Except.ok.inj hfst]
  | none =>
    show (getOrCompute (distributionKey args)
      ((userRewardsForWeek chain args cache).1.map (distributionOf chain)) cache.distribution).1 = _
    rw [hfst]
    unfold getOrCompute
    rw [hget]
    rfl

/-- A distribution in the cache goes with rewards in the cache. -/
theorem cacheInv_userRewardsForWeek (h : CacheInv chain earlier cache) (args : Arguments)
    (call : Call) (hcall : call.rewardsArgs = some args) (hother : call.accumulatedArgs = none) :
    CacheInv chain (earlier ++ [call]) (userRewardsForWeek chain args cache).2 := by
  refine { rewards := ?_, accumulated := ?_, distribution := fun other value hvalue => ?_ }
  · rw [List.filterMap_append, List.filterMap_cons_some hcall, List.filterMap_nil]
    exact h.rewards.getOrCompute args
  · rw [List.filterMap_append, List.filterMap_cons_none hother, List.filterMap_nil, List.append_nil]
    exact h.accumulated
  · obtain ⟨payments, hpayments, rfl⟩ := h.distribution other value hvalue
    refine ⟨payments, ?_, rfl⟩
    show JsMap.get (getOrCompute (rewardsKey args) (.ok (rewards chain args) : Except String _)
      cache.rewards).2 (rewardsKey other) = some payments
    exact get_getOrCompute_of_some hpayments

theorem cacheInv_userRewardsDistributionForWeek (h : CacheInv chain earlier cache)
    (args : Arguments) :
    CacheInv chain (earlier ++ [.userRewardsDistributionForWeek args])
      (userRewardsDistributionForWeek chain args cache).2 := by
  have hrewards := cacheInv_userRewardsForWeek h args (.userRewardsDistributionForWeek args) rfl rfl
  unfold userRewardsDistributionForWeek
  -- a kept distribution is answered without a look at the rewards
  cases hget : JsMap.get cache.distribution (distributionKey args) with
  | some value =>
    obtain ⟨payments, hpayments, -⟩ := h.distribution args value hget
    refine { rewards := ?_, accumulated := ?_, distribution := h.distribution }
    · rw [List.filterMap_append]
      refine h.rewards.skip (Or.inl ?_)
      rw [hpayments]
      exact Option.some_ne_none _
    · exact hrewards.accumulated
  | none =>
    refine
      { rewards := hrewards.rewards
        accumulated := hrewards.accumulated
        distribution := fun other value hvalue => ?_ }
    -- the rewards behind a new one are those of the first call under the key
    obtain ⟨kept, hkept, hthere⟩ :=
      getOrCompute_ok (ε := String) (rewardsKey args) (rewards chain args) cache.rewards
    have hentries : (getOrCompute (distributionKey args)
        ((userRewardsForWeek chain args cache).1.map (distributionOf chain)) cache.distribution).2 =
          JsMap.set cache.distribution (distributionKey args) (distributionOf chain kept) := by
      have hfst : (userRewardsForWeek chain args cache).1 = .ok kept := hkept
      rw [hfst]
      unfold getOrCompute
      rw [hget]
      rfl
    have hset : JsMap.get (JsMap.set cache.distribution (distributionKey args)
        (distributionOf chain kept)) (distributionKey other) = some value :=
      hentries ▸ hvalue
    rw [JsMap.get_set] at hset
    split at hset
    next hkey =>
      have hsame : rewardsKey other = rewardsKey args :=
        cacheKey_eq_iff.mpr (cacheKey_eq_iff.mp hkey)
      refine ⟨kept, ?_, (Option.some.inj hset).symm⟩
      rw [hsame]
      exact hthere
    next => exact hrewards.distribution other value hset

/-- **One call.** -/
theorem cacheInv_run (h : CacheInv chain earlier cache) (call : Call) :
    CacheInv chain (earlier ++ [call]) (run chain cache call).2 := by
  cases call with
  | userRewardsForWeek args => exact cacheInv_userRewardsForWeek h args _ rfl rfl
  | userRewardsDistributionForWeek args => exact cacheInv_userRewardsDistributionForWeek h args
  | userAccumulatedRewards args =>
    refine { rewards := ?_, accumulated := ?_, distribution := h.distribution }
    · rw [List.filterMap_append, List.filterMap_cons_none rfl, List.filterMap_nil, List.append_nil]
      exact h.rewards
    · rw [List.filterMap_append]
      exact h.accumulated.getOrCompute args

/-- **A sequence of calls.** -/
theorem cacheInv_cacheAfter (chain : ChainState) (calls : List Call) :
    CacheInv chain calls (cacheAfter chain calls) := by
  induction calls using List.reverseRecOn with
  | nil => exact cacheInv_empty
  | append_singleton calls call ih =>
    rw [cacheAfter, List.foldl_concat]
    exact cacheInv_run ih call

/-- A call is answered as the first one of its key. -/
theorem call_answer (h : CacheInv chain earlier cache) (call : Call) :
    (run chain cache call).1 = raw chain (answeredAs chain earlier call) := by
  cases call with
  | userRewardsForWeek args => exact congrArg Answer.payments (userRewardsForWeek_fst h args)
  | userAccumulatedRewards args => exact congrArg Answer.amount (h.accumulated.answer args)
  | userRewardsDistributionForWeek args =>
    exact congrArg Answer.distribution (userRewardsDistributionForWeek_fst h args)

/-- A sequence is keyed if each call is answered as the first one with its key
was. -/
theorem answers_iff (chain : ChainState) (calls : List Call) :
    Keyed chain calls ↔ ∀ earlier call later, calls = earlier ++ call :: later →
      raw chain (answeredAs chain earlier call) = raw chain call := by
  refine forall₄_congr fun earlier call later _ => ?_
  rw [call_answer (cacheInv_cacheAfter chain earlier)]

/-- Arguments that become the same key have the same rewards: of the chain as
it stands, neither liquidity nor anything else outside of the key counts. -/
structure Indifferent (chain : ChainState) : Prop where
  rewards : ∀ a b : Arguments, a.keyText = b.keyText → rewards chain a = rewards chain b
  accumulated : ∀ a b : Arguments, a.keyText = b.keyText → ∀ amount,
    accumulated chain a = .ok amount → accumulated chain b = .ok amount

/-- On a chain that does not look at the liquidity it makes no difference. -/
theorem rewards_firstRewards (h : Indifferent chain) :
    rewards chain ((firstRewards chain earlier args).getD args) = rewards chain args := by
  cases hfirst : firstRewards chain earlier args with
  | none => rfl
  | some first => exact h.rewards first args (cacheKey_eq_iff.mp (of_firstKept_eq_some hfirst).1)

theorem accumulated_firstAccumulated (h : Indifferent chain) :
    accumulated chain ((firstAccumulated chain earlier args).getD args) =
      accumulated chain args := by
  cases hfirst : firstAccumulated chain earlier args with
  | none => rfl
  | some first =>
    obtain ⟨hkey, amount, hamount⟩ := of_firstKept_eq_some hfirst
    have hsame := h.accumulated first args (cacheKey_eq_iff.mp hkey) amount hamount
    rw [Option.getD_some, hamount, hsame]

theorem keyed_of_indifferent (h : Indifferent chain) (calls : List Call) : Keyed chain calls := by
  refine (answers_iff chain calls).mpr fun earlier call _ _ => ?_
  cases call with
  | userRewardsForWeek args =>
    exact congrArg (fun r => Answer.payments (.ok r)) (rewards_firstRewards h)
  | userAccumulatedRewards args => exact congrArg Answer.amount (accumulated_firstAccumulated h)
  | userRewardsDistributionForWeek args =>
    exact congrArg (fun r => Answer.distribution (.ok (distributionOf chain r)))
      (rewards_firstRewards h)

/-- Two calls are enough to see a difference. -/
theorem indifferent_of_keyed (h : ∀ calls, Keyed chain calls) : Indifferent chain := by
  refine { rewards := fun a b hkey => ?_, accumulated := fun a b hkey amount hamount => ?_ }
  · have hanswer := (answers_iff chain _).mp (h [.userRewardsForWeek a, .userRewardsForWeek b])
      [.userRewardsForWeek a] (.userRewardsForWeek b) [] rfl
    have hfirst : firstRewards chain [.userRewardsForWeek a] b = some a :=
      firstKept_singleton (cacheKey_eq_iff.mpr hkey) rfl
    rw [answeredAs, hfirst] at hanswer
    exact Except.ok.inj (Answer.payments.inj hanswer)
  · have hanswer := (answers_iff chain _).mp
      (h [.userAccumulatedRewards a, .userAccumulatedRewards b])
      [.userAccumulatedRewards a] (.userAccumulatedRewards b) [] rfl
    have hfirst : firstAccumulated chain [.userAccumulatedRewards a] b = some a :=
      firstKept_singleton (cacheKey_eq_iff.mpr hkey) hamount
    rw [answeredAs, hfirst] at hanswer
    exact (Answer.amount.inj hanswer).symm.trans hamount

/-! ## Calls that agree -/

/-- No two calls with the same key differ in their arguments. -/
def OneLiquidity (calls : List Call) : Prop :=
  ∀ call ∈ calls, ∀ other ∈ calls,
    call.args.keyText = other.args.keyText → call.args = other.args

theorem args_of_rewardsArgs {call : Call} (h : call.rewardsArgs = some args) :
    call.args = args := by
  cases call with
  | userRewardsForWeek a => exact Option.some.inj h
  | userRewardsDistributionForWeek a => exact Option.some.inj h
  | userAccumulatedRewards a => cases h

theorem args_of_accumulatedArgs {call : Call} (h : call.accumulatedArgs = some args) :
    call.args = args := by
  cases call with
  | userAccumulatedRewards a => exact Option.some.inj h
  | userRewardsForWeek a => cases h
  | userRewardsDistributionForWeek a => cases h

theorem firstRewards_mem {first : Arguments} (h : firstRewards chain earlier args = some first) :
    ∃ call ∈ earlier, call.args = first := by
  obtain ⟨call, hcall, hargs⟩ := List.mem_filterMap.mp (List.mem_of_find?_eq_some h)
  exact ⟨call, hcall, args_of_rewardsArgs hargs⟩

theorem firstAccumulated_mem {first : Arguments}
    (h : firstAccumulated chain earlier args = some first) :
    ∃ call ∈ earlier, call.args = first := by
  obtain ⟨call, hcall, hargs⟩ := List.mem_filterMap.mp (List.mem_of_find?_eq_some h)
  exact ⟨call, hcall, args_of_accumulatedArgs hargs⟩

/-- With one liquidity for a key, the first call is every call. -/
theorem keyed_of_oneLiquidity {calls : List Call} (h : OneLiquidity calls) :
    Keyed chain calls := by
  refine (answers_iff chain calls).mpr fun earlier call later hcalls => ?_
  have hmem : ∀ other ∈ earlier, other.args.keyText = call.args.keyText →
      other.args = call.args := by
    intro other ho
    exact h other (by simp [hcalls, ho]) call (by simp [hcalls])
  have hrewards : (firstRewards chain earlier call.args).getD call.args = call.args := by
    cases hfirst : firstRewards chain earlier call.args with
    | none => rfl
    | some first =>
      obtain ⟨other, ho, rfl⟩ := firstRewards_mem hfirst
      exact hmem other ho (cacheKey_eq_iff.mp (of_firstKept_eq_some hfirst).1)
  have haccumulated : (firstAccumulated chain earlier call.args).getD call.args = call.args := by
    cases hfirst : firstAccumulated chain earlier call.args with
    | none => rfl
    | some first =>
      obtain ⟨other, ho, rfl⟩ := firstAccumulated_mem hfirst
      exact hmem other ho (cacheKey_eq_iff.mp (of_firstKept_eq_some hfirst).1)
  -- each getter computes from what its own cache had first, and that is of the same
  -- arguments
  cases call with
  | userRewardsForWeek args => exact congrArg (fun a => raw chain (.userRewardsForWeek a)) hrewards
  | userAccumulatedRewards args =>
    exact congrArg (fun a => raw chain (.userAccumulatedRewards a)) haccumulated
  | userRewardsDistributionForWeek args =>
    exact congrArg (fun a => raw chain (.userRewardsDistributionForWeek a)) hrewards

end Runs

/-- **Boosted rewards by liquidity.** A sequence of calls is answered right if
it keeps to one liquidity for each key, and just if each call comes to what the
first call of its key came to; every sequence is, just if the chain is
indifferent to what is not in the key. -/
theorem keyed_iff (chain : ChainState) :
    (∀ calls, OneLiquidity calls → Keyed chain calls) ∧
    (∀ calls, Keyed chain calls ↔ ∀ earlier call later, calls = earlier ++ call :: later →
      raw chain (answeredAs chain earlier call) = raw chain call) ∧
    ((∀ calls, Keyed chain calls) ↔ Indifferent chain) :=
  ⟨fun _ => keyed_of_oneLiquidity, answers_iff chain, indifferent_of_keyed, keyed_of_indifferent⟩

/-- A farm with one user who holds half of everything. -/
def halfHeld : ChainState :=
  { farmAbi :=
      { boostedYieldsFactors := fun _ =>
          { maxRewardsFactor := 10
            userRewardsEnergy := 3
            userRewardsFarm := 2
            minEnergyAmount := 1
            minFarmAmount := 1 }
        boostedYieldsRewardsPercenatage := fun _ => 2500
        rewardsPerBlock := fun _ => 100
        farmTokenSupply := fun _ => 10
        accumulatedRewardsForWeek := fun _ _ => 0 }
    weeklyRewardsSplittingAbi :=
      { totalRewardsForWeek := fun _ _ =>
          [{ tokenType := 3
             tokenID := "LKMEX-aab910"
             nonce := 0
             amount := 1000 }]
        userEnergyForWeek := fun _ _ _ =>
          { amount := 5
            lastUpdateEpoch := 0
            totalLockedTokens := 0 }
        totalEnergyForWeek := fun _ _ => 10
        getCurrentClaimProgress := fun _ _ =>
          { userError := false
            returnMessage := ""
            firstValue := none } }
    contextGetter :=
      { firstWeekStartEpoch := fun _ => 1
        currentEpoch := 1
        getBlocksCountInEpoch := fun _ _ => 14400 }
    computeTokenPriceDerivedUSD := fun _ => .ofNat 1 }

def withLiquidity (liquidity : ℕ) : Arguments :=
  { scAddress := "farm"
    userAddress := "alice"
    week := 1
    liquidity := .ofNat liquidity }

/-- Half of everything, asked for in each way, another user without any liquidity
and another week with less. -/
def sampleCalls : List Call :=
  [.userRewardsForWeek (withLiquidity 5), .userRewardsDistributionForWeek (withLiquidity 5),
    .userRewardsForWeek { withLiquidity 0 with userAddress := "bob" },
    .userAccumulatedRewards (withLiquidity 5),
    .userRewardsForWeek { withLiquidity 2 with week := 2 },
    .userRewardsForWeek (withLiquidity 5)]

theorem sampleCalls_keyed : Keyed halfHeld sampleCalls := by
  refine (keyed_iff halfHeld).1 sampleCalls ?_
  unfold OneLiquidity
  decide +kernel

/-- Asked for a liquidity of five and then for none, the cache answers with
the same payment of 500 twice. -/
theorem liquidity_not_in_key :
    ¬Keyed halfHeld
      [.userRewardsForWeek (withLiquidity 5), .userRewardsForWeek (withLiquidity 0)] := by
  intro h
  have hanswer := (answers_iff halfHeld _).mp h [.userRewardsForWeek (withLiquidity 5)]
    (.userRewardsForWeek (withLiquidity 0)) [] rfl
  have hsame : rewards halfHeld (withLiquidity 5) = rewards halfHeld (withLiquidity 0) :=
    Except.ok.inj (Answer.payments.inj hanswer)
  exact absurd hsame (by decide +kernel)

end MxExchange.Farm
