import MxExchange.Cache.Setters
import MxExchange.Collections.EventFed
import MxExchange.Governance.ProposalVotes

/-!
# Counters kept up to date by events

Two handlers add what an event says to a cached value: a deposit of swap
fees to the accumulated fees of its week and token
(`feesCollector.handler.service.ts`), a vote to the votes of its proposal
(`governance.handler.service.ts`). Both read the value through the cached
getter, which loads it from the contract if there is none, and the contract
has already counted the event that is being handled.

So the sum of the chain comes out at the end of every run in which a value
is loaded and stored only while the contract has counted nothing but what
the handler has (`counters_match_chain`). A single deposit with nothing
cached is counted twice (`deposit_counted_twice`).
-/

namespace MxExchange.RabbitMq

open MxExchange.Collections MxExchange.Cache MxExchange.Num MxExchange.Governance

/-! ## Fees -/

/-- The topics of a deposit. -/
structure DepositSwapFeesEvent where
  currentWeek : ℕ
  tokenIdentifier : TokenIdentifier
  amount : ℕ

/-- The call of the getter, and with it the key that getter and setter use. -/
def accumulatedFeesSetter (week : ℕ) (token : TokenIdentifier) : FeesCollectorSetterService :=
  .accumulatedFees week token

/-- Keys tell weeks and tokens apart. -/
theorem accumulatedFeesSetter_inj {week week' : ℕ} {token token' : TokenIdentifier}
    (h : (accumulatedFeesSetter week token).getter.cacheKey =
      (accumulatedFeesSetter week' token').getter.cacheKey) :
    (week, token) = (week', token') := by
  have hcall := GetterCall.cached.inj (cacheKey_inj
    (accumulatedFeesSetter week' token').getter_declared rfl
    (g := .cached (accumulatedFeesSetter week token).getter)
    (accumulatedFeesSetter week token).getter_declared h)
  simp only [accumulatedFeesSetter, FeesCollectorSetterService.getter, CachedCall.mk.injEq,
    List.cons.injEq, CacheArg.number.injEq, CacheArg.string.injEq, true_and, and_true] at hcall
  obtain ⟨rfl, htoken⟩ := hcall
  cases token
  cases token'
  simpa using htoken

/-- The accumulated fees: the contract adds a deposit up, the getter prints
the sum, and `handleDepositSwapFeesEvent` adds the deposit to what the
getter gave it. -/
def accumulatedFees : EventFed (ℕ × TokenIdentifier) ℕ DepositSwapFeesEvent BigNumber BigNumber
    String where
  keyOf topics := (topics.currentWeek, topics.tokenIdentifier)
  change fees topics := fees + topics.amount
  load fees := (BigNumber.ofNat fees).integerValue
  apply accumulatedFees topics := accumulatedFees.plus (.ofNat topics.amount)
  read := id
  cacheKey k := (accumulatedFeesSetter k.1 k.2).getter.cacheKey
  cacheKey_inj _ _ h := accumulatedFeesSetter_inj h

/-- What the getter prints of the contract's sum. -/
theorem accumulatedFees_load (fees : ℕ) : accumulatedFees.load fees = .ofNat fees := by
  simp [accumulatedFees, BigNumber.ofNat]

/-- The handler's sum is what the getter would print after the deposit. -/
theorem accumulatedFees_faithful (topics : DepositSwapFeesEvent) :
    accumulatedFees.Faithful topics := by
  intro v fees hv
  have hv' : v = .ofNat fees := hv.trans (accumulatedFees_load fees)
  show v.plus (.ofNat topics.amount) = accumulatedFees.load (fees + topics.amount)
  rw [hv', accumulatedFees_load, ofNat_plus]

/-! ## Votes -/

/-- The counters of a record. -/
structure Counters where
  upVotes : BigNumber
  downVotes : BigNumber
  downVetoVotes : BigNumber
  abstainVotes : BigNumber
  totalVotes : Option BigNumber
  quorum : BigNumber
  deriving DecidableEq

/-- What a record counts; its other field is a percentage. -/
def counters (record : ProposalVotes) : Counters :=
  ⟨record.upVotes, record.downVotes, record.downVetoVotes, record.abstainVotes,
    record.totalVotes, record.quorum⟩

/-- The votes of a proposal: the contract counts each for its own type, and
`handleGovernanceVoteEvent` in its way. -/
def proposalVotesCounter : EventFed (Address × ℕ) ContractVotes (VoteEvent × GOVERNANCE_EVENTS)
    ProposalVotes Counters String where
  keyOf vote := (vote.1.address, vote.1.proposalId)
  change votes vote := tally (some votes) [vote]
  load votes := proposalVotesRaw (some votes)
  apply record vote := increaseProposalVotes record vote.1 vote.2
  read := counters
  cacheKey k := proposalVotesKey k.1 k.2
  cacheKey_inj _ _ h := Prod.ext (proposalVotesKey_inj h).1 (proposalVotesKey_inj h).2

/-- No vote with veto, unless without any power. -/
def NoVeto (vote : VoteEvent × GOVERNANCE_EVENTS) : Prop :=
  vote.2 = .DOWN_VETO → vote.1.nrVotes = 0

instance : DecidablePred NoVeto := fun vote =>
  inferInstanceAs (Decidable (vote.2 = .DOWN_VETO → vote.1.nrVotes = 0))

/-- What the getter reads of the contract's counters. -/
theorem counters_raw (votes : ContractVotes) : counters (proposalVotesRaw (some votes)) =
    ⟨.ofNat votes.up_votes, .ofNat votes.down_votes, .ofNat votes.down_veto_votes,
      .ofNat votes.abstain_votes, some (.ofNat votes.total), .ofNat votes.quorum⟩ := by
  rw [counters, proposalVotesRaw_totalVotes]
  rfl

/-- A vote other than a veto is counted as the contract counts it. -/
theorem proposalVotesCounter_faithful (vote : VoteEvent × GOVERNANCE_EVENTS) (h : NoVeto vote) :
    proposalVotesCounter.Faithful vote := by
  obtain ⟨event, voteType⟩ := vote
  intro record votes hrecord
  show counters (increaseProposalVotes record event voteType) =
    counters (proposalVotesRaw (some (tally (some votes) [(event, voteType)])))
  replace hrecord : counters record = counters (proposalVotesRaw (some votes)) := hrecord
  rw [counters_raw] at hrecord ⊢
  simp only [counters, Counters.mk.injEq] at hrecord
  obtain ⟨hup, hdown, hveto, habstain, htotal, hquorum⟩ := hrecord
  have hpower : ∀ kind, votingPower kind [(event, voteType)] =
      if voteType = kind then event.nrVotes else 0 := by
    intro kind
    simpa using votingPower_append kind [] (event, voteType)
  cases voteType with
  | DOWN_VETO =>
    have hzero : event.nrVotes = 0 := h rfl
    simp [counters, increaseProposalVotes, newBigNumber, hup, hdown, hveto, habstain, htotal,
      hquorum, ofNat_plus, tally, hpower, ContractVotes.total, hzero]
  | UP | DOWN | ABSTAIN =>
    simp only [counters, increaseProposalVotes, newBigNumber, hup, hdown, hveto, habstain, htotal,
      hquorum, ofNat_plus, tally, hpower, ContractVotes.total, Option.getD_some, if_true,
      reduceCtorEq, if_false, add_zero, List.map_cons, List.map_nil, List.sum_singleton]
    congr 3
    omega

/-! ## Runs -/

/-- The chain's fees and votes come out at the end of any two runs, unless a
value has been stored that contained events still to be handled, or a veto
has been cast. -/
theorem counters_match_chain (fees : ℕ × TokenIdentifier → ℕ)
    (deposits : List (EventFed.Action (ℕ × TokenIdentifier) DepositSwapFeesEvent))
    (s : EventFed.State (ℕ × TokenIdentifier) ℕ DepositSwapFeesEvent BigNumber String)
    (hdeposits : Meets accumulatedFees.step (accumulatedFees.Sound fun _ => True)
      (EventFed.start fees) deposits)
    (hfees : run accumulatedFees.step (EventFed.start fees) deposits = some s)
    (votes : Address × ℕ → ContractVotes)
    (ballots : List (EventFed.Action (Address × ℕ) (VoteEvent × GOVERNANCE_EVENTS)))
    (t : EventFed.State (Address × ℕ) ContractVotes (VoteEvent × GOVERNANCE_EVENTS)
      ProposalVotes String)
    (hballots : Meets proposalVotesCounter.step (proposalVotesCounter.Sound NoVeto)
      (EventFed.start votes) ballots)
    (hvotes : run proposalVotesCounter.step (EventFed.start votes) ballots = some t) :
    (EventFed.Quiescent s → ∀ week token,
      accumulatedFees.value s (week, token) = .ofNat (s.source (week, token))) ∧
    (EventFed.Quiescent t → ∀ scAddress proposalId,
      counters (proposalVotesCounter.value t (scAddress, proposalId)) =
        counters (proposalVotesRaw (some (t.source (scAddress, proposalId))))) := by
  constructor
  · intro hrest week token
    have hvalue := EventFed.run_value (fun topics _ => accumulatedFees_faithful topics) hdeposits
      hfees hrest (week, token)
    exact hvalue.trans (accumulatedFees_load _)
  · intro hrest scAddress proposalId
    exact EventFed.run_value proposalVotesCounter_faithful hballots hvotes hrest
      (scAddress, proposalId)

/-! ## A deposit with nothing cached -/

def depositToken : TokenIdentifier where
  text := "WEGLD-bd4d79"
  dash := by decide
  plain := by decide

def sampleDeposit : DepositSwapFeesEvent := ⟨1, depositToken, 5⟩

/-- A deposit whose week has nothing cached when it is handled. -/
def uncachedRun : List (EventFed.Action (ℕ × TokenIdentifier) DepositSwapFeesEvent) :=
  [.emit sampleDeposit, .handlerRead, .handlerStore, .handlerWrite]

/-- Where the run ends. -/
def uncachedEnd : EventFed.State (ℕ × TokenIdentifier) ℕ DepositSwapFeesEvent BigNumber String :=
  (run accumulatedFees.step (EventFed.start fun _ => 0) uncachedRun).getD
    (EventFed.start fun _ => 0)

/-- The chain has five, the getter says ten. -/
theorem deposit_counted_twice :
    run accumulatedFees.step (EventFed.start fun _ => 0) uncachedRun = some uncachedEnd ∧
    EventFed.Quiescent uncachedEnd ∧ uncachedEnd.source (1, depositToken) = 5 ∧
    accumulatedFees.value uncachedEnd (1, depositToken) = .ofNat 10 ∧
    ¬∀ (fees : ℕ × TokenIdentifier → ℕ)
      (actions : List (EventFed.Action (ℕ × TokenIdentifier) DepositSwapFeesEvent))
      (s : EventFed.State (ℕ × TokenIdentifier) ℕ DepositSwapFeesEvent BigNumber String),
      run accumulatedFees.step (EventFed.start fees) actions = some s → EventFed.Quiescent s →
      ∀ week token, accumulatedFees.value s (week, token) = .ofNat (s.source (week, token)) := by
  have hrun : run accumulatedFees.step (EventFed.start fun _ => 0) uncachedRun =
      some uncachedEnd := rfl
  have hrest : EventFed.Quiescent uncachedEnd := ⟨rfl, rfl⟩
  have hvalue : accumulatedFees.value uncachedEnd (1, depositToken) = .ofNat 10 := by
    decide +kernel
  refine ⟨hrun, hrest, by decide +kernel, hvalue, ?_⟩
  intro h
  have hright := h _ _ _ hrun hrest 1 depositToken
  rw [hvalue] at hright
  exact absurd hright (by decide +kernel)

/-! ## Deposits and votes with the values cached -/

/-- What the handler does with an event for which a value is cached. -/
def handled {κ ε : Type} : List (EventFed.Action κ ε) := [.handlerRead, .handlerWrite]

/-- Two deposits in a week and one in the next; in between the value of the first
week expires and is cached again. -/
def cachedRun : List (EventFed.Action (ℕ × TokenIdentifier) DepositSwapFeesEvent) :=
  [.read (1, depositToken), .store 0, .emit sampleDeposit] ++ handled ++
    [.expire (1, depositToken), .read (1, depositToken), .store 0, .read (2, depositToken),
      .store 0, .emit ⟨1, depositToken, 7⟩, .emit ⟨2, depositToken, 4⟩] ++ handled ++ handled

/-- Two votes on a proposal, and after an expiry a third one. While the first is
being handled a reader stores what it loaded before it. -/
def votesRun : List (EventFed.Action (Address × ℕ) (VoteEvent × GOVERNANCE_EVENTS)) :=
  let proposal : Address × ℕ := (sampleGovernance, 1)
  let vote (nrVotes : ℕ) : VoteEvent := ⟨sampleGovernance, sampleGovernance, 1, nrVotes, nrVotes⟩
  [.read proposal, .read proposal, .store 0, .emit (vote 20, .UP), .handlerRead, .store 0,
    .handlerWrite, .emit (vote 5, .DOWN)] ++ handled ++
    [.expire proposal, .read proposal, .store 0, .emit (vote 9, .UP)] ++ handled

def cachedEnd : EventFed.State (ℕ × TokenIdentifier) ℕ DepositSwapFeesEvent BigNumber String :=
  (run accumulatedFees.step (EventFed.start fun _ => 0) cachedRun).getD
    (EventFed.start fun _ => 0)

/-- The state after votes of three kinds and an expiry. -/
def votesEnd : EventFed.State (Address × ℕ) ContractVotes (VoteEvent × GOVERNANCE_EVENTS)
    ProposalVotes String :=
  (run proposalVotesCounter.step (EventFed.start fun _ => ⟨0, 0, 0, 0, 0⟩) votesRun).getD
    (EventFed.start fun _ => ⟨0, 0, 0, 0, 0⟩)

/-- Both caches end with what the chain has. -/
theorem counters_match_chain_cached :
    (accumulatedFees.value cachedEnd (1, depositToken) = .ofNat 12 ∧
      accumulatedFees.value cachedEnd (2, depositToken) = .ofNat 4) ∧
    counters (proposalVotesCounter.value votesEnd (sampleGovernance, 1)) =
      ⟨.ofNat 29, .ofNat 5, .ofNat 0, .ofNat 0, some (.ofNat 34), .ofNat 34⟩ := by
  have hmatch := counters_match_chain (fun _ => 0) cachedRun cachedEnd (by decide +kernel) rfl
    (fun _ => ⟨0, 0, 0, 0, 0⟩) votesRun votesEnd (by decide +kernel) rfl
  have hfees := hmatch.1 ⟨rfl, rfl⟩
  have hvotes := hmatch.2 ⟨rfl, rfl⟩
  refine ⟨⟨?_, ?_⟩, ?_⟩
  · rw [hfees]
    decide +kernel
  · rw [hfees]
    decide +kernel
  · rw [hvotes, counters_raw]
    decide +kernel

end MxExchange.RabbitMq
