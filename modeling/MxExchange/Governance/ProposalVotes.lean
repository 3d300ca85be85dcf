import MxExchange.Cache.CacheKey
import MxExchange.Num.BigNumber

/-!
# Proposal votes, from the contract and from vote events

`proposalVotesRaw` turns the contract's answer into the record that is
cached: four counters, their total, four percentages and the quorum. Between
two loads the record is kept up to date by `increaseProposalVotes`, once for
every vote event.

What a run of events does to a record is in closed form
(`foldl_increaseProposalVotes`): a vote with veto goes to the votes against,
and the percentage of vetoes is the one of the start. So the record is the
one `proposalVotesRaw` would give for the votes counted by hand exactly when
there was no vote with veto, and the share of the vetoes did not move
(`proposalVotes_eq_raw_iff`).
-/

namespace MxExchange.Governance

open MxExchange.Collections MxExchange.Cache MxExchange.Num

/-- A decimal as `toFixed` prints it: the number, and how many decimals it
is shown with, if that is fixed. -/
structure DecimalText where
  value : BigNumber
  decimals : Option ℕ
  deriving DecidableEq

/-- `toFixed(2)`; what is not finite is printed by its name. -/
def toFixed2 : BigNumber → DecimalText
  | .fin q => ⟨.fin (truncatePlaces 2 q), some 2⟩
  | x => ⟨x, none⟩

/-- The constant `'0'`. -/
def zeroText : DecimalText := ⟨.fin 0, none⟩

/-- The model of the same name. The constructor takes a part of the fields
only, and `default()` gives neither a total nor percentages. -/
structure ProposalVotes where
  upVotes : BigNumber
  downVotes : BigNumber
  downVetoVotes : BigNumber
  abstainVotes : BigNumber
  totalVotes : Option BigNumber
  upPercentage : Option DecimalText
  downPercentage : Option DecimalText
  downVetoPercentage : Option DecimalText
  abstainPercentage : Option DecimalText
  quorum : BigNumber
  deriving DecidableEq

/-- A proposal that nobody has voted on. -/
def ProposalVotes.default : ProposalVotes where
  upVotes := .ofNat 0
  downVotes := .ofNat 0
  downVetoVotes := .ofNat 0
  abstainVotes := .ofNat 0
  totalVotes := none
  upPercentage := none
  downPercentage := none
  downVetoPercentage := none
  abstainPercentage := none
  quorum := .ofNat 0

/-- The value of `getProposalVotes`, as the contract answers it. -/
structure ContractVotes where
  up_votes : ℕ
  down_votes : ℕ
  down_veto_votes : ℕ
  abstain_votes : ℕ
  quorum : ℕ
  deriving DecidableEq

def ContractVotes.total (votes : ContractVotes) : ℕ :=
  votes.up_votes + votes.down_votes + votes.abstain_votes + votes.down_veto_votes

/-- A share of the total, as `proposalVotesRaw` prints it. -/
def percentageText (votes total : BigNumber) : DecimalText :=
  if total.isGreaterThan (.fin 0) then
    toFixed2 ((votes.dividedBy total).multipliedBy (.fin 100))
  else zeroText

/-- `proposalVotesRaw`, given the first value of the response. -/
def proposalVotesRaw : Option ContractVotes → ProposalVotes
  | none => ProposalVotes.default
  | some votes =>
    let totalVotesBigNumber :=
      (((BigNumber.ofNat votes.up_votes).plus (.ofNat votes.down_votes)).plus
        (.ofNat votes.abstain_votes)).plus (.ofNat votes.down_veto_votes)
    { upVotes := .ofNat votes.up_votes
      downVotes := .ofNat votes.down_votes
      downVetoVotes := .ofNat votes.down_veto_votes
      abstainVotes := .ofNat votes.abstain_votes
      totalVotes := some totalVotesBigNumber
      upPercentage := some (percentageText (.ofNat votes.up_votes) totalVotesBigNumber)
      downPercentage := some (percentageText (.ofNat votes.down_votes) totalVotesBigNumber)
      abstainPercentage := some (percentageText (.ofNat votes.abstain_votes) totalVotesBigNumber)
      downVetoPercentage :=
        some (percentageText (.ofNat votes.down_veto_votes) totalVotesBigNumber)
      quorum := .ofNat votes.quorum }

/-! ## `governance.handler.service.ts` -/

/-- The names of the four vote events. -/
inductive GOVERNANCE_EVENTS where
  | UP
  | DOWN
  | ABSTAIN
  | DOWN_VETO
  deriving DecidableEq

/-- A vote event: the contract it comes from, and its topics. -/
structure VoteEvent where
  address : Address
  voter : Address
  proposalId : ℕ
  nrVotes : ℕ
  quorumUsed : ℕ

/-- `new BigNumber(x)` of a field that may be missing. -/
def newBigNumber (field : Option BigNumber) : BigNumber := field.getD .nan

/-- A share of the total, as the handler prints it. -/
def handlerPercentage (votes : BigNumber) (totalVotes : Option BigNumber) : DecimalText :=
  toFixed2 ((votes.dividedBy (newBigNumber totalVotes)).multipliedBy (.fin 100))

/-- What `increaseProposalVotes` makes of the cached record. -/
def increaseProposalVotes (proposalVotes : ProposalVotes) (topics : VoteEvent)
    (voteType : GOVERNANCE_EVENTS) : ProposalVotes :=
  let nrVotes := BigNumber.ofNat topics.nrVotes
  let proposalVotes := { proposalVotes with
    totalVotes := some ((newBigNumber proposalVotes.totalVotes).plus nrVotes)
    quorum := proposalVotes.quorum.plus (.ofNat topics.quorumUsed) }
  let proposalVotes := match voteType with
    | .UP => { proposalVotes with upVotes := proposalVotes.upVotes.plus nrVotes }
    | .DOWN => { proposalVotes with downVotes := proposalVotes.downVotes.plus nrVotes }
    | .ABSTAIN => { proposalVotes with abstainVotes := proposalVotes.abstainVotes.plus nrVotes }
    -- a veto is added to the votes against
    | .DOWN_VETO => { proposalVotes with downVotes := proposalVotes.downVotes.plus nrVotes }
  let proposalVotes := { proposalVotes with
    upPercentage := some (handlerPercentage proposalVotes.upVotes proposalVotes.totalVotes)
    downPercentage := some (handlerPercentage proposalVotes.downVotes proposalVotes.totalVotes)
    abstainPercentage :=
      some (handlerPercentage proposalVotes.abstainVotes proposalVotes.totalVotes) }
  -- the source assigns `downPercentage` a second time where the veto's would come
  { proposalVotes with
    downPercentage := some (handlerPercentage proposalVotes.downVotes proposalVotes.totalVotes) }

/-- `generateCacheKeyFromParams` as the getter and the setter of
`proposalVotes` call it. -/
def proposalVotesKey (scAddress : Address) (proposalId : ℕ) : String :=
  generateCacheKeyFromParams
    [.string "governance", .string "proposalVotes", .string scAddress.text, .number proposalId]

/-- The contract, by the answers of its view, and the cached records. -/
abbrev VotesView := Address → ℕ → Option ContractVotes

abbrev VotesCache := JsMap String ProposalVotes

/-- The cached getter: the record, and the cache afterwards. -/
def proposalVotes (contract : VotesView) (scAddress : Address) (proposalId : ℕ)
    (cache : VotesCache) : ProposalVotes × VotesCache :=
  match JsMap.get cache (proposalVotesKey scAddress proposalId) with
  | some votes => (votes, cache)
  | none =>
    let votes := proposalVotesRaw (contract scAddress proposalId)
    (votes, JsMap.set cache (proposalVotesKey scAddress proposalId) votes)

/-- `handleGovernanceVoteEvent`, as far as the votes go. -/
def handleGovernanceVoteEvent (contract : VotesView) (event : VoteEvent)
    (voteType : GOVERNANCE_EVENTS) (cache : VotesCache) : VotesCache :=
  let (votes, cache) := proposalVotes contract event.address event.proposalId cache
  JsMap.set cache (proposalVotesKey event.address event.proposalId)
    (increaseProposalVotes votes event voteType)

/-- What the consumer passes on: a vote to this handler, and any other event
to a handler that leaves the records of votes alone. -/
inductive ConsumedEvent where
  | vote (event : VoteEvent) (voteType : GOVERNANCE_EVENTS)
  | other (name : String)

/-- One event of the consumer. -/
def consumeEvent (contract : VotesView) (cache : VotesCache) : ConsumedEvent → VotesCache
  | .vote event voteType => handleGovernanceVoteEvent contract event voteType cache
  | .other _ => cache

/-- The events of a run, in their order. -/
def consumeEvents (contract : VotesView) (events : List ConsumedEvent) (cache : VotesCache) :
    VotesCache :=
  events.foldl (consumeEvent contract) cache

/-! ## Counting the votes by hand -/

/-- The votes for one proposal, in their order. -/
def votesOn (scAddress : Address) (proposalId : ℕ) (events : List ConsumedEvent) :
    List (VoteEvent × GOVERNANCE_EVENTS) :=
  events.filterMap fun
    | .vote event voteType =>
      if event.address = scAddress ∧ event.proposalId = proposalId then some (event, voteType)
      else none
    | .other _ => none

/-- The power of the votes of one type. -/
def votingPower (voteType : GOVERNANCE_EVENTS) (votes : List (VoteEvent × GOVERNANCE_EVENTS)) :
    ℕ :=
  ((votes.filter fun vote => vote.2 = voteType).map fun vote => vote.1.nrVotes).sum

/-- The votes of the start, none if the contract has no answer, and each
further vote counted for its own type. -/
def tally (start : Option ContractVotes) (votes : List (VoteEvent × GOVERNANCE_EVENTS)) :
    ContractVotes :=
  let start := start.getD ⟨0, 0, 0, 0, 0⟩
  { up_votes := start.up_votes + votingPower .UP votes
    down_votes := start.down_votes + votingPower .DOWN votes
    down_veto_votes := start.down_veto_votes + votingPower .DOWN_VETO votes
    abstain_votes := start.abstain_votes + votingPower .ABSTAIN votes
    quorum := start.quorum + (votes.map fun vote => vote.1.quorumUsed).sum }

/-- What a run of votes makes of a record. -/
def increaseAll (proposalVotes : ProposalVotes) (votes : List (VoteEvent × GOVERNANCE_EVENTS)) :
    ProposalVotes :=
  votes.foldl (fun record vote => increaseProposalVotes record vote.1 vote.2) proposalVotes

section Counting

variable {start : ContractVotes} {votes : List (VoteEvent × GOVERNANCE_EVENTS)}
  {record : ProposalVotes} {vote : VoteEvent × GOVERNANCE_EVENTS}
  {voteType : GOVERNANCE_EVENTS}

/-- Voting power adds up. -/
theorem votingPower_append (voteType : GOVERNANCE_EVENTS)
    (votes : List (VoteEvent × GOVERNANCE_EVENTS)) (vote : VoteEvent × GOVERNANCE_EVENTS) :
    votingPower voteType (votes ++ [vote]) =
      votingPower voteType votes + if vote.2 = voteType then vote.1.nrVotes else 0 := by
  unfold votingPower
  rw [List.filter_append, List.map_append, List.sum_append]
  by_cases h : vote.2 = voteType <;> simp [h]

@[simp] theorem votingPower_nil : votingPower voteType [] = 0 := rfl

theorem ofNat_plus (m n : ℕ) : (BigNumber.ofNat m).plus (.ofNat n) = .ofNat (m + n) := by
  simp [BigNumber.ofNat]

theorem ofNat_inj {m n : ℕ} (h : BigNumber.ofNat m = .ofNat n) : m = n := by
  simpa [BigNumber.ofNat] using h

theorem proposalVotesRaw_totalVotes :
    (proposalVotesRaw (some start)).totalVotes = some (.ofNat start.total) := by
  simp only [proposalVotesRaw, ofNat_plus]
  rfl

/-- The counters of a record that started with `start`. -/
structure Counted (start : ContractVotes) (votes : List (VoteEvent × GOVERNANCE_EVENTS))
    (record : ProposalVotes) : Prop where
  upVotes : record.upVotes = .ofNat (tally (some start) votes).up_votes
  downVotes : record.downVotes =
    .ofNat ((tally (some start) votes).down_votes + votingPower .DOWN_VETO votes)
  downVetoVotes : record.downVetoVotes = .ofNat start.down_veto_votes
  abstainVotes : record.abstainVotes = .ofNat (tally (some start) votes).abstain_votes
  totalVotes : record.totalVotes = some (.ofNat (tally (some start) votes).total)
  downVetoPercentage : record.downVetoPercentage =
    some (percentageText (.ofNat start.down_veto_votes) (.ofNat start.total))
  quorum : record.quorum = .ofNat (tally (some start) votes).quorum

theorem counted_start : Counted start [] (proposalVotesRaw (some start)) where
  upVotes := rfl
  downVotes := rfl
  downVetoVotes := rfl
  abstainVotes := rfl
  totalVotes := proposalVotesRaw_totalVotes
  downVetoPercentage := by
    simp only [proposalVotesRaw, ofNat_plus]
    rfl
  quorum := rfl

/-! A vote adds its power to the counter of its type, a veto to that of the
votes against. -/

/-- A vote counts for its own kind only. -/
theorem increaseProposalVotes_upVotes {n : ℕ} (h : record.upVotes = .ofNat n) (event : VoteEvent)
    (voteType : GOVERNANCE_EVENTS) :
    (increaseProposalVotes record event voteType).upVotes =
      .ofNat (n + if voteType = .UP then event.nrVotes else 0) := by
  cases voteType <;> simp [increaseProposalVotes, h, ofNat_plus]

theorem increaseProposalVotes_downVotes {n : ℕ} (h : record.downVotes = .ofNat n)
    (event : VoteEvent) (voteType : GOVERNANCE_EVENTS) :
    (increaseProposalVotes record event voteType).downVotes =
      .ofNat (n + (if voteType = .DOWN then event.nrVotes else 0) +
        if voteType = .DOWN_VETO then event.nrVotes else 0) := by
  cases voteType <;> simp [increaseProposalVotes, h, ofNat_plus]

theorem increaseProposalVotes_abstainVotes {n : ℕ} (h : record.abstainVotes = .ofNat n)
    (event : VoteEvent) (voteType : GOVERNANCE_EVENTS) :
    (increaseProposalVotes record event voteType).abstainVotes =
      .ofNat (n + if voteType = .ABSTAIN then event.nrVotes else 0) := by
  cases voteType <;> simp [increaseProposalVotes, h, ofNat_plus]

/-- Nothing else depends on the type. -/
theorem increaseProposalVotes_rest (record : ProposalVotes) (event : VoteEvent)
    (voteType : GOVERNANCE_EVENTS) :
    (increaseProposalVotes record event voteType).downVetoVotes = record.downVetoVotes ∧
      (increaseProposalVotes record event voteType).downVetoPercentage =
        record.downVetoPercentage ∧
      (increaseProposalVotes record event voteType).quorum =
        record.quorum.plus (.ofNat event.quorumUsed) ∧
      (increaseProposalVotes record event voteType).totalVotes =
        some ((newBigNumber record.totalVotes).plus (.ofNat event.nrVotes)) := by
  cases voteType <;> exact ⟨rfl, rfl, rfl, rfl⟩

/-- Every vote has one type. -/
theorem total_tally_append : (tally (some start) (votes ++ [vote])).total =
    (tally (some start) votes).total + vote.1.nrVotes := by
  obtain ⟨event, voteType⟩ := vote
  simp only [tally, ContractVotes.total, votingPower_append, Option.getD_some]
  cases voteType <;> simp only [reduceCtorEq, if_true, if_false] <;> omega

/-- One more vote. -/
theorem counted_increase (h : Counted start votes record) :
    Counted start (votes ++ [vote]) (increaseProposalVotes record vote.1 vote.2) := by
  obtain ⟨hveto, hvetoText, hquorum, htotal⟩ :=
    increaseProposalVotes_rest record vote.1 vote.2
  refine ⟨?_, ?_, ?_, ?_, ?_, ?_, ?_⟩
  · rw [increaseProposalVotes_upVotes h.upVotes]
    simp only [tally, votingPower_append, add_assoc]
  · rw [increaseProposalVotes_downVotes h.downVotes]
    simp only [tally, votingPower_append]
    congr 1
    omega
  · rw [hveto, h.downVetoVotes]
  · rw [increaseProposalVotes_abstainVotes h.abstainVotes]
    simp only [tally, votingPower_append, add_assoc]
  · rw [htotal, h.totalVotes, newBigNumber, Option.getD_some, ofNat_plus, total_tally_append]
  · rw [hvetoText, h.downVetoPercentage]
  · rw [hquorum, h.quorum, ofNat_plus]
    simp only [tally, List.map_append, List.sum_append, List.map_singleton, List.sum_singleton,
      add_assoc]

/-- The counters after any votes. -/
theorem counted_increaseAll (start : ContractVotes)
    (votes : List (VoteEvent × GOVERNANCE_EVENTS)) :
    Counted start votes (increaseAll (proposalVotesRaw (some start)) votes) := by
  induction votes using List.reverseRecOn with
  | nil => exact counted_start
  | append_singleton votes vote ih =>
    rw [increaseAll, List.foldl_append]
    exact counted_increase ih

/-- After a vote three of the four percentages are those of the record's own
counters. -/
theorem increaseProposalVotes_percentages (record : ProposalVotes) (event : VoteEvent)
    (voteType : GOVERNANCE_EVENTS) :
    let votes := increaseProposalVotes record event voteType
    votes.upPercentage = some (handlerPercentage votes.upVotes votes.totalVotes) ∧
      votes.downPercentage = some (handlerPercentage votes.downVotes votes.totalVotes) ∧
      votes.abstainPercentage = some (handlerPercentage votes.abstainVotes votes.totalVotes) := by
  cases voteType <;> exact ⟨rfl, rfl, rfl⟩

theorem increaseAll_percentages (record : ProposalVotes) (h : votes ≠ []) :
    let after := increaseAll record votes
    after.upPercentage = some (handlerPercentage after.upVotes after.totalVotes) ∧
      after.downPercentage = some (handlerPercentage after.downVotes after.totalVotes) ∧
      after.abstainPercentage = some (handlerPercentage after.abstainVotes after.totalVotes) := by
  obtain ⟨init, last, rfl⟩ := List.eq_nil_or_concat votes |>.resolve_left h
  rw [List.concat_eq_append, increaseAll, List.foldl_append]
  exact increaseProposalVotes_percentages _ last.1 last.2

/-- A total that was never given stays missing, and turns into `NaN`. -/
theorem increaseAll_default_totalVotes (votes : List (VoteEvent × GOVERNANCE_EVENTS)) :
    (increaseAll ProposalVotes.default votes).totalVotes = none ∨
      (increaseAll ProposalVotes.default votes).totalVotes = some .nan := by
  induction votes using List.reverseRecOn with
  | nil => exact Or.inl rfl
  | append_singleton votes vote ih =>
    refine Or.inr ?_
    have htotal : newBigNumber (increaseAll ProposalVotes.default votes).totalVotes = .nan := by
      rcases ih with h | h <;> rw [h] <;> rfl
    rw [increaseAll, List.foldl_append, List.foldl_cons, List.foldl_nil, ← increaseAll,
      (increaseProposalVotes_rest _ _ _).2.2.2, htotal]
    rfl

theorem handlerPercentage_zero :
    handlerPercentage (.ofNat 0) (some (.ofNat 0)) = ⟨.nan, none⟩ := rfl

theorem handlerPercentage_pos {total : ℕ} (n : BigNumber) (h : total ≠ 0) :
    handlerPercentage n (some (.ofNat total)) = percentageText n (.ofNat total) := by
  have hpos : (0 : ℚ) < total := by exact_mod_cast Nat.pos_of_ne_zero h
  simp [handlerPercentage, percentageText, newBigNumber, BigNumber.ofNat, hpos]

end Counting

/-! ## When the two agree -/

/-- A record with its percentages as they look through `view`. -/
def ProposalVotes.mapPercentages (view : DecimalText → DecimalText) (record : ProposalVotes) :
    ProposalVotes :=
  { record with
    upPercentage := record.upPercentage.map view
    downPercentage := record.downPercentage.map view
    downVetoPercentage := record.downVetoPercentage.map view
    abstainPercentage := record.abstainPercentage.map view }

/-- A decimal without regard to how many zeros it is printed with. -/
def DecimalText.asNumber (text : DecimalText) : DecimalText := ⟨text.value, none⟩

/-- The contract has answered, no power was used for a veto, and if there
were votes, then the total is not zero and the share of the vetoes looks the
same as at the start. -/
def KeepsUp (view : DecimalText → DecimalText) (start : Option ContractVotes)
    (votes : List (VoteEvent × GOVERNANCE_EVENTS)) : Prop :=
  ∃ s, start = some s ∧ votingPower .DOWN_VETO votes = 0 ∧
    (votes = [] ∨ (tally start votes).total ≠ 0 ∧
      view (percentageText (.ofNat s.down_veto_votes) (.ofNat s.total)) =
        view (percentageText (.ofNat s.down_veto_votes) (.ofNat (tally start votes).total)))

/-- Nothing is changed by printing nothing. -/
theorem mapPercentages_id (record : ProposalVotes) : record.mapPercentages id = record := by
  simp [ProposalVotes.mapPercentages]

section Agreement

variable {view : DecimalText → DecimalText} {start : ContractVotes}
  {votes : List (VoteEvent × GOVERNANCE_EVENTS)}

theorem tally_veto_eq_iff : start.down_veto_votes = (tally (some start) votes).down_veto_votes ↔
    votingPower .DOWN_VETO votes = 0 := by
  simp only [tally, Option.getD_some]
  omega

/-- The record of a contract's votes, field by field. -/
theorem eq_proposalVotesRaw_iff {record : ProposalVotes} {s : ContractVotes} :
    record.mapPercentages view = (proposalVotesRaw (some s)).mapPercentages view ↔
      record.upVotes = .ofNat s.up_votes ∧ record.downVotes = .ofNat s.down_votes ∧
      record.downVetoVotes = .ofNat s.down_veto_votes ∧
      record.abstainVotes = .ofNat s.abstain_votes ∧
      record.totalVotes = some (.ofNat s.total) ∧ record.quorum = .ofNat s.quorum ∧
      record.upPercentage.map view =
        some (view (percentageText (.ofNat s.up_votes) (.ofNat s.total))) ∧
      record.downPercentage.map view =
        some (view (percentageText (.ofNat s.down_votes) (.ofNat s.total))) ∧
      record.downVetoPercentage.map view =
        some (view (percentageText (.ofNat s.down_veto_votes) (.ofNat s.total))) ∧
      record.abstainPercentage.map view =
        some (view (percentageText (.ofNat s.abstain_votes) (.ofNat s.total))) := by
  simp only [ProposalVotes.mapPercentages, proposalVotesRaw, ofNat_plus, ProposalVotes.mk.injEq,
    ContractVotes.total, Option.map_some]
  tauto

/-- The handler's record is the one of the votes counted by hand. -/
theorem increaseAll_eq_raw_iff {response : Option ContractVotes}
    (hview : view ⟨.nan, none⟩ ≠ view zeroText) :
    (increaseAll (proposalVotesRaw response) votes).mapPercentages view =
        (proposalVotesRaw (some (tally response votes))).mapPercentages view ↔
      KeepsUp view response votes := by
  rw [eq_proposalVotesRaw_iff]
  cases response with
  | none =>
    -- a total that is missing or `NaN` is no total
    constructor
    · rintro ⟨-, -, -, -, htotal, -⟩
      rcases increaseAll_default_totalVotes votes with h | h
      · exact absurd (h.symm.trans htotal) (by simp)
      · exact absurd (h.symm.trans htotal) (by simp [BigNumber.ofNat])
    · rintro ⟨s, hs, -⟩
      exact absurd hs (by simp)
  | some start =>
    have hcounted := counted_increaseAll start votes
    rw [hcounted.upVotes, hcounted.downVotes, hcounted.downVetoVotes, hcounted.abstainVotes,
      hcounted.totalVotes, hcounted.downVetoPercentage, hcounted.quorum]
    constructor
    · rintro ⟨-, -, hveto, -, -, -, hup, -, hvetoText, -⟩
      have hnoVeto := tally_veto_eq_iff.mp (ofNat_inj hveto)
      refine ⟨start, rfl, hnoVeto, ?_⟩
      rcases eq_or_ne votes [] with hnil | hne
      · exact Or.inl hnil
      refine Or.inr ⟨?_, ?_⟩
      · -- a total of zero is printed as `NaN` by the one and as `0` by the other
        intro hzero
        have hpowers : (tally (some start) votes).up_votes = 0 := by
          unfold ContractVotes.total at hzero
          omega
        rw [(increaseAll_percentages _ hne).1, hcounted.totalVotes, hcounted.upVotes, hzero,
          hpowers, handlerPercentage_zero] at hup
        exact hview (Option.some.inj hup)
      · rw [← tally_veto_eq_iff.mpr hnoVeto] at hvetoText
        exact Option.some.inj hvetoText
    · rintro ⟨s, hs, hnoVeto, hvotes⟩
      obtain rfl : start = s := Option.some.inj hs
      rw [← tally_veto_eq_iff.mpr hnoVeto, hnoVeto]
      refine ⟨rfl, rfl, rfl, rfl, rfl, rfl, ?_⟩
      rcases eq_or_ne votes [] with rfl | hne
      · simp only [increaseAll, List.foldl_nil, proposalVotesRaw, ofNat_plus]
        exact ⟨rfl, rfl, rfl, rfl⟩
      · obtain ⟨htotal, hveto⟩ := hvotes.resolve_left hne
        obtain ⟨hup, hdown, habstain⟩ :=
          increaseAll_percentages (proposalVotesRaw (some start)) hne
        rw [hup, hdown, habstain, hcounted.upVotes, hcounted.downVotes, hcounted.abstainVotes,
          hcounted.totalVotes, hnoVeto, handlerPercentage_pos _ htotal,
          handlerPercentage_pos _ htotal, handlerPercentage_pos _ htotal]
        exact ⟨rfl, rfl, congrArg some hveto, rfl⟩

end Agreement

/-! ## Runs -/

section Runs

variable {contract : VotesView} {cache : VotesCache} {scAddress : Address} {proposalId : ℕ}

/-- Keys tell proposals and contracts apart. -/
theorem proposalVotesKey_inj {scAddress' : Address} {proposalId' : ℕ}
    (h : proposalVotesKey scAddress proposalId = proposalVotesKey scAddress' proposalId') :
    scAddress = scAddress' ∧ proposalId = proposalId' := by
  have hplain : ∀ (sc : Address) (id : ℕ), ∀ arg ∈ [CacheArg.string "governance",
      .string "proposalVotes", .string sc.text, .number id], arg.Plain := by
    intro sc id arg harg
    simp only [List.mem_cons, List.not_mem_nil, or_false] at harg
    rcases harg with rfl | rfl | rfl | rfl
    · show '.' ∉ "governance".toList
      decide
    · show '.' ∉ "proposalVotes".toList
      decide
    · exact sc.plain
    · exact plain_number id
  have htexts := generateCacheKeyFromParams_inj (by simp) (by simp) (hplain _ _) (hplain _ _) h
  simp only [List.map_cons, List.map_nil, List.cons.injEq, true_and, and_true] at htexts
  obtain ⟨haddress, hid⟩ := htexts
  refine ⟨?_, number_text_inj hid⟩
  cases scAddress
  cases scAddress'
  simpa [CacheArg.text] using haddress

/-- The getter answers with what is cached, or reads the contract. -/
theorem proposalVotes_fst : (proposalVotes contract scAddress proposalId cache).1 =
    (JsMap.get cache (proposalVotesKey scAddress proposalId)).getD
      (proposalVotesRaw (contract scAddress proposalId)) := by
  unfold proposalVotes
  split <;> next h => rw [h]; rfl

/-- A vote writes its own key only. -/
theorem get_handleGovernanceVoteEvent (event : VoteEvent) (voteType : GOVERNANCE_EVENTS)
    (key : String) :
    JsMap.get (handleGovernanceVoteEvent contract event voteType cache) key =
      if key = proposalVotesKey event.address event.proposalId then
        some (increaseProposalVotes
          (proposalVotes contract event.address event.proposalId cache).1 event voteType)
      else JsMap.get cache key := by
  unfold handleGovernanceVoteEvent proposalVotes
  cases JsMap.get cache (proposalVotesKey event.address event.proposalId) with
  | some votes => exact JsMap.get_set _ _ _ _
  | none =>
    -- the record just loaded is overwritten
    simp only [JsMap.set_set]
    exact JsMap.get_set _ _ _ _

/-- What the getter answers after an event: the record with the vote added
if the event was a vote for this proposal, and what it answered before
otherwise. -/
theorem proposalVotes_consumeEvent (event : ConsumedEvent) :
    (proposalVotes contract scAddress proposalId (consumeEvent contract cache event)).1 =
      increaseAll (proposalVotes contract scAddress proposalId cache).1
        (votesOn scAddress proposalId [event]) := by
  cases event with
  | other => rfl
  | vote event voteType =>
    rw [proposalVotes_fst, consumeEvent, get_handleGovernanceVoteEvent]
    by_cases hown : event.address = scAddress ∧ event.proposalId = proposalId
    · obtain ⟨rfl, rfl⟩ := hown
      simp [votesOn, increaseAll]
    · have hkey : proposalVotesKey scAddress proposalId ≠
          proposalVotesKey event.address event.proposalId := by
        intro heq
        obtain ⟨hsc, hid⟩ := proposalVotesKey_inj heq
        exact hown ⟨hsc.symm, hid.symm⟩
      have hnone : votesOn scAddress proposalId [.vote event voteType] = [] := by
        simp [votesOn, hown]
      rw [hnone, if_neg hkey, ← proposalVotes_fst]
      rfl

theorem votesOn_append (events events' : List ConsumedEvent) :
    votesOn scAddress proposalId (events ++ events') =
      votesOn scAddress proposalId events ++ votesOn scAddress proposalId events' :=
  List.filterMap_append

/-- After any events the getter answers with the record that they have
increased. -/
theorem proposalVotes_consumeEvents (events : List ConsumedEvent) :
    (proposalVotes contract scAddress proposalId (consumeEvents contract events cache)).1 =
      increaseAll (proposalVotes contract scAddress proposalId cache).1
        (votesOn scAddress proposalId events) := by
  induction events generalizing cache with
  | nil => rfl
  | cons event events ih =>
    have hsplit : votesOn scAddress proposalId (event :: events) =
        votesOn scAddress proposalId [event] ++ votesOn scAddress proposalId events :=
      votesOn_append [event] events
    rw [consumeEvents, List.foldl_cons, ← consumeEvents, ih, proposalVotes_consumeEvent, hsplit,
      increaseAll, increaseAll, increaseAll, List.foldl_append]

/-- After any events the cached record is the one of the votes counted by
hand exactly if the handler keeps up, be it text for text or number for
number. -/
theorem proposalVotes_eq_raw_iff (contract : VotesView) (cache : VotesCache)
    (scAddress : Address) (proposalId : ℕ) (response : Option ContractVotes)
    (events : List ConsumedEvent)
    (hstart : (proposalVotes contract scAddress proposalId cache).1 = proposalVotesRaw response) :
    let record := (proposalVotes contract scAddress proposalId
      (consumeEvents contract events cache)).1
    let votes := votesOn scAddress proposalId events
    let counted := proposalVotesRaw (some (tally response votes))
    (record = counted ↔ KeepsUp id response votes) ∧
      (record.mapPercentages DecimalText.asNumber = counted.mapPercentages DecimalText.asNumber ↔
        KeepsUp DecimalText.asNumber response votes) := by
  intro record votes counted
  have hrecord : record = increaseAll (proposalVotesRaw response) votes := by
    rw [← hstart]
    exact proposalVotes_consumeEvents events
  rw [hrecord]
  constructor
  · rw [← increaseAll_eq_raw_iff (by decide), mapPercentages_id, mapPercentages_id]
  · exact increaseAll_eq_raw_iff (by decide)

end Runs

/-! ## A veto -/

def sampleGovernance : Address where
  text := "erd1qqqqqqqqqqqqqpgq"
  hrp := by decide
  plain := by decide

/-- Five votes for proposal 1 so far. -/
def sampleVotes : ContractVotes := ⟨5, 0, 0, 0, 5⟩

def vetoEvent : ConsumedEvent :=
  .vote ⟨sampleGovernance, sampleGovernance, 1, 3, 3⟩ .DOWN_VETO

/-- Nothing but votes in favour. -/
def upEvent : ConsumedEvent :=
  .vote ⟨sampleGovernance, sampleGovernance, 1, 3, 3⟩ .UP

theorem proposalVotes_eq_raw_sample :
    (proposalVotes (fun _ _ => some sampleVotes) sampleGovernance 1
      (consumeEvents (fun _ _ => some sampleVotes) [upEvent] [])).1 =
    proposalVotesRaw (some (tally (some sampleVotes) (votesOn sampleGovernance 1 [upEvent]))) := by
  refine (proposalVotes_eq_raw_iff _ _ _ _ (some sampleVotes) _ rfl).1.mpr ?_
  exact ⟨sampleVotes, rfl, by decide, Or.inr ⟨by decide, by decide +kernel⟩⟩

/-- The three votes of a veto are counted as votes against. -/
theorem veto_counted_down :
    (proposalVotes (fun _ _ => some sampleVotes) sampleGovernance 1
      (consumeEvents (fun _ _ => some sampleVotes) [vetoEvent] [])).1.downVetoVotes = .ofNat 0 ∧
    ¬∀ (contract : VotesView) (cache : VotesCache) (scAddress : Address) (proposalId : ℕ)
      (start : ContractVotes) (events : List ConsumedEvent),
      (proposalVotes contract scAddress proposalId cache).1 = proposalVotesRaw (some start) →
      (proposalVotes contract scAddress proposalId
        (consumeEvents contract events cache)).1.downVetoVotes =
      .ofNat (start.down_veto_votes +
        votingPower .DOWN_VETO (votesOn scAddress proposalId events)) := by
  refine ⟨by decide +kernel, ?_⟩
  intro h
  have hveto := h (fun _ _ => some sampleVotes) [] sampleGovernance 1 sampleVotes [vetoEvent] rfl
  exact absurd hveto (by decide +kernel)

end MxExchange.Governance
