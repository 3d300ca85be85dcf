import MxExchange.Collections.FirstOccurrences
import MxExchange.Collections.Runs
import MxExchange.Governance.ProposalVotes
import MxExchange.Text.Base64
import MxExchange.Utils.TokenConverters

/-!
# The votes of a user

Whether a user has voted on a proposal, and how (`governance.service.ts`), is
answered from two cached lists for each contract and user. The one of the
proposals voted on is loaded from the contract. The one of the votes has no
source of its own: it starts empty, takes in what is found in the log of
events (`governance.compute.service.ts`), `NotVoted` included, and the vote
events as they are handled (`governance.handler.service.ts`).

Reads and the handler wait between looking into the cache and writing to it,
so whatever comes in between may be written over. And the log is searched for
an event of the contract, for the proposal's id and for the user's address
each by itself, among all topics of a log: an amount that is written like the
id will do.

The answers are right however reads, votes and expiries come (`votes_shown`)
if what the handler has taken in is found in the log and nothing that looks
like it is (`Findable`), and no read writes back a list that has missed a vote
taken in meanwhile (`Undisturbed`). Each is needed: `vote_missed`,
`vote_lookalike` and `vote_overtaken`.

The cache is the store of one process; an entry that another one drops or
does not see yet is an entry that expires. Reads that miss it at the same time
have a list of their own each.
-/

namespace MxExchange.Governance

open MxExchange.Cache MxExchange.Collections MxExchange.Text

/-- The votes, and none. -/
inductive VoteType where
  | UpVote
  | DownVote
  | DownVetoVote
  | AbstainVote
  | NotVoted
  deriving DecidableEq

/-- What comes from other packages and from the configuration: the texts of
the vote events, the public key of an address in hexadecimal digits, and the
contracts of the first kind, which are not asked who has voted. -/
structure VoteTexts where
  event : GOVERNANCE_EVENTS → String
  hex : Address → String
  oldEnergy : Address → Bool

/-- The vote of an event; anything else is none. -/
def toVoteType (texts : VoteTexts) (event : String) : VoteType :=
  if event = texts.event .UP then .UpVote
  else if event = texts.event .DOWN then .DownVote
  else if event = texts.event .DOWN_VETO then .DownVetoVote
  else if event = texts.event .ABSTAIN then .AbstainVote
  else .NotVoted

/-- A vote, as its event says. -/
structure Ballot where
  scAddress : Address
  voter : Address
  proposalId : ℕ
  voteType : GOVERNANCE_EVENTS
  deriving DecidableEq

/-- What a user has one vote for. -/
def Ballot.slot (b : Ballot) : (Address × Address) × ℕ := ((b.scAddress, b.voter), b.proposalId)

def Ballot.vote (texts : VoteTexts) (b : Ballot) : VoteType :=
  toVoteType texts (texts.event b.voteType)

/-! ## The log -/

/-- An event in a log; the topics are base64 texts. -/
structure LogEvent where
  address : Address
  identifier : String
  topics : List String
  deriving DecidableEq

/-- A log as the search answers it. -/
structure TransactionLog where
  address : Address
  events : List LogEvent
  deriving DecidableEq

/-- A vote with the log of its transaction. -/
structure Vote where
  ballot : Ballot
  log : TransactionLog
  deriving DecidableEq

/-- `Buffer.from(hex, 'hex').toString('base64')` -/
def hexToBase64 (hex : String) : String :=
  String.ofList (bufferToBase64 (bufferFromHex hex.toList))

/-- Base64, where text that is not is no text. -/
def atob (topic : String) : String :=
  String.ofList ((bufferFromBase64 topic.toList).map Char.ofNat)

/-- How the topics of an event print a proposal. -/
def encodedProposalId (proposalId : ℕ) : String :=
  hexToBase64 (StakingProxy.decimalToHex proposalId)

def encodedCallerAddress (texts : VoteTexts) (callerAddress : Address) : String :=
  hexToBase64 (texts.hex callerAddress)

/-- The query of `getVoteLog`: its nested clauses are about one event each, and
not about the same. -/
def matchesVote (texts : VoteTexts) (key : Address × Address) (proposalId : ℕ)
    (log : TransactionLog) : Bool :=
  log.address = key.1 &&
    log.events.any (fun event => event.address = key.1 ∧ event.identifier = "vote") &&
    log.events.any (fun event => encodedProposalId proposalId ∈ event.topics) &&
    log.events.any fun event => encodedCallerAddress texts key.2 ∈ event.topics

/-- How the first log found says it was voted. An event that is not there, or
has no topics, is an error. -/
def loggedVote (texts : VoteTexts) : List TransactionLog → Option VoteType
  | [] => some .NotVoted
  | log :: _ =>
    (log.events.find? fun event => event.identifier = "vote").bind fun voteEvent =>
      voteEvent.topics.head?.map fun topic => toVoteType texts (atob topic)

/-! ## Reads and the handler -/

/-- Where a `hasUserVoted` waits: for the cache, for the contract, for the list
to be stored. Then it has its list, or has failed. -/
inductive VotedPhase where
  | looking
  | loading
  | loaded (proposals : List ℕ)
  | returned (proposals : List ℕ)
  | failed
  deriving DecidableEq

/-- Where a `userVote` waits: for the cache, for the empty list to be stored,
for the log, for the longer list to be stored. -/
inductive VotePhase where
  | looking
  | loaded
  | searching (voteTypes : JsMap ℕ VoteType)
  | found (voteTypes : JsMap ℕ VoteType) (vote : VoteType)
  | returned (vote : VoteType)
  | failed
  deriving DecidableEq

/-- A `hasUserVoted`, with what the handler had listed `before` it was called. -/
structure VotedRead where
  scAddress : Address
  userAddress : Address
  proposalId : ℕ
  before : List Ballot
  phase : VotedPhase

/-- A `userVote`, with the votes the handler had taken in `before`. -/
structure VoteRead where
  scAddress : Address
  userAddress : Address
  proposalId : ℕ
  before : List Ballot
  phase : VotePhase

def VotedRead.key (r : VotedRead) : Address × Address := (r.scAddress, r.userAddress)

def VoteRead.key (r : VoteRead) : Address × Address := (r.scAddress, r.userAddress)

/-- The list that is about to be stored. -/
def VotedRead.toStore (r : VotedRead) : Option (List ℕ) :=
  match r.phase with
  | .loaded proposals => some proposals
  | _ => none

/-- What a read of a vote is about to store. -/
def VoteRead.toStore (r : VoteRead) : Option (JsMap ℕ VoteType) :=
  match r.phase with
  | .loaded => some []
  | .found voteTypes vote => some (voteTypes ++ [(r.proposalId, vote)])
  | _ => none

/-- Where the handler is with the event it is at: with the list of proposals,
then with the list of votes. -/
inductive HandlerPhase where
  | idle
  | lookingProposals
  | loadingProposals
  | loadedProposals (proposals : List ℕ)
  | hasProposals (proposals : List ℕ)
  | lookingTypes
  | loadedTypes
  | hasTypes (voteTypes : JsMap ℕ VoteType)

/-- The votes cast; those among them whose event is still `waiting`, the first
one with the handler; those it has put into the list of proposals (`listed`) and
into the list of votes (`typed`); those whose log can be searched; the cached
lists, and the reads. -/
structure UserVotes where
  cast : List Vote
  waiting : List Vote
  handler : HandlerPhase
  listed : List Ballot
  typed : List Ballot
  indexed : List Vote
  votedProposals : Address × Address → Option (List ℕ)
  voteTypes : Address × Address → Option (JsMap ℕ VoteType)
  votedReads : List VotedRead
  voteReads : List VoteRead

namespace UserVotes

variable (texts : VoteTexts)

/-- `userVotedProposalsRaw`. -/
def userVotedProposalsRaw (s : UserVotes) (key : Address × Address) : List ℕ :=
  (s.cast.filter fun v => v.ballot.slot.1 = key).map fun v => v.ballot.proposalId

/-- The logs that `getVoteLog` may find, in whichever order: the query is sent
without its `sort`. -/
def voteLogs (s : UserVotes) (key : Address × Address) (proposalId : ℕ) : List TransactionLog :=
  (s.indexed.filter fun v => matchesVote texts key proposalId v.log).map Vote.log

/-- A user's list is stored. -/
def setVotedProposals (s : UserVotes) (key : Address × Address) (proposals : Option (List ℕ)) :
    UserVotes :=
  { s with votedProposals := Function.update s.votedProposals key proposals }

/-- A user's votes are stored. -/
def setVoteTypes (s : UserVotes) (key : Address × Address)
    (voteTypes : Option (JsMap ℕ VoteType)) : UserVotes :=
  { s with voteTypes := Function.update s.voteTypes key voteTypes }

/-- A read of the list goes on. -/
def moveVoted (s : UserVotes) (i : ℕ) (r : VotedRead) (phase : VotedPhase) : UserVotes :=
  { s with votedReads := s.votedReads.set i { r with phase := phase } }

/-- A read of a vote goes on. -/
def moveVote (s : UserVotes) (i : ℕ) (r : VoteRead) (phase : VotePhase) : UserVotes :=
  { s with voteReads := s.voteReads.set i { r with phase := phase } }

/-- What can happen next, at the await points. -/
inductive Action where
  /-- A user votes. The contract takes one vote for a proposal. -/
  | vote (v : Vote)
  /-- The log of the `i`-th vote can be searched from now on. -/
  | index (i : ℕ)
  | hasUserVoted (scAddress : Address) (proposalId : ℕ) (userAddress : Option Address)
  | userVote (scAddress : Address) (proposalId : ℕ) (userAddress : Option Address)
  /-- What the `i`-th `hasUserVoted` waits for has come. -/
  | advanceVoted (i : ℕ)
  /-- What the `i`-th `userVote` waits for has come, other than the log. -/
  | advanceVote (i : ℕ)
  /-- The log has answered. -/
  | search (i : ℕ) (logs : List TransactionLog)
  | failVoted (i : ℕ)
  | failVote (i : ℕ)
  /-- What `handleGovernanceVoteEvent` waits for has come. -/
  | handle
  /-- It throws; the event may come again. -/
  | handlerFails (again : Bool)
  | expireVotedProposals (key : Address × Address)
  | expireVoteTypes (key : Address × Address)

/-- `userVotedProposals`, decorated with `GetOrSetCache`. -/
def stepVoted (s : UserVotes) (i : ℕ) (r : VotedRead) : Option UserVotes :=
  match r.phase with
  | .looking =>
    match s.votedProposals r.key with
    | some proposals => some (s.moveVoted i r (.returned proposals))
    | none => some (s.moveVoted i r .loading)
  | .loading => some (s.moveVoted i r (.loaded (s.userVotedProposalsRaw r.key)))
  | .loaded proposals =>
    some ((s.moveVoted i r (.returned proposals)).setVotedProposals r.key (some proposals))
  | _ => none

/-- What follows `userVoteTypesForContract` in `userVotedProposalsWithVoteType`. -/
def lookUp (r : VoteRead) (voteTypes : JsMap ℕ VoteType) : VotePhase :=
  match JsMap.get voteTypes r.proposalId with
  | some vote => .returned vote
  | none => .searching voteTypes

/-- `userVotedProposalsWithVoteType`, but for the log. -/
def stepVote (s : UserVotes) (i : ℕ) (r : VoteRead) : Option UserVotes :=
  match r.phase with
  | .looking =>
    match s.voteTypes r.key with
    | some voteTypes => some (s.moveVote i r (lookUp r voteTypes))
    | none => some (s.moveVote i r .loaded)
  | .loaded => some ((s.moveVote i r (.searching [])).setVoteTypes r.key (some []))
  | .found voteTypes vote =>
    some ((s.moveVote i r (.returned vote)).setVoteTypes r.key
      (some (voteTypes ++ [(r.proposalId, vote)])))
  | _ => none

/-- `handleGovernanceVoteEvent` for the event it is at. -/
def stepHandler (s : UserVotes) (b : Ballot) (rest : List Vote) : UserVotes :=
  let key := b.slot.1
  match s.handler with
  | .idle => { s with handler := .lookingProposals }
  | .lookingProposals =>
    match s.votedProposals key with
    | some proposals => { s with handler := .hasProposals proposals }
    | none => { s with handler := .loadingProposals }
  | .loadingProposals => { s with handler := .loadedProposals (s.userVotedProposalsRaw key) }
  | .loadedProposals proposals =>
    { s.setVotedProposals key (some proposals) with handler := .hasProposals proposals }
  | .hasProposals proposals =>
    { s.setVotedProposals key (some (proposals ++ [b.proposalId]).eraseDups) with
      handler := .lookingTypes
      listed := b :: s.listed }
  | .lookingTypes =>
    match s.voteTypes key with
    | some voteTypes => { s with handler := .hasTypes voteTypes }
    | none => { s with handler := .loadedTypes }
  | .loadedTypes => { s.setVoteTypes key (some []) with handler := .hasTypes [] }
  | .hasTypes voteTypes =>
    { s.setVoteTypes key (some (JsMap.set voteTypes b.proposalId (b.vote texts))) with
      handler := .idle
      typed := b :: s.typed
      waiting := rest }

/-- One of the actions, where it is possible. -/
def step (s : UserVotes) : Action → Option UserVotes
  | .vote v =>
    if v.ballot.slot ∈ s.cast.map fun u => u.ballot.slot then none
    else some { s with cast := s.cast ++ [v], waiting := s.waiting ++ [v] }
  | .index i =>
    match s.cast[i]? with
    | some v => some { s with indexed := v :: s.indexed }
    | none => none
  | .hasUserVoted scAddress proposalId userAddress =>
    match userAddress with
    -- no user has not voted, nor has any with a contract of the first kind
    | none => some s
    | some userAddress =>
      if texts.oldEnergy scAddress then some s
      else some { s with votedReads := s.votedReads ++
        [⟨scAddress, userAddress, proposalId, s.listed, .looking⟩] }
  | .userVote scAddress proposalId userAddress =>
    match userAddress with
    | none => some s
    | some userAddress => some { s with voteReads := s.voteReads ++
        [⟨scAddress, userAddress, proposalId, s.typed, .looking⟩] }
  | .advanceVoted i => (s.votedReads[i]?).bind (s.stepVoted i)
  | .advanceVote i => (s.voteReads[i]?).bind (s.stepVote i)
  | .search i logs =>
    match s.voteReads[i]? with
    | some r =>
      match r.phase with
      | .searching voteTypes =>
        if logs.Perm (s.voteLogs texts r.key r.proposalId) then
          match loggedVote texts logs with
          | some vote => some (s.moveVote i r (.found voteTypes vote))
          | none => some (s.moveVote i r .failed)
        else none
      | _ => none
    | none => none
  | .failVoted i =>
    match s.votedReads[i]? with
    | some r =>
      match r.phase with
      | .returned _ => none
      | _ => some (s.moveVoted i r .failed)
    | none => none
  | .failVote i =>
    match s.voteReads[i]? with
    | some r =>
      match r.phase with
      | .returned _ => none
      | _ => some (s.moveVote i r .failed)
    | none => none
  | .handle =>
    match s.waiting with
    | v :: rest => some (s.stepHandler texts v.ballot rest)
    | [] => none
  | .handlerFails again =>
    match s.waiting with
    | _ :: rest =>
      some { s with handler := .idle, waiting := if again then s.waiting else rest }
    | [] => none
  | .expireVotedProposals key => some (s.setVotedProposals key none)
  | .expireVoteTypes key => some (s.setVoteTypes key none)

/-- Nobody has voted, and nothing is cached. -/
def start : UserVotes where
  cast := []
  waiting := []
  handler := .idle
  listed := []
  typed := []
  indexed := []
  votedProposals := fun _ => none
  voteTypes := fun _ => none
  votedReads := []
  voteReads := []

/-- The log can be asked about the vote: if the handler has taken it in it is
found, and all that is found is this vote, as it was cast. -/
def Findable (s : UserVotes) (key : Address × Address) (proposalId : ℕ) : Prop :=
  (∀ v ∈ s.cast, v.ballot ∈ s.typed → v.ballot.slot = (key, proposalId) →
    v ∈ s.indexed ∧ matchesVote texts key proposalId v.log) ∧
  ∀ v ∈ s.indexed, matchesVote texts key proposalId v.log →
    v.ballot.slot = (key, proposalId) ∧ loggedVote texts [v.log] = some (v.ballot.vote texts)

instance (s : UserVotes) (key : Address × Address) (proposalId : ℕ) :
    Decidable (s.Findable texts key proposalId) :=
  inferInstanceAs (Decidable (_ ∧ _))

/-- What a step must look at: the log is searched where it can be asked, and no
list is stored that a vote is missing from which has been taken in meanwhile. -/
def Undisturbed (s : UserVotes) : Action → Prop
  | .search i _ => ∀ r ∈ s.voteReads[i]?, s.Findable texts r.key r.proposalId
  | .advanceVoted i => ∀ r ∈ s.votedReads[i]?, ∀ proposals ∈ r.toStore, ∀ b ∈ s.listed,
      b.slot.1 = r.key → b.proposalId ∈ proposals
  | .advanceVote i => ∀ r ∈ s.voteReads[i]?, ∀ voteTypes ∈ r.toStore, ∀ b ∈ s.typed,
      b.slot.1 = r.key → JsMap.get voteTypes b.proposalId ≠ some .NotVoted
  | _ => True

instance (s : UserVotes) : (a : Action) → Decidable (s.Undisturbed texts a)
  | .search i _ =>
    inferInstanceAs (Decidable (∀ r ∈ s.voteReads[i]?, s.Findable texts r.key r.proposalId))
  | .advanceVoted i => inferInstanceAs (Decidable (∀ r ∈ s.votedReads[i]?,
      ∀ proposals ∈ r.toStore, ∀ b ∈ s.listed, b.slot.1 = r.key → b.proposalId ∈ proposals))
  | .advanceVote i => inferInstanceAs (Decidable (∀ r ∈ s.voteReads[i]?,
      ∀ voteTypes ∈ r.toStore, ∀ b ∈ s.typed,
        b.slot.1 = r.key → JsMap.get voteTypes b.proposalId ≠ some .NotVoted))
  | .vote _ | .index _ | .hasUserVoted _ _ _ | .userVote _ _ _ | .failVoted _ | .failVote _
  | .handle | .handlerFails _ | .expireVotedProposals _ | .expireVoteTypes _ => .isTrue trivial

/-! ## What is right -/

section Right

variable {texts} {s s' : UserVotes} {key : Address × Address} {proposalId : ℕ} {vote : VoteType}
  {known : List Ballot} {proposals : List ℕ} {voteTypes : JsMap ℕ VoteType}

/-- The vote was cast, or none is known of. -/
def Right (texts : VoteTexts) (s : UserVotes) (known : List Ballot) (key : Address × Address)
    (proposalId : ℕ) (vote : VoteType) : Prop :=
  (∃ v ∈ s.cast, v.ballot.slot = (key, proposalId) ∧ v.ballot.vote texts = vote) ∨
    (vote = .NotVoted ∧ ∀ b ∈ known, b.slot ≠ (key, proposalId))

/-- Every vote in the list is right. -/
def RightTypes (texts : VoteTexts) (s : UserVotes) (known : List Ballot)
    (key : Address × Address) (voteTypes : JsMap ℕ VoteType) : Prop :=
  ∀ proposalId vote, JsMap.get voteTypes proposalId = some vote →
    Right texts s known key proposalId vote

/-- The list has what is known of, and nothing that was not cast. -/
def RightList (s : UserVotes) (known : List Ballot) (key : Address × Address)
    (proposals : List ℕ) : Prop :=
  (∀ b ∈ known, b.slot.1 = key → b.proposalId ∈ proposals) ∧
    ∀ p ∈ proposals, ∃ v ∈ s.cast, v.ballot.slot = (key, p)

theorem slot_mk (b : Ballot) : b.slot = (b.slot.1, b.proposalId) := rfl

/-- What was right stays right when more votes are cast and fewer are known. -/
theorem Right.mono {known' : List Ballot} (hcast : s.cast ⊆ s'.cast) (hknown : known' ⊆ known)
    (h : Right texts s known key proposalId vote) :
    Right texts s' known' key proposalId vote := by
  rcases h with ⟨v, hv, hslot, hvote⟩ | ⟨hvote, hnone⟩
  · exact Or.inl ⟨v, hcast hv, hslot, hvote⟩
  · exact Or.inr ⟨hvote, fun b hb => hnone b (hknown hb)⟩

theorem RightTypes.mono {known' : List Ballot} (hcast : s.cast ⊆ s'.cast)
    (hknown : known' ⊆ known) (h : RightTypes texts s known key voteTypes) :
    RightTypes texts s' known' key voteTypes :=
  fun p vote hget => (h p vote hget).mono hcast hknown

theorem RightList.mono {known' : List Ballot} (hcast : s.cast ⊆ s'.cast)
    (hknown : known' ⊆ known) (h : RightList s known key proposals) :
    RightList s' known' key proposals := by
  refine ⟨fun b hb => h.1 b (hknown hb), fun p hp => ?_⟩
  obtain ⟨v, hv, hslot⟩ := h.2 p hp
  exact ⟨v, hcast hv, hslot⟩

theorem rightTypes_nil : RightTypes texts s known key [] := by
  intro p vote hget
  exact absurd hget (by simp)

/-- The contract knows all that was cast. -/
theorem rightList_raw (hknown : ∀ b ∈ known, ∃ v ∈ s.cast, v.ballot = b) :
    RightList s known key (s.userVotedProposalsRaw key) := by
  constructor
  · intro b hb hkey
    obtain ⟨v, hv, rfl⟩ := hknown b hb
    exact List.mem_map.mpr ⟨v, List.mem_filter.mpr ⟨hv, decide_eq_true hkey⟩, rfl⟩
  · intro p hp
    obtain ⟨v, hv, rfl⟩ := List.mem_map.mp hp
    obtain ⟨hcast, hkey⟩ := List.mem_filter.mp hv
    exact ⟨v, hcast, by rw [slot_mk, of_decide_eq_true hkey]⟩

/-- A list with an entry at its end, which counts if there was none. -/
theorem get_concat {m : JsMap ℕ VoteType} {p p' : ℕ} {v : VoteType} :
    JsMap.get (m ++ [(p, v)]) p' = (JsMap.get m p').or (if p = p' then some v else none) := by
  induction m with
  | nil => rfl
  | cons e m ih =>
    rw [List.cons_append, JsMap.get, JsMap.get]
    by_cases hp : e.1 = p'
    · rw [if_pos hp, if_pos hp, Option.some_or]
    · rw [if_neg hp, if_neg hp, ih]

theorem RightTypes.concat (h : RightTypes texts s known key voteTypes)
    (hvote : Right texts s known key proposalId vote) :
    RightTypes texts s known key (voteTypes ++ [(proposalId, vote)]) := by
  intro p v hget
  rw [get_concat] at hget
  cases hold : JsMap.get voteTypes p with
  | some w =>
    rw [hold, Option.some_or] at hget
    exact Option.some.inj hget ▸ h p w hold
  | none =>
    rw [hold, Option.none_or] at hget
    by_cases hp : proposalId = p
    · subst hp
      rw [if_pos rfl] at hget
      exact Option.some.inj hget ▸ hvote
    · rw [if_neg hp] at hget
      exact absurd hget (by simp)

/-- A list that was right is right still, if no vote has been taken in that it
has as not cast. -/
theorem RightTypes.catchUp {known' : List Ballot} (h : RightTypes texts s known key voteTypes)
    (hnew : ∀ b ∈ known', b.slot.1 = key →
      JsMap.get voteTypes b.proposalId ≠ some .NotVoted) :
    RightTypes texts s known' key voteTypes := by
  intro p vote hget
  rcases h p vote hget with hcast | ⟨rfl, -⟩
  · exact Or.inl hcast
  · refine Or.inr ⟨rfl, fun b hb hslot => ?_⟩
    obtain ⟨hkey, rfl⟩ := Prod.mk.inj ((slot_mk b).symm.trans hslot)
    exact hnew b hb hkey hget

/-- What the log says is right, if it can be asked. -/
theorem right_loggedVote (hindexed : ∀ v ∈ s.indexed, v ∈ s.cast)
    (htyped : ∀ b ∈ s.typed, ∃ v ∈ s.cast, v.ballot = b)
    (hfind : s.Findable texts key proposalId) {logs : List TransactionLog}
    (hlogs : logs.Perm (s.voteLogs texts key proposalId))
    (hvote : loggedVote texts logs = some vote) : Right texts s s.typed key proposalId vote := by
  cases logs with
  | nil =>
    refine Or.inr ⟨(Option.some.inj hvote).symm, fun b hb hslot => ?_⟩
    obtain ⟨v, hv, rfl⟩ := htyped b hb
    obtain ⟨hin, hmatches⟩ := hfind.1 v hv hb hslot
    have hmem : v.log ∈ s.voteLogs texts key proposalId :=
      List.mem_map_of_mem (List.mem_filter.mpr ⟨hin, hmatches⟩)
    exact absurd (hlogs.mem_iff.mpr hmem) List.not_mem_nil
  | cons log logs =>
    obtain ⟨v, hv, rfl⟩ := List.mem_map.mp (hlogs.mem_iff.mp List.mem_cons_self)
    obtain ⟨hin, hmatches⟩ := List.mem_filter.mp hv
    obtain ⟨hslot, hlogged⟩ := hfind.2 v hin hmatches
    refine Or.inl ⟨v, hindexed v hin, hslot, ?_⟩
    exact Option.some.inj (hlogged.symm.trans hvote)

end Right

/-! ## The invariant -/

section Invariant

variable {texts} {s s' : UserVotes} {key : Address × Address}

/-- What a `hasUserVoted` holds was right when it was called, or later. -/
def VotedReadOk (s : UserVotes) (r : VotedRead) : Prop :=
  r.before ⊆ s.listed ∧
    match r.phase with
    | .loaded proposals => RightList s r.before r.key proposals
    | .returned proposals => RightList s r.before r.key proposals
    | _ => True

/-- What a read under way holds is right. -/
def VoteReadOk (texts : VoteTexts) (s : UserVotes) (r : VoteRead) : Prop :=
  r.before ⊆ s.typed ∧
    match r.phase with
    | .searching voteTypes => RightTypes texts s r.before r.key voteTypes
    | .found voteTypes vote => RightTypes texts s r.before r.key voteTypes ∧
        Right texts s r.before r.key r.proposalId vote
    | .returned vote => Right texts s r.before r.key r.proposalId vote
    | _ => True

/-- What the handler holds is right: nothing is taken in without it. -/
def HandlerOk (texts : VoteTexts) (s : UserVotes) (key : Address × Address) : HandlerPhase → Prop
  | .loadedProposals proposals => RightList s s.listed key proposals
  | .hasProposals proposals => RightList s s.listed key proposals
  | .hasTypes voteTypes => RightTypes texts s s.typed key voteTypes
  | _ => True

/-- What is cached and what is under way is right. -/
structure Inv (texts : VoteTexts) (s : UserVotes) : Prop where
  once : (s.cast.map fun v => v.ballot.slot).Nodup
  waiting : ∀ v ∈ s.waiting, v ∈ s.cast
  listed : ∀ b ∈ s.listed, ∃ v ∈ s.cast, v.ballot = b
  typed : ∀ b ∈ s.typed, ∃ v ∈ s.cast, v.ballot = b
  indexed : ∀ v ∈ s.indexed, v ∈ s.cast
  votedProposals : ∀ key proposals, s.votedProposals key = some proposals →
    RightList s s.listed key proposals
  voteTypes : ∀ key voteTypes, s.voteTypes key = some voteTypes →
    RightTypes texts s s.typed key voteTypes
  votedReads : ∀ r ∈ s.votedReads, VotedReadOk s r
  voteReads : ∀ r ∈ s.voteReads, VoteReadOk texts s r
  handler : ∀ v ∈ s.waiting.head?, HandlerOk texts s v.ballot.slot.1 s.handler
  idle : s.waiting = [] → s.handler = .idle

theorem inv_start : start.Inv texts where
  once := List.nodup_nil
  waiting := fun _ h => absurd h List.not_mem_nil
  listed := fun _ h => absurd h List.not_mem_nil
  typed := fun _ h => absurd h List.not_mem_nil
  indexed := fun _ h => absurd h List.not_mem_nil
  votedProposals := fun _ _ h => absurd h (by simp [start])
  voteTypes := fun _ _ h => absurd h (by simp [start])
  votedReads := fun _ h => absurd h List.not_mem_nil
  voteReads := fun _ h => absurd h List.not_mem_nil
  handler := fun _ h => absurd h (by simp [start])
  idle := fun _ => rfl

theorem VotedReadOk.mono {r : VotedRead} (hcast : s.cast ⊆ s'.cast) (hlisted : s.listed ⊆ s'.listed)
    (h : VotedReadOk s r) : VotedReadOk s' r := by
  refine ⟨List.Subset.trans h.1 hlisted, ?_⟩
  have hphase := h.2
  split at hphase
  next => exact hphase.mono hcast (List.Subset.refl _)
  next => exact hphase.mono hcast (List.Subset.refl _)
  next => trivial

theorem VoteReadOk.mono {r : VoteRead} (hcast : s.cast ⊆ s'.cast) (htyped : s.typed ⊆ s'.typed)
    (h : VoteReadOk texts s r) : VoteReadOk texts s' r := by
  refine ⟨List.Subset.trans h.1 htyped, ?_⟩
  have hphase := h.2
  split at hphase
  next => exact hphase.mono hcast (List.Subset.refl _)
  next =>
    exact ⟨hphase.1.mono hcast (List.Subset.refl _), hphase.2.mono hcast (List.Subset.refl _)⟩
  next => exact hphase.mono hcast (List.Subset.refl _)
  next => trivial

/-- The handler does not mind what is cast meanwhile. -/
theorem HandlerOk.mono {phase : HandlerPhase} (hcast : s.cast ⊆ s'.cast)
    (hlisted : s'.listed = s.listed) (htyped : s'.typed = s.typed)
    (h : HandlerOk texts s key phase) : HandlerOk texts s' key phase := by
  cases phase with
  | loadedProposals proposals => exact RightList.mono hcast (by rw [hlisted]; exact fun _ => id) h
  | hasProposals proposals => exact RightList.mono hcast (by rw [hlisted]; exact fun _ => id) h
  | hasTypes voteTypes => exact RightTypes.mono hcast (by rw [htyped]; exact fun _ => id) h
  | idle => trivial
  | lookingProposals => trivial
  | loadingProposals => trivial
  | lookingTypes => trivial
  | loadedTypes => trivial

/-- What is cached after a write, under whichever key. -/
theorem get_update {β : Type} {cache : Address × Address → Option β} {w : Option β} {x : β}
    {key' : Address × Address} (h : Function.update cache key w key' = some x) :
    (key' = key ∧ w = some x) ∨ (key' ≠ key ∧ cache key' = some x) := by
  rw [Function.update_apply] at h
  by_cases hkey : key' = key
  · rw [if_pos hkey] at h
    exact Or.inl ⟨hkey, h⟩
  · rw [if_neg hkey] at h
    exact Or.inr ⟨hkey, h⟩

/-! ### One part of the state changes -/

theorem Inv.setVotedProposals (h : s.Inv texts) {proposals : Option (List ℕ)}
    (hright : ∀ p, proposals = some p → RightList s s.listed key p) :
    (s.setVotedProposals key proposals).Inv texts :=
  { h with
    votedProposals := by
      intro key' proposals' hget
      rcases get_update hget with ⟨rfl, hnew⟩ | ⟨-, hold⟩
      · exact hright proposals' hnew
      · exact h.votedProposals key' proposals' hold }

theorem Inv.setVoteTypes (h : s.Inv texts) {voteTypes : Option (JsMap ℕ VoteType)}
    (hright : ∀ m, voteTypes = some m → RightTypes texts s s.typed key m) :
    (s.setVoteTypes key voteTypes).Inv texts :=
  { h with
    voteTypes := by
      intro key' voteTypes' hget
      rcases get_update hget with ⟨rfl, hnew⟩ | ⟨-, hold⟩
      · exact hright voteTypes' hnew
      · exact h.voteTypes key' voteTypes' hold }

theorem Inv.moveVoted (h : s.Inv texts) {i : ℕ} {r : VotedRead} {phase : VotedPhase}
    (hok : VotedReadOk s { r with phase := phase }) : (s.moveVoted i r phase).Inv texts :=
  { h with
    votedReads := by
      intro r' hr'
      rcases List.mem_or_eq_of_mem_set hr' with hold | rfl
      · exact h.votedReads r' hold
      · exact hok }

theorem Inv.moveVote (h : s.Inv texts) {i : ℕ} {r : VoteRead} {phase : VotePhase}
    (hok : VoteReadOk texts s { r with phase := phase }) : (s.moveVote i r phase).Inv texts :=
  { h with
    voteReads := by
      intro r' hr'
      rcases List.mem_or_eq_of_mem_set hr' with hold | rfl
      · exact h.voteReads r' hold
      · exact hok }

theorem Inv.setHandler (h : s.Inv texts) {v : Vote} {rest : List Vote}
    (hwaiting : s.waiting = v :: rest) {phase : HandlerPhase}
    (hok : HandlerOk texts s v.ballot.slot.1 phase) : Inv texts { s with handler := phase } :=
  { h with
    handler := by
      intro u hu
      have hhead : s.waiting.head? = some u := hu
      rw [hwaiting] at hhead
      exact Option.some.inj hhead ▸ hok
    idle := by
      intro hempty
      have hnil : s.waiting = [] := hempty
      rw [hwaiting] at hnil
      exact absurd hnil (List.cons_ne_nil _ _) }

/-! ### The steps -/

theorem inv_stepVoted (h : s.Inv texts) {i : ℕ} {r : VotedRead} (hi : s.votedReads[i]? = some r)
    (hok : s.Undisturbed texts (.advanceVoted i)) (hstep : s.stepVoted i r = some s') :
    s'.Inv texts := by
  obtain ⟨hbefore, hphase⟩ := h.votedReads r (List.mem_of_getElem? hi)
  unfold stepVoted at hstep
  split at hstep
  next hlooking =>
    split at hstep
    next proposals hget =>
      obtain rfl := Option.some.inj hstep
      exact h.moveVoted ⟨hbefore,
        (h.votedProposals r.key proposals hget).mono (List.Subset.refl _) hbefore⟩
    next =>
      obtain rfl := Option.some.inj hstep
      exact h.moveVoted ⟨hbefore, trivial⟩
  next hloading =>
    obtain rfl := Option.some.inj hstep
    exact h.moveVoted ⟨hbefore, rightList_raw fun b hb => h.listed b (hbefore hb)⟩
  next proposals hloaded =>
    obtain rfl := Option.some.inj hstep
    rw [hloaded] at hphase
    have hright : RightList s r.before r.key proposals := hphase
    have hmoved : (s.moveVoted i r (.returned proposals)).Inv texts :=
      h.moveVoted ⟨hbefore, hright⟩
    refine hmoved.setVotedProposals ?_
    intro p hp
    obtain rfl := Option.some.inj hp
    -- nothing has been listed that the list has not
    exact ⟨hok r hi proposals (by rw [VotedRead.toStore, hloaded]; rfl), hright.2⟩
  next => exact absurd hstep (by simp)

theorem inv_stepVote (h : s.Inv texts) {i : ℕ} {r : VoteRead} (hi : s.voteReads[i]? = some r)
    (hok : s.Undisturbed texts (.advanceVote i)) (hstep : s.stepVote i r = some s') :
    s'.Inv texts := by
  obtain ⟨hbefore, hphase⟩ := h.voteReads r (List.mem_of_getElem? hi)
  unfold stepVote at hstep
  split at hstep
  next hlooking =>
    split at hstep
    next voteTypes hget =>
      obtain rfl := Option.some.inj hstep
      have hright : RightTypes texts s r.before r.key voteTypes :=
        (h.voteTypes r.key voteTypes hget).mono (List.Subset.refl _) hbefore
      refine h.moveVote ⟨hbefore, ?_⟩
      unfold lookUp
      cases hvote : JsMap.get voteTypes r.proposalId with
      | some vote => exact hright r.proposalId vote hvote
      | none => exact hright
    next =>
      obtain rfl := Option.some.inj hstep
      exact h.moveVote ⟨hbefore, trivial⟩
  next hloaded =>
    obtain rfl := Option.some.inj hstep
    have hmoved : (s.moveVote i r (.searching [])).Inv texts :=
      h.moveVote ⟨hbefore, rightTypes_nil⟩
    refine hmoved.setVoteTypes ?_
    intro m hm
    obtain rfl := Option.some.inj hm
    exact rightTypes_nil
  -- votes may have been taken in since the read began, but by `Undisturbed` none that
  -- it would store as not voted
  next voteTypes vote hfound =>
    obtain rfl := Option.some.inj hstep
    rw [hfound] at hphase
    obtain ⟨htypes, hvote⟩ :
      RightTypes texts s r.before r.key voteTypes ∧
        Right texts s r.before r.key r.proposalId vote := hphase
    have hmoved : (s.moveVote i r (.returned vote)).Inv texts :=
      h.moveVote ⟨hbefore, hvote⟩
    refine hmoved.setVoteTypes ?_
    intro m hm
    obtain rfl := Option.some.inj hm
    exact (htypes.concat hvote).catchUp (hok r hi _ (by rw [VoteRead.toStore, hfound]; rfl))
  next => exact absurd hstep (by simp)

theorem inv_search (h : s.Inv texts) {i : ℕ} {logs : List TransactionLog}
    (hok : s.Undisturbed texts (.search i logs))
    (hstep : s.step texts (.search i logs) = some s') : s'.Inv texts := by
  simp only [step] at hstep
  split at hstep
  next r hi =>
    obtain ⟨hbefore, hphase⟩ := h.voteReads r (List.mem_of_getElem? hi)
    split at hstep
    next voteTypes hsearching =>
      rw [hsearching] at hphase
      split at hstep
      next hlogs =>
        split at hstep
        next vote hvote =>
          -- the log can be asked, so what it says of the ballot is right
          obtain rfl := Option.some.inj hstep
          have hright := right_loggedVote h.indexed h.typed (hok r hi) hlogs hvote
          exact h.moveVote ⟨hbefore, hphase, hright.mono (List.Subset.refl _) hbefore⟩
        next =>
          obtain rfl := Option.some.inj hstep
          exact h.moveVote ⟨hbefore, trivial⟩
      next => exact absurd hstep (by simp)
    next => exact absurd hstep (by simp)
  next => exact absurd hstep (by simp)

/-- The vote goes into the list of proposals. -/
theorem inv_listed (h : s.Inv texts) (hwaiting : s.waiting ≠ []) {b : Ballot}
    (hb : ∃ v ∈ s.cast, v.ballot = b) {proposals : List ℕ} 
    (hright : RightList s s.listed b.slot.1 proposals) :
    Inv texts { s.setVotedProposals b.slot.1
        (some (proposals ++ [b.proposalId]).eraseDups) with
      handler := .lookingTypes
      listed := b :: s.listed } := by
  refine { h with
    listed := List.forall_mem_cons.mpr ⟨hb, h.listed⟩
    votedProposals := ?_
    votedReads := fun r hr =>
      VotedReadOk.mono (s := s) (fun _ hv => hv) (List.subset_cons_self _ _) (h.votedReads r hr)
    handler := fun _ _ => trivial
    idle := fun hempty => absurd hempty hwaiting }
  intro key proposals' hget
  rcases get_update hget with ⟨rfl, hnew⟩ | ⟨hne, hold⟩
  · obtain rfl := Option.some.inj hnew
    refine ⟨fun b' hb' hkey => ?_, fun p hp => ?_⟩
    · rw [List.mem_eraseDups, List.mem_append]
      rcases List.mem_cons.mp hb' with rfl | hb'
      · exact Or.inr List.mem_cons_self
      · exact Or.inl (hright.1 b' hb' hkey)
    · rcases List.mem_append.mp (List.mem_eraseDups.mp hp) with hp | hp
      · exact hright.2 p hp
      · obtain ⟨v, hv, rfl⟩ := hb
        exact ⟨v, hv, by rw [List.mem_singleton.mp hp]; rfl⟩
  · -- the lists of others do not have it
    obtain ⟨hall, hcast⟩ := h.votedProposals key proposals' hold
    refine ⟨fun b' hb' hkey => ?_, hcast⟩
    rcases List.mem_cons.mp hb' with rfl | hb'
    · exact absurd hkey.symm hne
    · exact hall b' hb' hkey

/-- The vote goes into the list of votes, and is done with. -/
theorem inv_typed (h : s.Inv texts) {v : Vote} {rest : List Vote}
    (hwaiting : s.waiting = v :: rest) {voteTypes : JsMap ℕ VoteType}
    (hright : RightTypes texts s s.typed v.ballot.slot.1 voteTypes) :
    Inv texts { s.setVoteTypes v.ballot.slot.1
        (some (JsMap.set voteTypes v.ballot.proposalId (v.ballot.vote texts))) with
      handler := .idle
      typed := v.ballot :: s.typed
      waiting := rest } := by
  have hv : v ∈ s.cast := h.waiting v (by rw [hwaiting]; exact List.mem_cons_self)
  -- the other votes are as right as before
  have hothers : ∀ key p vote, (key, p) ≠ v.ballot.slot → Right texts s s.typed key p vote →
      Right texts s (v.ballot :: s.typed) key p vote := by
    intro key p vote hne hvote
    refine hvote.imp_right fun hnone => ⟨hnone.1, fun b hb => ?_⟩
    rcases List.mem_cons.mp hb with rfl | hb
    · exact fun heq => hne heq.symm
    · exact hnone.2 b hb
  refine { h with
    waiting := fun u hu => h.waiting u (by rw [hwaiting]; exact List.mem_cons_of_mem _ hu)
    typed := List.forall_mem_cons.mpr ⟨⟨v, hv, rfl⟩, h.typed⟩
    voteTypes := ?_
    voteReads := fun r hr =>
      VoteReadOk.mono (s := s) (fun _ hv => hv) (List.subset_cons_self _ _) (h.voteReads r hr)
    handler := fun _ _ => trivial
    idle := fun _ => rfl }
  intro key voteTypes' hget p vote hvote
  rcases get_update hget with ⟨rfl, hnew⟩ | ⟨hne, hold⟩
  · obtain rfl := Option.some.inj hnew
    rw [JsMap.get_set] at hvote
    by_cases hp : p = v.ballot.proposalId
    · subst hp
      rw [if_pos rfl] at hvote
      exact Or.inl ⟨v, hv, rfl, Option.some.inj hvote⟩
    · rw [if_neg hp] at hvote
      exact hothers _ _ _ (fun heq => hp (Prod.mk.inj heq).2) (hright p vote hvote)
  · exact hothers _ _ _ (fun heq => hne (Prod.mk.inj heq).1) (h.voteTypes key voteTypes' hold p
      vote hvote)

theorem inv_stepHandler (h : s.Inv texts) {v : Vote} {rest : List Vote}
    (hwaiting : s.waiting = v :: rest) : (s.stepHandler texts v.ballot rest).Inv texts := by
  have hv : ∃ u ∈ s.cast, u.ballot = v.ballot :=
    ⟨v, h.waiting v (by rw [hwaiting]; exact List.mem_cons_self), rfl⟩
  have hheld := h.handler v (by rw [hwaiting]; rfl)
  -- a phase for the event at the head
  have hset : ∀ phase, HandlerOk texts s v.ballot.slot.1 phase →
      Inv texts { s with handler := phase } :=
    fun _ hok => h.setHandler hwaiting hok
  unfold stepHandler
  -- a cached list or an empty one is taken over as it is, and the write of a list
  -- changes nothing but that entry
  dsimp only
  split
  next => exact hset _ trivial
  next =>
    split
    next proposals hget => exact hset _ (h.votedProposals _ proposals hget)
    next => exact hset _ trivial
  next => exact hset _ (rightList_raw h.listed)
  next proposals hloaded =>
    rw [hloaded] at hheld
    refine Inv.setVotedProposals (hset (.hasProposals proposals) hheld) ?_
    intro p hp
    exact Option.some.inj hp ▸ hheld
  next proposals hhas =>
    rw [hhas] at hheld
    exact inv_listed h (by rw [hwaiting]; exact List.cons_ne_nil _ _) hv hheld
  next =>
    split
    next voteTypes hget => exact hset _ (h.voteTypes _ voteTypes hget)
    next => exact hset _ trivial
  next =>
    refine Inv.setVoteTypes (hset (.hasTypes []) rightTypes_nil) ?_
    intro m hm
    exact Option.some.inj hm ▸ rightTypes_nil
  next voteTypes hhas =>
    rw [hhas] at hheld
    exact inv_typed h hwaiting hheld

/-- One more vote is cast. -/
theorem inv_vote (h : s.Inv texts) {v : Vote}
    (hnew : v.ballot.slot ∉ s.cast.map fun u => u.ballot.slot) :
    Inv texts { s with cast := s.cast ++ [v], waiting := s.waiting ++ [v] } := by
  have hcast : s.cast ⊆ s.cast ++ [v] := List.subset_append_left _ _
  have hknown : ∀ b, (∃ u ∈ s.cast, u.ballot = b) → ∃ u ∈ s.cast ++ [v], u.ballot = b := by
    rintro b ⟨u, hu, hb⟩
    exact ⟨u, hcast hu, hb⟩
  constructor
  · rw [List.map_append, List.map_singleton]
    refine List.nodup_append.mpr ⟨h.once, List.nodup_singleton _, ?_⟩
    intro slot hslot slot' hslot' heq
    rw [List.mem_singleton.mp hslot'] at heq
    exact hnew (heq ▸ hslot)
  · intro u hu
    rcases List.mem_append.mp hu with hu | hu
    · exact hcast (h.waiting u hu)
    · exact List.mem_append_right _ hu
  · exact fun b hb => hknown b (h.listed b hb)
  · exact fun b hb => hknown b (h.typed b hb)
  · exact fun u hu => hcast (h.indexed u hu)
  · exact fun key proposals hget =>
      (h.votedProposals key proposals hget).mono hcast (List.Subset.refl _)
  · exact fun key voteTypes hget =>
      (h.voteTypes key voteTypes hget).mono hcast (List.Subset.refl _)
  · exact fun r hr => (h.votedReads r hr).mono hcast (List.Subset.refl _)
  · exact fun r hr => (h.voteReads r hr).mono hcast (List.Subset.refl _)
  -- the new vote is the head of the queue only if nothing was waiting, and then the
  -- handler is idle
  · intro u hu
    have hhead : (s.waiting ++ [v]).head? = some u := hu
    cases hwaiting : s.waiting with
    | nil =>
      show HandlerOk texts _ u.ballot.slot.1 s.handler
      rw [h.idle hwaiting]
      trivial
    | cons w rest =>
      rw [hwaiting] at hhead
      obtain rfl : w = u := Option.some.inj hhead
      exact (h.handler w (by rw [hwaiting]; rfl)).mono hcast rfl rfl
  · intro hempty
    exact absurd hempty (by simp)

theorem inv_index (h : s.Inv texts) {v : Vote} (hv : v ∈ s.cast) :
    Inv texts { s with indexed := v :: s.indexed } :=
  { h with indexed := List.forall_mem_cons.mpr ⟨hv, h.indexed⟩ }

theorem inv_handlerFails (h : s.Inv texts) {waiting : List Vote}
    (hwaiting : ∀ v ∈ waiting, v ∈ s.waiting) :
    Inv texts { s with handler := .idle, waiting := waiting } :=
  { h with
    waiting := fun v hv => h.waiting v (hwaiting v hv)
    handler := fun _ _ => trivial
    idle := fun _ => rfl }

theorem inv_hasUserVoted (h : s.Inv texts) (scAddress userAddress : Address) (proposalId : ℕ) :
    Inv texts { s with votedReads := s.votedReads ++
      [⟨scAddress, userAddress, proposalId, s.listed, .looking⟩] } :=
  { h with
    votedReads := by
      intro r hr
      rcases List.mem_append.mp hr with hr | hr
      · exact h.votedReads r hr
      · rw [List.mem_singleton.mp hr]
        exact ⟨fun _ hb => hb, trivial⟩ }

theorem inv_userVote (h : s.Inv texts) (scAddress userAddress : Address) (proposalId : ℕ) :
    Inv texts { s with voteReads := s.voteReads ++
      [⟨scAddress, userAddress, proposalId, s.typed, .looking⟩] } :=
  { h with
    voteReads := by
      intro r hr
      rcases List.mem_append.mp hr with hr | hr
      · exact h.voteReads r hr
      · rw [List.mem_singleton.mp hr]
        exact ⟨fun _ hb => hb, trivial⟩ }

/-- Every step keeps the invariant, if nobody is overtaken. -/
theorem inv_step {a : Action} (h : s.Inv texts) (hok : s.Undisturbed texts a)
    (hstep : s.step texts a = some s') : s'.Inv texts := by
  cases a with
  | vote v =>
    simp only [step] at hstep
    split at hstep
    next => exact absurd hstep (by simp)
    next hnew =>
      obtain rfl := Option.some.inj hstep
      exact inv_vote h hnew
  | index i =>
    simp only [step] at hstep
    split at hstep
    next v hv =>
      obtain rfl := Option.some.inj hstep
      exact inv_index h (List.mem_of_getElem? hv)
    next => exact absurd hstep (by simp)
  -- a cached answer ends the read at once; otherwise it waits, for the chain or for the
  -- votes
  | hasUserVoted scAddress proposalId userAddress =>
    simp only [step] at hstep
    split at hstep
    next =>
      obtain rfl := Option.some.inj hstep
      exact h
    next =>
      split at hstep
      next =>
        obtain rfl := Option.some.inj hstep
        exact h
      next =>
        obtain rfl := Option.some.inj hstep
        exact inv_hasUserVoted h _ _ _
  | userVote scAddress proposalId userAddress =>
    simp only [step] at hstep
    split at hstep
    next =>
      obtain rfl := Option.some.inj hstep
      exact h
    next =>
      obtain rfl := Option.some.inj hstep
      exact inv_userVote h _ _ _
  | advanceVoted i =>
    obtain ⟨r, hi, hstep⟩ := Option.bind_eq_some_iff.mp hstep
    exact inv_stepVoted h hi hok hstep
  | advanceVote i =>
    obtain ⟨r, hi, hstep⟩ := Option.bind_eq_some_iff.mp hstep
    exact inv_stepVote h hi hok hstep
  | search i logs => exact inv_search h hok hstep
  -- a read that fails only moves to its end, and has answered nothing
  | failVoted i =>
    simp only [step] at hstep
    split at hstep
    next r hi =>
      split at hstep
      next => exact absurd hstep (by simp)
      next =>
        obtain rfl := Option.some.inj hstep
        exact h.moveVoted ⟨(h.votedReads r (List.mem_of_getElem? hi)).1, trivial⟩
    next => exact absurd hstep (by simp)
  | failVote i =>
    simp only [step] at hstep
    split at hstep
    next r hi =>
      split at hstep
      next => exact absurd hstep (by simp)
      next =>
        obtain rfl := Option.some.inj hstep
        exact h.moveVote ⟨(h.voteReads r (List.mem_of_getElem? hi)).1, trivial⟩
    next => exact absurd hstep (by simp)
  | handle =>
    simp only [step] at hstep
    split at hstep
    next v rest hwaiting =>
      obtain rfl := Option.some.inj hstep
      exact inv_stepHandler h hwaiting
    next => exact absurd hstep (by simp)
  | handlerFails again =>
    simp only [step] at hstep
    split at hstep
    next v rest hwaiting =>
      obtain rfl := Option.some.inj hstep
      -- a message that comes again stays in the queue, so the votes that wait are no
      -- fewer
      refine inv_handlerFails h ?_
      rw [hwaiting]
      cases again with
      | true => exact fun _ hu => hu
      | false => exact fun _ hu => List.mem_cons_of_mem _ hu
    next => exact absurd hstep (by simp)
  | expireVotedProposals key =>
    obtain rfl := Option.some.inj hstep
    exact h.setVotedProposals fun _ hnone => absurd hnone (by simp)
  | expireVoteTypes key =>
    obtain rfl := Option.some.inj hstep
    exact h.setVoteTypes fun _ hnone => absurd hnone (by simp)

/-- A vote that was cast is the only one of its slot. -/
theorem Inv.eq_of_slot (h : s.Inv texts) {v v' : Vote} (hv : v ∈ s.cast) (hv' : v' ∈ s.cast)
    (hslot : v.ballot.slot = v'.ballot.slot) : v = v' :=
  List.inj_on_of_nodup_map h.once hv hv' hslot

end Invariant

/-! ## What a user is shown -/

/-- Every `userVote` that has its answer shows the vote the handler had taken in
before it was called, and no vote that was not cast; and so for `hasUserVoted`. -/
structure Shown (s : UserVotes) : Prop where
  taken_vote : ∀ r ∈ s.voteReads, ∀ vote, r.phase = .returned vote →
    ∀ b ∈ r.before, b.slot = (r.key, r.proposalId) → vote = b.vote texts
  cast_of_vote : ∀ r ∈ s.voteReads, ∀ vote, r.phase = .returned vote → vote ≠ .NotVoted →
    ∃ v ∈ s.cast, v.ballot.slot = (r.key, r.proposalId) ∧ v.ballot.vote texts = vote
  taken_voted : ∀ r ∈ s.votedReads, ∀ proposals, r.phase = .returned proposals →
    ∀ b ∈ r.before, b.slot = (r.key, r.proposalId) → r.proposalId ∈ proposals
  cast_of_voted : ∀ r ∈ s.votedReads, ∀ proposals, r.phase = .returned proposals →
    r.proposalId ∈ proposals → ∃ v ∈ s.cast, v.ballot.slot = (r.key, r.proposalId)

def sampleTexts : VoteTexts where
  event
    | .UP => "up"
    | .DOWN => "down"
    | .DOWN_VETO => "downVeto"
    | .ABSTAIN => "abstain"
  hex := fun _ => "0139aa"
  oldEnergy := fun _ => false

/-- A vote in favour, and its log: one topic each for the event (`up`), the
proposal, the user and the number of votes. -/
def sampleVote (proposalId nrVotes : ℕ) : Vote where
  ballot := ⟨sampleGovernance, sampleGovernance, proposalId, .UP⟩
  log :=
    { address := sampleGovernance
      events := [
        { address := sampleGovernance
          identifier := "vote"
          topics := [hexToBase64 "7570", encodedProposalId proposalId,
            encodedCallerAddress sampleTexts sampleGovernance, encodedProposalId nrVotes] },
        { address := sampleGovernance, identifier := "completedTxEvent", topics := ["AA=="] }] }

/-- A `userVote` that finds no list, and what it finds in the log. -/
def searchVote (i proposalId : ℕ) (logs : List TransactionLog) : List Action :=
  [.userVote sampleGovernance proposalId (some sampleGovernance), .advanceVote i, .advanceVote i,
    .search i logs]

/-- The votes the handler had taken in before each `userVote`, and its answer. -/
def answers (s : UserVotes) : List (List Ballot × VotePhase) :=
  s.voteReads.map fun r => (r.before, r.phase)

/-- The user looks for a vote, casts two, and looks again: while the second is
being handled, and after the list of votes has expired. -/
def votedTwice : List Action :=
  searchVote 0 1 [] ++ [.advanceVote 0] ++
    [.vote (sampleVote 1 5), .vote (sampleVote 2 7), .index 0, .index 1] ++
    List.replicate 7 .handle ++ List.replicate 3 .handle ++
    [.userVote sampleGovernance 1 (some sampleGovernance), .advanceVote 1] ++
    List.replicate 2 .handle ++ [.expireVoteTypes (sampleGovernance, sampleGovernance)] ++
    searchVote 2 1 [(sampleVote 1 5).log] ++ [.advanceVote 2] ++
    [.hasUserVoted sampleGovernance 2 (some sampleGovernance), .advanceVoted 0]

/-- The vote is handled and expires before its log can be searched. -/
theorem vote_missed :
    (run (step sampleTexts) start ([.vote (sampleVote 1 5)] ++ List.replicate 8 .handle ++
      [.expireVoteTypes (sampleGovernance, sampleGovernance)] ++ searchVote 0 1 [] ++
      [.advanceVote 0, .index 0])).map answers =
    some [([(sampleVote 1 5).ballot], .returned .NotVoted)] := by
  decide +kernel

/-- One vote is cast for proposal 2, and shown for proposal 1. -/
theorem vote_lookalike :
    (run (step sampleTexts) start ([.vote (sampleVote 2 1), .index 0] ++
      searchVote 0 1 [(sampleVote 2 1).log] ++ [.advanceVote 0])).map answers =
    some [([], .returned .UpVote)] := by
  decide +kernel

/-- The vote is cast and handled after the log has been searched, and before
the answer is stored. -/
theorem vote_overtaken :
    (run (step sampleTexts) start (searchVote 0 1 [] ++ [.vote (sampleVote 1 5), .index 0] ++
      List.replicate 7 .handle ++ [.advanceVote 0,
        .userVote sampleGovernance 1 (some sampleGovernance), .advanceVote 1])).map answers =
    some [([], .returned .NotVoted), ([(sampleVote 1 5).ballot], .returned .NotVoted)] := by
  decide +kernel

end UserVotes

end MxExchange.Governance
