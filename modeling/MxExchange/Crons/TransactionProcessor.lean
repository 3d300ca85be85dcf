import MxExchange.Collections.Runs
import MxExchange.Text.Buffer

/-!
# `transaction.processor.service.ts`

Every ten seconds the processor fetches the transactions since
`lastProcessedTimestamp`, reads the endpoint each of them calls out of its
data, and notes the gas it left unused if the endpoint is one of a list. Then
it moves the timestamp. There is one `try` around all of it: an exception at
one transaction leaves the rest unprocessed and the timestamp where it was, so
the next run comes to the same transaction again (`handleAll_stuck`).

The exceptions come from the data, which is what anybody sent. `Buffer.from`
throws if there is no argument where `MultiESDTNFTTransferEndpoint` looks for
one: its check of the number of arguments lets pass one that is too few, a
count that is no number, and a negative one (`multiEndpoint_ok_iff`). The
constructor of an address, a function of another package, throws on what is
no address.
-/

namespace MxExchange.Crons

open MxExchange.Text MxExchange.Collections

/-- A string is the list of its characters. -/
abbrev Text := List Char

/-- What the processor reads of a transaction. -/
structure Transaction where
  receiver : Text
  data : Option Text
  gasLimit : ℤ
  gasUsed : ℤ

/-- The endpoints of the configuration, and `new Address(value).bech32()`:
nothing if one of the two throws. The value is missing where an argument is. -/
structure ProcessorConfig where
  endpoints : List Text
  bech32 : Option Text → Option Text

inductive TransactionError
  | invalidArgType
  | invalidAddress
  deriving DecidableEq

/-- A label of the histogram, and the value observed for it. -/
structure GasDifference where
  endpoint : Text
  receiver : Text
  gasDifference : ℤ
  deriving DecidableEq

/-! ## Endpoints and receivers

An endpoint may be `undefined`, which is none inside of a result. -/

/-- `Buffer.from(arg, 'hex').toString()`. -/
def decodeArgument : Option Text → Except TransactionError Text
  | some argument => .ok (bufferToString (bufferFromHex argument))
  | none => .error .invalidArgType

/-- The function behind token and amount. -/
def ESDTTransferEndpoint (functionArgs : List Text) : Except TransactionError (Option Text) :=
  if functionArgs.length < 3 then .ok none else (decodeArgument functionArgs[2]?).map some

/-- The function behind token, nonce, amount and receiver. -/
def ESDTNFTTransferEndpoint (functionArgs : List Text) : Except TransactionError (Option Text) :=
  if functionArgs.length < 5 then .ok none else (decodeArgument functionArgs[4]?).map some

/-- An argument by an index that is computed: none if it is negative. -/
def argumentAt (functionArgs : List Text) (index : ℤ) : Option Text :=
  if index < 0 then none else functionArgs[index.toNat]?

/-- `parseInt` of a missing argument reads the word `undefined`, which is no
number either. Comparing with `NaN` is false, and there is no argument at it. -/
def MultiESDTNFTTransferEndpoint (functionArgs : List Text) :
    Except TransactionError (Option Text) :=
  match parseInt16 (functionArgs[1]?.getD "undefined".toList) with
  | some tokensLength =>
    if (functionArgs.length : ℤ) < 2 + tokensLength * 3 then .ok none
    else (decodeArgument (argumentAt functionArgs (2 + tokensLength * 3))).map some
  | none => (decodeArgument none).map some

/-- The address in an argument, or the error of the network library. -/
def addressOf (config : ProcessorConfig) (value : Option Text) : Except TransactionError Text :=
  match config.bech32 value with
  | some address => .ok address
  | none => .error .invalidAddress

/-- The receiver is the fourth argument; the transaction is sent to the sender.
-/
def ESDTNFTTransferReceiver (config : ProcessorConfig) (functionArgs : List Text) :
    Except TransactionError Text :=
  addressOf config functionArgs[3]?

/-- The receiver is the first argument. -/
def MultiESDTNFTTransferReceiver (config : ProcessorConfig) (functionArgs : List Text) :
    Except TransactionError Text :=
  addressOf config functionArgs[0]?

/-! ## The loop -/

/-- The parts of the data between the `@`s. -/
def decodeInputData (data : Text) : List Text :=
  (bufferToString (bufferFromBase64 data)).splitOn '@'

/-- What the `switch` over the function's name finds. -/
def endpointAndReceiver (config : ProcessorConfig) (transaction : Transaction)
    (functionName : Text) (functionArgs : List Text) :
    Except TransactionError (Option Text × Text) :=
  if functionName = "ESDTTransfer".toList then do
    let endpoint ← ESDTTransferEndpoint functionArgs
    return (endpoint, transaction.receiver)
  else if functionName = "ESDTNFTTransfer".toList then do
    let endpoint ← ESDTNFTTransferEndpoint functionArgs
    let receiver ← ESDTNFTTransferReceiver config functionArgs
    return (endpoint, receiver)
  else if functionName = "MultiESDTNFTTransfer".toList then do
    let endpoint ← MultiESDTNFTTransferEndpoint functionArgs
    let receiver ← MultiESDTNFTTransferReceiver config functionArgs
    return (endpoint, receiver)
  else .ok (some functionName, transaction.receiver)

/-- `endpoints.find(...)` finds a string, and an empty one counts as nothing. -/
def isPredefined (config : ProcessorConfig) (endpoint : Option Text) : Bool :=
  match endpoint with
  | some endpoint => endpoint ≠ [] ∧ endpoint ∈ config.endpoints
  | none => false

/-- The body of the loop, and what it observes. -/
def processTransaction (config : ProcessorConfig) (transaction : Transaction) :
    Except TransactionError (List GasDifference) :=
  match transaction.data with
  | none => .ok []
  | some data =>
    match decodeInputData data with
    | [] => .ok []
    | functionName :: functionArgs => do
      let (endpoint, receiver) ← endpointAndReceiver config transaction functionName functionArgs
      if isPredefined config endpoint then
        return [{ endpoint := endpoint.getD []
                  receiver := receiver
                  gasDifference := transaction.gasLimit - transaction.gasUsed }]
      else return []

/-- The loop: what it observed, up to an exception or to the end. -/
def processTransactions (config : ProcessorConfig) :
    List Transaction → List GasDifference → Except TransactionError Unit × List GasDifference
  | [], observed => (.ok (), observed)
  | transaction :: transactions, observed =>
    match processTransaction config transaction with
    | .error error => (.error error, observed)
    | .ok differences => processTransactions config transactions (observed ++ differences)

/-! ## A run -/

/-- The service, the entry of the cache, and the histogram. -/
structure TransactionProcessor where
  isProcessing : Bool
  lastProcessedTimestamp : Option ℕ
  gasDifferences : List GasDifference

/-- Whether the cache answers, and what else a run is told; what is none throws. -/
structure Surroundings where
  cacheGet : Bool
  shardTimestamp : Option ℕ
  getTransactions : ℕ → ℕ → Option (List Transaction)
  cacheSet : Bool

def setTimestamp (s : Surroundings) (timestamp : ℕ) (p : TransactionProcessor) :
    TransactionProcessor :=
  if s.cacheSet then { p with lastProcessedTimestamp := some timestamp } else p

/-- The body of the `try`. A timestamp of zero counts as none. -/
def processNewTransactions (config : ProcessorConfig) (s : Surroundings)
    (p : TransactionProcessor) : TransactionProcessor :=
  match s.cacheGet, s.shardTimestamp with
  | false, _ => p
  | true, none => p
  | true, some shardTimestamp =>
    let entry := p.lastProcessedTimestamp.getD 0
    let lastProcessedTimestamp := if entry = 0 then shardTimestamp else entry
    let currentTimestamp := shardTimestamp
    if currentTimestamp = lastProcessedTimestamp then setTimestamp s currentTimestamp p
    else
      match s.getTransactions (lastProcessedTimestamp + 1) currentTimestamp with
      | none => p
      | some transactions =>
        match processTransactions config transactions p.gasDifferences with
        | (.error _, observed) => { p with gasDifferences := observed }
        | (.ok (), observed) =>
          setTimestamp s currentTimestamp { p with gasDifferences := observed }

/-- `handleNewTransactions`, with its `finally`. -/
def handleNewTransactions (config : ProcessorConfig) (s : Surroundings)
    (p : TransactionProcessor) : TransactionProcessor :=
  if p.isProcessing then p
  else
    { processNewTransactions config s { p with isProcessing := true } with
      isProcessing := false }

/-! ## The parsers -/

section Parsers

variable {functionArgs : List Text}

/-- What the argument at the function's position is decoded to, if it is there. -/
def functionArgument (position : Option ℕ) (functionArgs : List Text) : Option Text :=
  (position.bind fun i => functionArgs[i]?).map fun argument =>
    bufferToString (bufferFromHex argument)

/-- The position of the function after the tokens of a multi transfer. -/
def multiPosition (functionArgs : List Text) : Option ℕ :=
  match parseInt16 (functionArgs[1]?.getD "undefined".toList) with
  | some tokensLength => if tokensLength < 0 then none else some (2 + tokensLength.toNat * 3)
  | none => none

/-- The count is one of tokens, and the arguments do not end where the
function's position is. -/
def CountReadable (functionArgs : List Text) : Prop :=
  ∃ n : ℕ, parseInt16 (functionArgs[1]?.getD "undefined".toList) = some (n : ℤ) ∧
    functionArgs.length ≠ 2 + n * 3

theorem decodeArgument_eq (position : ℕ) (h : position < functionArgs.length) :
    (decodeArgument functionArgs[position]?).map some =
      .ok (functionArgument (some position) functionArgs) := by
  rw [functionArgument, Option.bind_some, List.getElem?_eq_getElem h]
  rfl

theorem functionArgument_eq_none {position : ℕ} (h : functionArgs.length ≤ position) :
    functionArgument (some position) functionArgs = none := by
  rw [functionArgument, Option.bind_some, List.getElem?_eq_none h]
  rfl

theorem ESDTTransferEndpoint_eq (functionArgs : List Text) :
    ESDTTransferEndpoint functionArgs = .ok (functionArgument (some 2) functionArgs) := by
  unfold ESDTTransferEndpoint
  split
  next hlt => rw [functionArgument_eq_none (by omega)]
  next hge => exact decodeArgument_eq 2 (by omega)

theorem ESDTNFTTransferEndpoint_eq (functionArgs : List Text) :
    ESDTNFTTransferEndpoint functionArgs = .ok (functionArgument (some 4) functionArgs) := by
  unfold ESDTNFTTransferEndpoint
  split
  next hlt => rw [functionArgument_eq_none (by omega)]
  next hge => exact decodeArgument_eq 4 (by omega)

theorem error_of_not_countReadable (h : ¬CountReadable functionArgs) :
    MultiESDTNFTTransferEndpoint functionArgs = .error .invalidArgType := by
  unfold MultiESDTNFTTransferEndpoint
  cases hparse : parseInt16 (functionArgs[1]?.getD "undefined".toList) with
  | none => rfl
  | some tokensLength =>
    dsimp only
    rcases Int.lt_or_le tokensLength 0 with hneg | hpos
    · -- the index is negative as well
      rw [if_neg (by omega), argumentAt, if_pos (by omega)]
      rfl
    · obtain ⟨n, rfl⟩ := Int.eq_ofNat_of_zero_le hpos
      have hlength : functionArgs.length = 2 + n * 3 := by
        by_contra hne
        exact h ⟨n, hparse, hne⟩
      rw [if_neg (by omega), argumentAt, if_neg (by omega), List.getElem?_eq_none (by omega)]
      rfl

theorem ok_of_countReadable (h : CountReadable functionArgs) :
    MultiESDTNFTTransferEndpoint functionArgs =
      .ok (functionArgument (multiPosition functionArgs) functionArgs) := by
  obtain ⟨n, hparse, hlength⟩ := h
  have hposition : multiPosition functionArgs = some (2 + n * 3) := by
    rw [multiPosition, hparse]
    rfl
  rw [hposition, MultiESDTNFTTransferEndpoint, hparse]
  dsimp only
  split
  next hlt => rw [functionArgument_eq_none (by omega)]
  next hge =>
    have hindex : argumentAt functionArgs (2 + (n : ℤ) * 3) = functionArgs[2 + n * 3]? := by
      rw [argumentAt, if_neg (by omega)]
      congr 1
    rw [hindex]
    exact decodeArgument_eq _ (by omega)

/-- The third parser returns what the format says unless it throws. -/
theorem multiEndpoint_ok_iff (functionArgs : List Text) :
    MultiESDTNFTTransferEndpoint functionArgs =
        .ok (functionArgument (multiPosition functionArgs) functionArgs) ↔
      CountReadable functionArgs := by
  refine ⟨?_, ok_of_countReadable⟩
  intro h
  by_contra hcount
  rw [error_of_not_countReadable hcount] at h
  cases h

end Parsers

/-! ## Transactions that can be read -/

/-- The receiver of an NFT transfer is an address, and that of a multi
transfer, whose count of tokens can be read as well. -/
structure CallReadable (config : ProcessorConfig) (functionName : Text)
    (functionArgs : List Text) : Prop where
  single : functionName = "ESDTNFTTransfer".toList → config.bech32 functionArgs[3]? ≠ none
  multi : functionName = "MultiESDTNFTTransfer".toList →
    CountReadable functionArgs ∧ config.bech32 functionArgs[0]? ≠ none

/-- The arguments that are read can be. -/
def Readable (config : ProcessorConfig) (transaction : Transaction) : Prop :=
  match transaction.data.map decodeInputData with
  | some (functionName :: functionArgs) => CallReadable config functionName functionArgs
  | _ => True

/-- The endpoint a transaction calls, by the format of its transfer, and the
contract that is called. -/
def calledEndpoint (config : ProcessorConfig) (transaction : Transaction) (functionName : Text)
    (functionArgs : List Text) : Option Text × Text :=
  if functionName = "ESDTTransfer".toList then
    (functionArgument (some 2) functionArgs, transaction.receiver)
  else if functionName = "ESDTNFTTransfer".toList then
    (functionArgument (some 4) functionArgs, (config.bech32 functionArgs[3]?).getD [])
  else if functionName = "MultiESDTNFTTransfer".toList then
    (functionArgument (multiPosition functionArgs) functionArgs,
      (config.bech32 functionArgs[0]?).getD [])
  else (some functionName, transaction.receiver)

/-- What is to be observed of a transaction. -/
def gasDifferencesOf (config : ProcessorConfig) (transaction : Transaction) :
    List GasDifference :=
  match transaction.data.map decodeInputData with
  | some (functionName :: functionArgs) =>
    let (endpoint, receiver) := calledEndpoint config transaction functionName functionArgs
    if isPredefined config endpoint then
      [{ endpoint := endpoint.getD []
         receiver := receiver
         gasDifference := transaction.gasLimit - transaction.gasUsed }]
    else []
  | _ => []

section Transactions

variable {config : ProcessorConfig} {transaction : Transaction} {transactions : List Transaction}
  {functionName : Text} {functionArgs : List Text} {observed : List GasDifference}

theorem addressOf_eq_ok {value : Option Text} (h : config.bech32 value ≠ none) :
    addressOf config value = .ok ((config.bech32 value).getD []) := by
  obtain ⟨address, haddress⟩ := Option.ne_none_iff_exists'.mp h
  rw [addressOf, haddress]
  rfl

theorem addressOf_eq_error {value : Option Text} (h : config.bech32 value = none) :
    addressOf config value = .error .invalidAddress := by
  rw [addressOf, h]

/-- The `switch` throws, or finds what is called. -/
theorem endpointAndReceiver_cases (config : ProcessorConfig) (transaction : Transaction)
    (functionName : Text) (functionArgs : List Text) :
    (CallReadable config functionName functionArgs ∧
      endpointAndReceiver config transaction functionName functionArgs =
        .ok (calledEndpoint config transaction functionName functionArgs)) ∨
    (¬CallReadable config functionName functionArgs ∧
      ∃ error, endpointAndReceiver config transaction functionName functionArgs =
        .error error) := by
  -- one case for each transfer format, and one for a plain call
  unfold endpointAndReceiver calledEndpoint
  by_cases hsingle : functionName = "ESDTTransfer".toList
  · subst hsingle
    refine Or.inl ⟨⟨fun h => absurd h (by decide), fun h => absurd h (by decide)⟩, ?_⟩
    rw [if_pos rfl, if_pos rfl, ESDTTransferEndpoint_eq]
    rfl
  · rw [if_neg hsingle, if_neg hsingle]
    by_cases hnft : functionName = "ESDTNFTTransfer".toList
    · subst hnft
      rw [if_pos rfl, if_pos rfl, ESDTNFTTransferEndpoint_eq, ESDTNFTTransferReceiver]
      by_cases haddress : config.bech32 functionArgs[3]? = none
      · refine Or.inr ⟨fun h => h.single rfl haddress, .invalidAddress, ?_⟩
        rw [addressOf_eq_error haddress]
        rfl
      · refine Or.inl ⟨⟨fun _ => haddress, fun h => absurd h (by decide)⟩, ?_⟩
        rw [addressOf_eq_ok haddress]
        rfl
    · rw [if_neg hnft, if_neg hnft]
      by_cases hmulti : functionName = "MultiESDTNFTTransfer".toList
      · subst hmulti
        rw [if_pos rfl, if_pos rfl, MultiESDTNFTTransferReceiver]
        by_cases hcount : CountReadable functionArgs
        · rw [ok_of_countReadable hcount]
          by_cases haddress : config.bech32 functionArgs[0]? = none
          · refine Or.inr ⟨fun h => (h.multi rfl).2 haddress, .invalidAddress, ?_⟩
            rw [addressOf_eq_error haddress]
            rfl
          · refine Or.inl ⟨⟨fun h => absurd h (by decide), fun _ => ⟨hcount, haddress⟩⟩, ?_⟩
            rw [addressOf_eq_ok haddress]
            rfl
        · refine Or.inr ⟨fun h => hcount (h.multi rfl).1, .invalidArgType, ?_⟩
          rw [error_of_not_countReadable hcount]
          rfl
      · rw [if_neg hmulti, if_neg hmulti]
        exact Or.inl ⟨⟨fun h => absurd h hnft, fun h => absurd h hmulti⟩, rfl⟩

/-- One round of the loop. -/
theorem processTransaction_cases (config : ProcessorConfig) (transaction : Transaction) :
    (Readable config transaction ∧
      processTransaction config transaction = .ok (gasDifferencesOf config transaction)) ∨
    (¬Readable config transaction ∧
      ∃ error, processTransaction config transaction = .error error) := by
  unfold Readable processTransaction gasDifferencesOf
  cases transaction.data with
  | none => exact Or.inl ⟨trivial, rfl⟩
  | some data =>
    simp only [Option.map_some]
    cases decodeInputData data with
    | nil => exact Or.inl ⟨trivial, rfl⟩
    | cons functionName functionArgs =>
      dsimp only
      rcases endpointAndReceiver_cases config transaction functionName functionArgs with
        ⟨hreadable, hok⟩ | ⟨hnot, error, herror⟩
      · refine Or.inl ⟨hreadable, ?_⟩
        rw [hok]
        show (if _ then _ else _) = _
        split <;> rfl
      · refine Or.inr ⟨hnot, error, ?_⟩
        rw [herror]
        rfl

/-- The loop comes to its end over transactions that can be read. -/
theorem processTransactions_ok (h : ∀ transaction ∈ transactions, Readable config transaction) :
    processTransactions config transactions observed =
      (.ok (), observed ++ transactions.flatMap (gasDifferencesOf config)) := by
  induction transactions generalizing observed with
  | nil => rw [processTransactions, List.flatMap_nil, List.append_nil]
  | cons transaction transactions ih =>
    rcases processTransaction_cases config transaction with ⟨-, hok⟩ | ⟨hnot, -⟩
    · rw [processTransactions, hok]
      dsimp only
      rw [ih fun later hlater => h later (List.mem_cons_of_mem _ hlater), List.flatMap_cons,
        List.append_assoc]
    · exact absurd (h transaction (List.mem_cons_self ..)) hnot

/-- And throws at the first that cannot. -/
theorem processTransactions_error (observed : List GasDifference)
    (h : ∃ transaction ∈ transactions, ¬Readable config transaction) :
    ∃ error, (processTransactions config transactions observed).1 = .error error := by
  induction transactions generalizing observed with
  | nil =>
    obtain ⟨transaction, hmem, -⟩ := h
    exact absurd hmem List.not_mem_nil
  | cons transaction transactions ih =>
    rw [processTransactions]
    rcases processTransaction_cases config transaction with ⟨hreadable, hok⟩ | ⟨-, error, herror⟩
    · rw [hok]
      obtain ⟨other, hmem, hnot⟩ := h
      rcases List.mem_cons.mp hmem with rfl | hlater
      · exact absurd hreadable hnot
      · exact ih _ ⟨other, hlater, hnot⟩
    · rw [herror]
      exact ⟨error, rfl⟩

end Transactions

/-! ## A run that gets its transactions -/

/-- Nothing but a transaction can go wrong: the checkpoint is there, a block
has come since, the transactions in between are fetched, and the cache takes
the new timestamp. -/
structure Fetches (s : Surroundings) (p : TransactionProcessor)
    (lastProcessedTimestamp currentTimestamp : ℕ) (transactions : List Transaction) : Prop where
  idle : p.isProcessing = false
  cacheGet : s.cacheGet = true
  entry : p.lastProcessedTimestamp = some lastProcessedTimestamp
  entry_ne : lastProcessedTimestamp ≠ 0
  shardTimestamp : s.shardTimestamp = some currentTimestamp
  current_ne : currentTimestamp ≠ lastProcessedTimestamp
  fetched : s.getTransactions (lastProcessedTimestamp + 1) currentTimestamp = some transactions
  cacheSet : s.cacheSet = true

section Run

variable {config : ProcessorConfig} {s : Surroundings} {p : TransactionProcessor}
  {last current : ℕ} {transactions : List Transaction}

theorem processNewTransactions_eq (h : Fetches s p last current transactions) :
    processNewTransactions config s { p with isProcessing := true } =
      match processTransactions config transactions p.gasDifferences with
      | (.error _, observed) => { p with isProcessing := true, gasDifferences := observed }
      | (.ok (), observed) => setTimestamp s current
          { p with isProcessing := true, gasDifferences := observed } := by
  unfold processNewTransactions
  simp only [h.cacheGet, h.shardTimestamp, h.entry, Option.getD_some, if_neg h.entry_ne,
    if_neg h.current_ne, h.fetched]

/-- **Robustness.** A run that fetches its transactions observes all of them
and moves the timestamp exactly if each of them can be read. Of the parsers,
two return the argument at the function's position or nothing for whatever
arguments, and the third does exactly if it can read the count. -/
theorem handleNewTransactions_iff (config : ProcessorConfig)
    (h : Fetches s p last current transactions) :
    ((handleNewTransactions config s p).gasDifferences =
          p.gasDifferences ++ transactions.flatMap (gasDifferencesOf config) ∧
        (handleNewTransactions config s p).lastProcessedTimestamp = some current ↔
      ∀ transaction ∈ transactions, Readable config transaction) ∧
    ∀ functionArgs,
      ESDTTransferEndpoint functionArgs = .ok (functionArgument (some 2) functionArgs) ∧
      ESDTNFTTransferEndpoint functionArgs = .ok (functionArgument (some 4) functionArgs) ∧
      (MultiESDTNFTTransferEndpoint functionArgs =
          .ok (functionArgument (multiPosition functionArgs) functionArgs) ↔
        CountReadable functionArgs) := by
  refine ⟨?_, fun functionArgs => ⟨ESDTTransferEndpoint_eq _, ESDTNFTTransferEndpoint_eq _,
    multiEndpoint_ok_iff _⟩⟩
  have hrun : handleNewTransactions config s p = { processNewTransactions config s
      { p with isProcessing := true } with isProcessing := false } := by
    rw [handleNewTransactions, if_neg (by rw [h.idle]; exact Bool.false_ne_true)]
  rw [hrun, processNewTransactions_eq h]
  constructor
  · rintro ⟨-, hmoved⟩
    by_contra hnot
    push Not at hnot
    obtain ⟨error, herror⟩ := processTransactions_error p.gasDifferences hnot
    cases hloop : processTransactions config transactions p.gasDifferences with
    | mk result observed =>
      rw [hloop] at herror hmoved
      obtain rfl : result = .error error := herror
      exact h.current_ne (Option.some.inj (hmoved.symm.trans h.entry))
  · intro hall
    rw [processTransactions_ok hall]
    dsimp only
    rw [setTimestamp, if_pos h.cacheSet]
    exact ⟨rfl, rfl⟩

/-- A run whose transactions cannot all be read leaves the timestamp. -/
theorem timestamp_of_not_readable (config : ProcessorConfig) (hidle : p.isProcessing = false)
    (hentry : p.lastProcessedTimestamp = some last) (hzero : last ≠ 0)
    (hfetched : ∀ current, s.shardTimestamp = some current → current ≠ last ∧
      ∀ transactions, s.getTransactions (last + 1) current = some transactions →
        ∃ transaction ∈ transactions, ¬Readable config transaction) :
    (handleNewTransactions config s p).lastProcessedTimestamp = some last ∧
      (handleNewTransactions config s p).isProcessing = false := by
  rw [handleNewTransactions, if_neg (by rw [hidle]; exact Bool.false_ne_true)]
  refine ⟨?_, rfl⟩
  -- whatever fails before the checkpoint is written leaves it as it is
  dsimp only
  unfold processNewTransactions
  cases hcache : s.cacheGet with
  | false => exact hentry
  | true =>
    cases hshard : s.shardTimestamp with
    | none => exact hentry
    | some current =>
      obtain ⟨hne, hall⟩ := hfetched current hshard
      simp only [hentry, Option.getD_some, if_neg hzero, if_neg hne]
      cases hget : s.getTransactions (last + 1) current with
      | none => rfl
      | some transactions =>
        obtain ⟨error, herror⟩ := processTransactions_error p.gasDifferences (hall _ hget)
        cases hloop : processTransactions config transactions p.gasDifferences with
        | mk result observed =>
          rw [hloop] at herror
          obtain rfl : result = .error error := herror
          dsimp only
          rw [hloop]

/-- One run after the other. -/
def handleAll (config : ProcessorConfig) (p : TransactionProcessor) (runs : List Surroundings) :
    TransactionProcessor :=
  runs.foldl (fun p s => handleNewTransactions config s p) p

/-- **For good.** The timestamp stays as long as a transaction that cannot be
read is among those fetched from it on, which it is in every later run. -/
theorem handleAll_stuck (config : ProcessorConfig) {runs : List Surroundings}
    (hidle : p.isProcessing = false) (hentry : p.lastProcessedTimestamp = some last)
    (hzero : last ≠ 0)
    (hfetched : ∀ s ∈ runs, ∀ current, s.shardTimestamp = some current → current ≠ last ∧
      ∀ transactions, s.getTransactions (last + 1) current = some transactions →
        ∃ transaction ∈ transactions, ¬Readable config transaction) :
    (handleAll config p runs).lastProcessedTimestamp = some last := by
  induction runs generalizing p with
  | nil => exact hentry
  | cons s runs ih =>
    obtain ⟨hentry', hidle'⟩ := timestamp_of_not_readable config hidle hentry hzero
      (hfetched s (List.mem_cons_self ..))
    exact ih hidle' hentry' fun s' hs' => hfetched s' (List.mem_cons_of_mem _ hs')

end Run

/-! ## A call, two transfers and a call without an argument -/

private def zeroAddress : Text :=
  "erd1qqqqqqqqqqqqqqqqqqqqqqqqqqqqqqqqqqqqqqqqqqqqqqqqqqqq6gq4hu".toList

/-- The key of zeros and the address of it are read; nothing else is one here. -/
private def farmEndpoints : ProcessorConfig where
  endpoints := ["enterFarm".toList, "exitFarm".toList]
  bech32 := fun value =>
    if value = some (List.replicate 64 '0') ∨ value = some zeroAddress then some zeroAddress
    else none

private def callOf (data : String) : Transaction where
  receiver := "erd1farm".toList
  data := some data.toList
  gasLimit := 1000
  gasUsed := 900

private def fetching (transactions : List Transaction) : Surroundings where
  cacheGet := true
  shardTimestamp := some 206
  getTransactions := fun _ _ => some transactions
  cacheSet := true

private def processor200 : TransactionProcessor where
  isProcessing := false
  lastProcessedTimestamp := some 200
  gasDifferences := []

private theorem fetches_fetching (transactions : List Transaction) :
    Fetches (fetching transactions) processor200 200 206 transactions where
  idle := rfl
  cacheGet := rfl
  entry := rfl
  entry_ne := by decide
  shardTimestamp := rfl
  current_ne := by decide
  fetched := rfl
  cacheSet := rfl

/-- `ESDTTransfer` of a token, for `exitFarm`. -/
private def exitFarmTransfer : Transaction :=
  callOf "RVNEVFRyYW5zZmVyQDRjNTAyZDMxQDY0QDY1Nzg2OTc0NDY2MTcyNmQ="

/-- `MultiESDTNFTTransfer` of a token to the contract at zero, for `enterFarm`. -/
private def enterFarmTransfer : Transaction :=
  callOf ("TXVsdGlFU0RUTkZUVHJhbnNmZXJAMDAwMDAwMDAwMDAwMDAwMDAwMDAwMDAwMDAwMDAwMDAwMDAwMDAwMDAw" ++
    "MDAwMDAwMDAwMDAwMDAwMDAwMDAwMEAwMUA0YzUwMmQzMUBANjRANjU2ZTc0NjU3MjQ2NjE3MjZk")

/-- A plain call and two transfers are observed. -/
theorem enterFarm_observed :
    let transactions := [callOf "ZW50ZXJGYXJt", exitFarmTransfer, enterFarmTransfer]
    let p := handleNewTransactions farmEndpoints (fetching transactions) processor200
    p.gasDifferences =
        [⟨"enterFarm".toList, "erd1farm".toList, 100⟩,
          ⟨"exitFarm".toList, "erd1farm".toList, 100⟩,
          ⟨"enterFarm".toList, zeroAddress, 100⟩] ∧
      p.lastProcessedTimestamp = some 206 := by
  have hcall : (callOf "ZW50ZXJGYXJt").data.map decodeInputData = some ["enterFarm".toList] := by
    decide +kernel
  have htransfer : exitFarmTransfer.data.map decodeInputData = some ["ESDTTransfer".toList,
      "4c502d31".toList, "64".toList, "657869744661726d".toList] := by
    decide +kernel
  have hmulti : enterFarmTransfer.data.map decodeInputData = some ["MultiESDTNFTTransfer".toList,
      List.replicate 64 '0', "01".toList, "4c502d31".toList, [], "64".toList,
      "656e7465724661726d".toList] := by
    decide +kernel
  have hreadable : ∀ transaction ∈ [callOf "ZW50ZXJGYXJt", exitFarmTransfer, enterFarmTransfer],
      Readable farmEndpoints transaction := by
    intro transaction hmem
    simp only [List.mem_cons, List.not_mem_nil, or_false] at hmem
    rcases hmem with rfl | rfl | rfl
    · rw [Readable, hcall]
      exact ⟨fun h => absurd h (by decide), fun h => absurd h (by decide)⟩
    · rw [Readable, htransfer]
      exact ⟨fun h => absurd h (by decide), fun h => absurd h (by decide)⟩
    · -- one token, and an argument behind it
      rw [Readable, hmulti]
      refine ⟨fun h => absurd h (by decide), fun _ => ⟨⟨1, by decide +kernel, by decide⟩, ?_⟩⟩
      decide +kernel
  obtain ⟨hobserved, hmoved⟩ :=
    (handleNewTransactions_iff farmEndpoints (fetches_fetching _)).1.mpr hreadable
  refine ⟨hobserved.trans ?_, hmoved⟩
  simp only [List.flatMap_cons, List.flatMap_nil, gasDifferencesOf, hcall, htransfer, hmulti]
  decide +kernel

/-- The data `MultiESDTNFTTransfer`, without an argument, before a good one. -/
theorem good_transaction_not_observed :
    let transactions := [callOf "TXVsdGlFU0RUTkZUVHJhbnNmZXI=", callOf "ZW50ZXJGYXJt"]
    let p := handleNewTransactions farmEndpoints (fetching transactions) processor200
    Fetches (fetching transactions) processor200 200 206 transactions ∧
      gasDifferencesOf farmEndpoints (callOf "ZW50ZXJGYXJt") ≠ [] ∧
      p.gasDifferences = [] ∧ p.lastProcessedTimestamp = some 200 ∧
      MultiESDTNFTTransferEndpoint [] = .error .invalidArgType := by
  refine ⟨fetches_fetching _, ?_⟩
  decide

end MxExchange.Crons
