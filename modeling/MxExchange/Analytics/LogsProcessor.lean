import MxExchange.Collections.Batches
import MxExchange.Collections.JsMap
import MxExchange.Collections.Runs
import MxExchange.Pair.PairUtils

/-!
# `logs.processor.service.ts`: burned fees and penalties

Once a minute the processor asks for the logs since `lastLogProcessedTimestamp`,
adds up what was burned in every second, writes one record for a second and
a measure, and moves the timestamp. The records go to `TimescaleDBWriteService`
in batches of a hundred.

A fetch that fails ends the pass before the timestamp is moved. A write that
fails does not: `writeRecords` and `multiRecordsIngest` of the write service
log the error and return, so the processor's own `catch` never sees one
(`save_swallowed`). And with `AWS_TIMESTREAM_WRITE` switched off nothing is
written at all. Between two passes the timestamp lives in the cache, for two
minutes.

`Observed` is the processor with what an observer notes beside it: for every
second of a measure, the value computed last. `checkpoint_follows_writes` is
about every run in which a pass that has its logs can write what they burned
(`CanWrite`), and the timestamp is not lost while a record is unwritten.
-/

namespace MxExchange.Analytics

open MxExchange.Collections MxExchange.Pair

/-! ## Records -/

/-- The two measures that are written. -/
inductive MeasureName
  | feeBurned
  | penaltyBurned
  deriving DecidableEq

/-- A value at a second, as it is queued for writing. -/
structure IngestRecord where
  series : TokenID
  key : MeasureName
  value : ℕ
  timestamp : ℕ
  deriving DecidableEq

/-- A row of `hyper_dex_analytics`; the date is the second it stands for. -/
structure XExchangeAnalyticsEntity where
  timestamp : ℕ
  series : TokenID
  key : MeasureName
  value : ℕ

/-- The primary key of a row. -/
structure Slot where
  timestamp : ℕ
  series : TokenID
  key : MeasureName
  deriving DecidableEq

/-- The table, by the keys of its rows. -/
abbrev Database := Slot → Option ℕ

def XExchangeAnalyticsEntity.slot (entity : XExchangeAnalyticsEntity) : Slot :=
  ⟨entity.timestamp, entity.series, entity.key⟩

/-- Rows with the same key overwrite each other. -/
def Database.store (database : Database) (entities : List XExchangeAnalyticsEntity) : Database :=
  entities.foldl (fun db entity => Function.update db entity.slot (some entity.value)) database

/-! ## Logs -/

/-- The two tokens and amounts of an `exitFarm` event that are looked at. -/
structure ExitFarm where
  rewardAmount : ℕ
  farmingTokenID : TokenID
  farmingAmount : ℕ
  lockedRewards : Bool

/-- An event of a log, by its identifier. The data of an `exitFarm` event may
be the empty string. -/
inductive LogEvent
  | esdtLocalBurn (tokenID : TokenID) (amount : ℕ)
  | exitFarm (address : Address) (data : Option ExitFarm)
  | other (identifier : String)

/-- A log as the index has it. -/
structure TransactionLogs where
  timestamp : ℕ
  events : List LogEvent

/-- `elasticService.getList('logs', ...)` for an event's name, filtered by the
range of the timestamp, both ends included. -/
structure ElasticService where
  getList : String → ℕ → ℕ → Option (List TransactionLogs)
  inRange : ∀ eventName gte lte logs, getList eventName gte lte = some logs →
    ∀ log ∈ logs, gte ≤ log.timestamp ∧ log.timestamp ≤ lte

/-- The versions of farm contracts. -/
inductive FarmVersion
  | V1_2
  | V1_3
  | V2
  | CUSTOM
  deriving DecidableEq

/-- What is configured: the MEX token, and `farmVersion`. -/
structure LogsConfig where
  MEX_TOKEN_ID : TokenID
  farmVersion : Address → Option FarmVersion

/-! ## What happens around a pass -/

/-- The timestamp of the latest block, in seconds, more than a minute after
the start of time. -/
structure ShardTimestamp where
  seconds : ℕ
  late : 60 < seconds

/-- How the cache answers: with the entry, with nothing although there may be
one, or not at all. -/
inductive CacheAnswer
  | entry
  | nothing
  | error
  deriving DecidableEq

/-- How the database answers a `save`: an error may come after some rows. -/
inductive SaveOutcome
  | saved
  | failed (kept : XExchangeAnalyticsEntity → Bool)

/-- The answers a pass gets. The flag is none if `AWS_TIMESTREAM_WRITE` is not
set, which is an error of `isAWSTimestreamWrite`. -/
structure Surroundings where
  cacheGet : CacheAnswer
  shardTimestamp : Option ShardTimestamp
  elastic : ElasticService
  writeFlag : Option Bool
  save : List XExchangeAnalyticsEntity → SaveOutcome
  cacheSet : Bool

/-! ## `timescaledb.write.service.ts`

A call leaves its result, or nothing if it throws, and the database. -/

/-- What a method returns, or `none` if it throws, and the table after it. -/
abbrev Call (α : Type) := Option α × Database

/-- A save that may fail, with its rows written or not. -/
def saveEntities (s : Surroundings) (entities : List XExchangeAnalyticsEntity)
    (database : Database) : Call Unit :=
  match s.save entities with
  | .saved => (some (), database.store entities)
  | .failed kept => (none, database.store (entities.filter kept))

/-- A `try` whose `catch` logs the error and goes on. -/
def logged (call : Call Unit) : Call Unit :=
  match call with
  | (some (), database) => (some (), database)
  | (none, database) => (some (), database)

/-- A failed save is logged, and its error goes no further. -/
def TimescaleDBWriteService.writeRecords (s : Surroundings)
    (records : List XExchangeAnalyticsEntity) (database : Database) : Call Unit :=
  logged (saveEntities s records database)

/-- The row of a record. -/
def IngestRecord.entity (record : IngestRecord) : XExchangeAnalyticsEntity where
  timestamp := record.timestamp
  series := record.series
  key := record.key
  value := record.value

def convertRecordsToDataAPIRecords (records : List IngestRecord) :
    List XExchangeAnalyticsEntity :=
  records.map IngestRecord.entity

/-- The records of a batch are converted and saved in one go. -/
def TimescaleDBWriteService.multiRecordsIngest (s : Surroundings) (records : List IngestRecord)
    (database : Database) : Call Unit :=
  logged (TimescaleDBWriteService.writeRecords s (convertRecordsToDataAPIRecords records) database)

/-- `AnalyticsWriteService.multiRecordsIngest` waits for its one writer. -/
def AnalyticsWriteService.multiRecordsIngest (s : Surroundings) (records : List IngestRecord)
    (database : Database) : Call Unit :=
  TimescaleDBWriteService.multiRecordsIngest s records database

/-! ## Writing in batches -/

/-- The number of records, nothing in it if the error was caught. The flag is
asked for outside of the `try`. -/
def pushRecords (s : Surroundings) (records : List IngestRecord) (database : Database) :
    Call (Option ℕ) :=
  match s.writeFlag with
  | none => (none, database)
  | some false => (some (some 0), database)
  | some true =>
    match AnalyticsWriteService.multiRecordsIngest s records database with
    | (some (), database) => (some (some records.length), database)
    | (none, database) => (some none, database)

/-- The loop of `writeRecords` over the seconds of the map; the total is what
is logged (it becomes `NaN`, here none, with a caught error). -/
def writeRecordsLoop (config : LogsConfig) (s : Surroundings) (recordsMap : JsMap ℕ ℕ)
    (measureName : MeasureName) :
    List ℕ → List IngestRecord → Option ℕ → Database → Call (Option ℕ)
  | [], records, total, database =>
    if 0 < records.length then
      match pushRecords s records database with
      | (some pushed, database) => (some (Option.map₂ (· + ·) total pushed), database)
      | (none, database) => (none, database)
    else (some total, database)
  | timestamp :: timestamps, records, total, database =>
    match JsMap.get recordsMap timestamp with
    | none => writeRecordsLoop config s recordsMap measureName timestamps records total database
    | some record =>
      let records := records ++
        [{ series := config.MEX_TOKEN_ID
           key := measureName
           value := record
           timestamp := timestamp }]
      if records.length = 100 then
        match pushRecords s records database with
        | (some pushed, database) =>
          writeRecordsLoop config s recordsMap measureName timestamps []
            (Option.map₂ (· + ·) total pushed) database
        | (none, database) => (none, database)
      else writeRecordsLoop config s recordsMap measureName timestamps records total database

/-- The entries of the map in batches of a hundred. -/
def writeRecords (config : LogsConfig) (s : Surroundings) (recordsMap : JsMap ℕ ℕ)
    (measureName : MeasureName) (database : Database) : Call (Option ℕ) :=
  writeRecordsLoop config s recordsMap measureName (JsMap.keys recordsMap) [] (some 0) database

/-! ## From logs to amounts -/

/-- The burns of a transaction, by token and amount. -/
def esdtLocalBurnEvents (events : List LogEvent) : List (TokenID × ℕ) :=
  events.filterMap fun
    | .esdtLocalBurn tokenID amount => some (tokenID, amount)
    | _ => none

/-- What the burns come to that are swap fees. -/
def getBurnedFee (config : LogsConfig) (esdtLocalBurnEvents : List (TokenID × ℕ)) : ℕ :=
  esdtLocalBurnEvents.foldl
    (fun fee burn => if burn.1 ≠ config.MEX_TOKEN_ID then fee else fee + burn.2) 0

/-- Both maps grow like this: nothing for zero, else the sum. -/
def addAmount (map : JsMap ℕ ℕ) (timestamp amount : ℕ) : JsMap ℕ ℕ :=
  if amount = 0 then map
  else match JsMap.get map timestamp with
    | some entry => JsMap.set map timestamp (entry + amount)
    | none => JsMap.set map timestamp amount

/-- A log adds its fee at its second, if it burns any. -/
def processSwapEvents (config : LogsConfig) (events : List LogEvent) (timestamp : ℕ)
    (feeMap : JsMap ℕ ℕ) : JsMap ℕ ℕ :=
  addAmount feeMap timestamp (getBurnedFee config (esdtLocalBurnEvents events))

/-- The last `exitFarm` event of a farm whose version has a decoder, with the
version it was decoded for. -/
def exitFarmEvent (config : LogsConfig) (events : List LogEvent) :
    Option (FarmVersion × ExitFarm) :=
  events.foldl
    (fun found event =>
      match event with
      | .exitFarm address (some exitFarm) =>
        match config.farmVersion address with
        | some .V1_2 => some (.V1_2, exitFarm)
        | some .V1_3 => some (.V1_3, exitFarm)
        | _ => found
      | _ => found)
    none

/-- What the burns come to that are the penalty of leaving a farm. -/
def getBurnedPenalty (config : LogsConfig) (exitFarmEvent : FarmVersion × ExitFarm)
    (esdtLocalBurnEvents : List (TokenID × ℕ)) : ℕ :=
  let lockedRewards := if exitFarmEvent.1 = .V1_2 then exitFarmEvent.2.lockedRewards else false
  esdtLocalBurnEvents.foldl
    (fun penalty burn =>
      if burn.1 ≠ config.MEX_TOKEN_ID then penalty
      else if burn.2 = exitFarmEvent.2.rewardAmount ∧ lockedRewards then penalty
      else if burn.2 = exitFarmEvent.2.farmingAmount ∧
          burn.1 = exitFarmEvent.2.farmingTokenID then
        penalty
      else penalty + burn.2)
    0

/-- A log adds its penalty at its second, if it burns any. -/
def processExitFarmEvents (config : LogsConfig) (events : List LogEvent) (timestamp : ℕ)
    (penaltyMap : JsMap ℕ ℕ) : JsMap ℕ ℕ :=
  match exitFarmEvent config events with
  | none => penaltyMap
  | some exitFarm =>
    addAmount penaltyMap timestamp
      (getBurnedPenalty config exitFarm (esdtLocalBurnEvents events))

/-- The answer of the index, unless the query fails. -/
def getTransactionsLogs (s : Surroundings) (eventName : String)
    (currentTimestamp lastProcessedTimestamp : ℕ) : Option (List TransactionLogs) :=
  s.elastic.getList eventName lastProcessedTimestamp currentTimestamp

/-- What `getSwapLogs` makes of `feeMap`, if the logs can be fetched. -/
def getSwapLogs (config : LogsConfig) (s : Surroundings) (swapType : String)
    (currentTimestamp lastProcessedTimestamp : ℕ) (feeMap : JsMap ℕ ℕ) : Option (JsMap ℕ ℕ) :=
  (getTransactionsLogs s swapType currentTimestamp lastProcessedTimestamp).map fun logs =>
    logs.foldl (fun map log => processSwapEvents config log.events log.timestamp map) feeMap

/-! ## A pass -/

/-- The service: its fields, the entry of the cache, and the database. -/
structure LogsProcessor where
  isProcessing : Bool
  feeMap : JsMap ℕ ℕ
  penaltyMap : JsMap ℕ ℕ
  lastLogProcessedTimestamp : Option ℕ
  database : Database

/-- The swaps of both kinds, then the writes; the map is kept in the processor.
-/
def getFeeBurned (config : LogsConfig) (s : Surroundings)
    (currentTimestamp lastProcessedTimestamp : ℕ) (p : LogsProcessor) :
    Option Unit × LogsProcessor :=
  let p := { p with feeMap := [] }
  match getSwapLogs config s "swapTokensFixedInput" currentTimestamp lastProcessedTimestamp
    p.feeMap with
  | none => (none, p)
  | some feeMap =>
    let p := { p with feeMap := feeMap }
    match getSwapLogs config s "swapTokensFixedOutput" currentTimestamp lastProcessedTimestamp
      p.feeMap with
    | none => (none, p)
    | some feeMap =>
      let p := { p with feeMap := feeMap }
      let (total, database) := writeRecords config s p.feeMap .feeBurned p.database
      (total.map fun _ => (), { p with database := database })

/-- The exits, then the writes. -/
def getExitFarmLogs (config : LogsConfig) (s : Surroundings)
    (currentTimestamp lastProcessedTimestamp : ℕ) (p : LogsProcessor) :
    Option Unit × LogsProcessor :=
  match getTransactionsLogs s "exitFarm" currentTimestamp lastProcessedTimestamp with
  | none => (none, p)
  | some logs =>
    let penaltyMap := logs.foldl
      (fun map log => processExitFarmEvents config log.events log.timestamp map) []
    let p := { p with penaltyMap := penaltyMap }
    let (total, database) := writeRecords config s p.penaltyMap .penaltyBurned p.database
    (total.map fun _ => (), { p with database := database })

/-- `cachingService.set`; whether it throws makes no difference to a pass
that ends with it. -/
def setTimestamp (s : Surroundings) (timestamp : ℕ) (p : LogsProcessor) : LogsProcessor :=
  if s.cacheSet then { p with lastLogProcessedTimestamp := some timestamp } else p

/-- The last and the current timestamp. Zero counts as no entry. -/
def processingInterval (s : Surroundings) (delay : ℕ) (p : LogsProcessor) : Option (ℕ × ℕ) :=
  match s.cacheGet, s.shardTimestamp with
  | .error, _ => none
  | _, none => none
  | answer, some shardTimestamp =>
    let currentTimestamp := shardTimestamp.seconds - delay
    match answer, p.lastLogProcessedTimestamp with
    | .entry, some lastProcessedTimestamp =>
      if lastProcessedTimestamp = 0 then some (currentTimestamp, currentTimestamp)
      else some (lastProcessedTimestamp, currentTimestamp)
    | _, _ => some (currentTimestamp, currentTimestamp)

/-- The span to process: from where the last run ended, or a short time back. -/
def getProcessingInterval (s : Surroundings) (delay : ℕ) (p : LogsProcessor) :
    Option (ℕ × ℕ) × LogsProcessor :=
  match processingInterval s delay p with
  | none => (none, p)
  | some (lastProcessedTimestamp, currentTimestamp) =>
    if currentTimestamp = lastProcessedTimestamp then
      (some (lastProcessedTimestamp, currentTimestamp), setTimestamp s currentTimestamp p)
    else (some (lastProcessedTimestamp, currentTimestamp), p)

/-- `Constants.oneMinute()`. -/
def oneMinute : ℕ := 60

/-- The body of the `try` of `handleNewLogs`, where an error ends it. -/
def processNewLogs (config : LogsConfig) (s : Surroundings) (p : LogsProcessor) :
    LogsProcessor :=
  match getProcessingInterval s oneMinute p with
  | (none, p) => p
  | (some (lastProcessedTimestamp, currentTimestamp), p) =>
    if lastProcessedTimestamp = currentTimestamp then p
    else
      match getFeeBurned config s currentTimestamp lastProcessedTimestamp p with
      | (none, p) => p
      | (some (), p) =>
        match getExitFarmLogs config s currentTimestamp lastProcessedTimestamp p with
        | (none, p) => p
        | (some (), p) => setTimestamp s currentTimestamp p

/-- What `handleNewLogs` does when the cron fires: a pass that is under way
keeps another one from starting. -/
def LogsProcessor.fire (p : LogsProcessor) : LogsProcessor :=
  if p.isProcessing then p else { p with isProcessing := true }

/-- The end of a pass, with its `finally`. -/
def LogsProcessor.finish (config : LogsConfig) (s : Surroundings) (p : LogsProcessor) :
    LogsProcessor :=
  { processNewLogs config s p with isProcessing := false }

/-! ## What is written -/

section Store

variable {database : Database} {entities : List XExchangeAnalyticsEntity} {slot : Slot}

/-- Rows that are saved in two goes. -/
theorem Database.store_append (database : Database) (l l' : List XExchangeAnalyticsEntity) :
    database.store (l ++ l') = (database.store l).store l' :=
  List.foldl_append

/-- A key that no row has keeps its value. -/
theorem Database.store_of_notMem (h : slot ∉ entities.map XExchangeAnalyticsEntity.slot) :
    database.store entities slot = database slot := by
  induction entities generalizing database with
  | nil => rfl
  | cons entity entities ih =>
    rw [List.map_cons, List.mem_cons, not_or] at h
    show Database.store (Function.update database entity.slot (some entity.value)) entities slot
      = database slot
    rw [ih h.2, Function.update_of_ne h.1]

/-- A row is in the table afterwards, if no other row has its key. -/
theorem Database.store_of_mem (hnodup : (entities.map XExchangeAnalyticsEntity.slot).Nodup)
    {entity : XExchangeAnalyticsEntity} (h : entity ∈ entities) :
    database.store entities entity.slot = some entity.value := by
  induction entities generalizing database with
  | nil => simp at h
  | cons first entities ih =>
    rw [List.map_cons, List.nodup_cons] at hnodup
    show Database.store (Function.update database first.slot (some first.value)) entities
      entity.slot = some entity.value
    rcases List.mem_cons.mp h with rfl | h'
    · rw [Database.store_of_notMem hnodup.1, Function.update_self]
    · exact ih hnodup.2 h'

end Store

section Writing

variable {config : LogsConfig} {s : Surroundings} {database : Database}
  {records : List IngestRecord} {map : JsMap ℕ ℕ} {m : MeasureName} {t v : ℕ}

@[simp] theorem logged_fst (call : Call Unit) : (logged call).1 = some () := by
  obtain ⟨_ | _, database⟩ := call <;> rfl

@[simp] theorem logged_snd (call : Call Unit) : (logged call).2 = call.2 := by
  obtain ⟨_ | _, database⟩ := call <;> rfl

/-- No error of the database reaches the processor. -/
theorem save_swallowed (s : Surroundings) (records : List IngestRecord) (database : Database) :
    (AnalyticsWriteService.multiRecordsIngest s records database).1 = some () :=
  logged_fst _

/-- The records of a batch that its save leaves in the table. -/
def keptOf (s : Surroundings) (batch : List IngestRecord) : List IngestRecord :=
  match s.save (convertRecordsToDataAPIRecords batch) with
  | .saved => batch
  | .failed kept => batch.filter fun record => kept record.entity

/-- No record is written that was not in the batch. -/
theorem keptOf_sublist (s : Surroundings) (batch : List IngestRecord) :
    (keptOf s batch).Sublist batch := by
  unfold keptOf
  split
  next => exact List.Sublist.refl _
  next => exact List.filter_sublist

/-- What a batch leaves in the table. -/
theorem multiRecordsIngest_snd (s : Surroundings) (batch : List IngestRecord)
    (database : Database) : (AnalyticsWriteService.multiRecordsIngest s batch database).2 =
      database.store (convertRecordsToDataAPIRecords (keptOf s batch)) := by
  show (logged (logged _)).2 = _
  rw [logged_snd, logged_snd, saveEntities, keptOf]
  cases s.save (convertRecordsToDataAPIRecords batch) with
  | saved => rfl
  | failed kept =>
    show database.store ((batch.map _).filter kept) = database.store ((batch.filter _).map _)
    rw [List.filter_map]
    rfl

/-- What the batches leave in the table, by the flag. -/
def writtenBatches (s : Surroundings) (batches : List (List IngestRecord)) :
    List IngestRecord :=
  if s.writeFlag = some true then batches.flatMap (keptOf s) else []

/-- With the flag answered, the batch is written as far as its save goes. -/
theorem pushRecords_of_some {flag : Bool} (h : s.writeFlag = some flag)
    (batch : List IngestRecord) (database : Database) :
    ∃ pushed, pushRecords s batch database = (some pushed,
      database.store (convertRecordsToDataAPIRecords (writtenBatches s [batch]))) := by
  cases flag with
  | false => exact ⟨some 0, by simp [pushRecords, h, writtenBatches]; rfl⟩
  | true =>
    have hcall : AnalyticsWriteService.multiRecordsIngest s batch database = (some (),
        database.store (convertRecordsToDataAPIRecords (keptOf s batch))) :=
      Prod.ext (save_swallowed s batch database) (multiRecordsIngest_snd s batch database)
    exact ⟨some batch.length, by simp [pushRecords, h, writtenBatches, hcall]⟩

theorem convert_append (l l' : List IngestRecord) : convertRecordsToDataAPIRecords (l ++ l') =
    convertRecordsToDataAPIRecords l ++ convertRecordsToDataAPIRecords l' :=
  List.map_append

/-- Batches are written one after the other. -/
theorem writtenBatches_cons (s : Surroundings) (batch : List IngestRecord)
    (rest : List (List IngestRecord)) :
    writtenBatches s (batch :: rest) = writtenBatches s [batch] ++ writtenBatches s rest := by
  unfold writtenBatches
  split
  next => simp
  next => rfl

/-- The records for some seconds of a map. -/
def recordsAt (config : LogsConfig) (map : JsMap ℕ ℕ) (m : MeasureName) (timestamps : List ℕ) :
    List IngestRecord :=
  timestamps.filterMap fun timestamp => (JsMap.get map timestamp).map fun value =>
    { series := config.MEX_TOKEN_ID
      key := m
      value := value
      timestamp := timestamp }

/-- Without the flag the first batch is an error. -/
theorem writeRecordsLoop_of_none (config : LogsConfig) (map : JsMap ℕ ℕ) (m : MeasureName)
    (h : s.writeFlag = none) (timestamps : List ℕ) (records : List IngestRecord)
    (total : Option ℕ) (database : Database) :
    writeRecordsLoop config s map m timestamps records total database =
      (if batchesFrom 100 records (recordsAt config map m timestamps) = [] then some total
        else none, database) := by
  have hpush : ∀ batch, pushRecords s batch database = (none, database) := by
    intro batch
    rw [pushRecords, h]
  induction timestamps generalizing records with
  | nil =>
    simp only [writeRecordsLoop, hpush, recordsAt, List.filterMap_nil, batchesFrom]
    split
    next => rw [if_neg (by simp)]
    next => rw [if_pos rfl]
  | cons timestamp timestamps ih =>
    cases hget : JsMap.get map timestamp with
    | none =>
      simp only [writeRecordsLoop, recordsAt, List.filterMap_cons, hget, Option.map_none]
      exact ih records
    | some value =>
      simp only [writeRecordsLoop, recordsAt, List.filterMap_cons, hget, Option.map_some,
        batchesFrom, hpush]
      split
      next => rw [if_neg (by simp)]
      next => exact ih _

/-- With the flag the loop comes to its end, whatever the saves do. -/
theorem writeRecordsLoop_of_some (config : LogsConfig) (map : JsMap ℕ ℕ) (m : MeasureName)
    {flag : Bool} (h : s.writeFlag = some flag) (timestamps : List ℕ)
    (records : List IngestRecord) (total : Option ℕ) (database : Database) :
    ∃ total', writeRecordsLoop config s map m timestamps records total database = (some total',
      database.store (convertRecordsToDataAPIRecords
        (writtenBatches s (batchesFrom 100 records (recordsAt config map m timestamps))))) := by
  -- induction on the timestamps; a full batch is pushed at once, the last one at the
  -- end
  induction timestamps generalizing records total database with
  | nil =>
    simp only [writeRecordsLoop, recordsAt, List.filterMap_nil, batchesFrom]
    split
    next =>
      obtain ⟨pushed, hpush⟩ := pushRecords_of_some h records database
      rw [hpush]
      exact ⟨_, rfl⟩
    next =>
      refine ⟨total, ?_⟩
      unfold writtenBatches
      split <;> rfl
  | cons timestamp timestamps ih =>
    cases hget : JsMap.get map timestamp with
    | none =>
      simp only [writeRecordsLoop, recordsAt, List.filterMap_cons, hget, Option.map_none]
      exact ih records total database
    | some value =>
      simp only [writeRecordsLoop, recordsAt, List.filterMap_cons, hget, Option.map_some,
        batchesFrom]
      split
      next =>
        obtain ⟨pushed, hpush⟩ := pushRecords_of_some h (records ++
          [{ series := config.MEX_TOKEN_ID
             key := m
             value := value
             timestamp := timestamp }]) database
        rw [hpush, writtenBatches_cons _ _ (batchesFrom _ _ _), convert_append,
          Database.store_append]
        exact ih _ _ _
      next => exact ih _ _ _

/-- All records of a map. -/
def recordsOf (config : LogsConfig) (map : JsMap ℕ ℕ) (m : MeasureName) : List IngestRecord :=
  recordsAt config map m (JsMap.keys map)

/-- What writing them leaves in the table. -/
def written (s : Surroundings) (records : List IngestRecord) : List IngestRecord :=
  writtenBatches s (batches 100 records)

/-- What the writes of a map leave in the table. -/
theorem writeRecords_snd : (writeRecords config s map m database).2 =
    database.store (convertRecordsToDataAPIRecords (written s (recordsOf config map m))) := by
  cases hflag : s.writeFlag with
  | none =>
    rw [writeRecords, writeRecordsLoop_of_none config map m hflag, written, writtenBatches, hflag]
    rfl
  | some flag =>
    obtain ⟨total, htotal⟩ := writeRecordsLoop_of_some config map m hflag
      (JsMap.keys map) [] (some 0) database
    rw [writeRecords, htotal]
    rfl

/-- The writes throw only if the flag cannot be read, and there is something to
write. -/
theorem writeRecords_fst : (writeRecords config s map m database).1 = none ↔
    s.writeFlag = none ∧ recordsOf config map m ≠ [] := by
  cases hflag : s.writeFlag with
  | none =>
    rw [writeRecords, writeRecordsLoop_of_none config map m hflag]
    have hempty : batchesFrom 100 [] (recordsAt config map m (JsMap.keys map)) = [] ↔
        recordsOf config map m = [] := batches_eq_nil_iff
    split
    next h => simp [hempty.mp h]
    next h =>
      have hne : recordsOf config map m ≠ [] := fun h' => h (hempty.mpr h')
      simp [hne]
  | some flag =>
    obtain ⟨total, htotal⟩ := writeRecordsLoop_of_some config map m hflag
      (JsMap.keys map) [] (some 0) database
    rw [writeRecords, htotal]
    simp

/-- Without the flag there is nothing that could be written to the end. -/
theorem records_of_writeRecords {total : Option ℕ}
    (h : (writeRecords config s map m database).1 = some total) (hflag : s.writeFlag = none) :
    recordsOf config map m = [] := by
  by_contra hrecords
  rw [writeRecords_fst.mpr ⟨hflag, hrecords⟩] at h
  cases h

end Writing

/-! ## What a pass does -/

/-- The fees of both kinds of swap, if their logs can be fetched. -/
def swapFees (config : LogsConfig) (s : Surroundings)
    (currentTimestamp lastProcessedTimestamp : ℕ) : Option (JsMap ℕ ℕ) :=
  (getSwapLogs config s "swapTokensFixedInput" currentTimestamp lastProcessedTimestamp []).bind
    (getSwapLogs config s "swapTokensFixedOutput" currentTimestamp lastProcessedTimestamp)

/-- The map that is computed of the exits, if all queries answer. -/
def exitPenalties (config : LogsConfig) (s : Surroundings)
    (currentTimestamp lastProcessedTimestamp : ℕ) : Option (JsMap ℕ ℕ) :=
  (getTransactionsLogs s "exitFarm" currentTimestamp lastProcessedTimestamp).map fun logs =>
    logs.foldl (fun map log => processExitFarmEvents config log.events log.timestamp map) []

/-- The interval of a pass that has something to do. -/
def passInterval (s : Surroundings) (p : LogsProcessor) : Option (ℕ × ℕ) :=
  (processingInterval s oneMinute p).filter fun interval => interval.1 ≠ interval.2

/-- The map a pass computes for a measure, if it gets that far: a missing
flag is an error as soon as there is a record. -/
def computed (config : LogsConfig) (s : Surroundings) (p : LogsProcessor) :
    MeasureName → Option (JsMap ℕ ℕ)
  | .feeBurned => (passInterval s p).bind fun interval =>
    swapFees config s interval.2 interval.1
  | .penaltyBurned => (passInterval s p).bind fun interval =>
    (swapFees config s interval.2 interval.1).bind fun fees =>
      if s.writeFlag = none ∧ recordsOf config fees .feeBurned ≠ [] then none
      else exitPenalties config s interval.2 interval.1

/-- What a pass leaves in the table of a measure's records. -/
def writtenOf (config : LogsConfig) (s : Surroundings) (p : LogsProcessor) (m : MeasureName) :
    List IngestRecord :=
  match computed config s p m with
  | none => []
  | some map => written s (recordsOf config map m)

section Pass

variable {config : LogsConfig} {s : Surroundings} {p : LogsProcessor} {last current : ℕ}
  {fees : JsMap ℕ ℕ}

/-- A failed query ends the pass, with nothing written. -/
theorem getFeeBurned_of_none (h : swapFees config s current last = none) :
    (getFeeBurned config s current last p).1 = none ∧
      (getFeeBurned config s current last p).2.database = p.database ∧
      (getFeeBurned config s current last p).2.lastLogProcessedTimestamp =
        p.lastLogProcessedTimestamp := by
  unfold getFeeBurned
  dsimp only
  unfold swapFees at h
  cases hinput : getSwapLogs config s "swapTokensFixedInput" current last [] with
  | none => exact ⟨rfl, rfl, rfl⟩
  | some feeMap =>
    rw [hinput, Option.bind_some] at h
    dsimp only
    rw [h]
    exact ⟨rfl, rfl, rfl⟩

/-- With all answers the map is written. -/
theorem getFeeBurned_of_some (h : swapFees config s current last = some fees) :
    getFeeBurned config s current last p =
      ((writeRecords config s fees .feeBurned p.database).1.map fun _ => (),
        { p with
          feeMap := fees
          database := (writeRecords config s fees .feeBurned p.database).2 }) := by
  obtain ⟨feeMap, hinput, houtput⟩ := Option.bind_eq_some_iff.mp h
  unfold getFeeBurned
  simp only [hinput, houtput]

/-- A failed query of exits ends the pass. -/
theorem getExitFarmLogs_of_none (h : exitPenalties config s current last = none) :
    getExitFarmLogs config s current last p = (none, p) := by
  unfold getExitFarmLogs
  rw [Option.map_eq_none_iff.mp h]

/-- With an answer the map of penalties is written. -/
theorem getExitFarmLogs_of_some {penalties : JsMap ℕ ℕ}
    (h : exitPenalties config s current last = some penalties) :
    getExitFarmLogs config s current last p =
      ((writeRecords config s penalties .penaltyBurned p.database).1.map fun _ => (),
        { p with
          penaltyMap := penalties
          database := (writeRecords config s penalties .penaltyBurned p.database).2 }) := by
  obtain ⟨logs, hlogs, rfl⟩ := Option.map_eq_some_iff.mp h
  unfold getExitFarmLogs
  simp only [hlogs]

/-- An interval ends at the latest block, less the delay, and starts at the
timestamp that was kept, or where it ends if none was found. -/
theorem processingInterval_eq_some {delay : ℕ}
    (h : processingInterval s delay p = some (last, current)) :
    ∃ now, s.shardTimestamp = some now ∧ current = now.seconds - delay ∧
      (p.lastLogProcessedTimestamp = some last ∧ last ≠ 0 ∨
        last = current ∧ (s.cacheGet = .nothing ∨ p.lastLogProcessedTimestamp = none ∨
          p.lastLogProcessedTimestamp = some 0)) := by
  -- two ends are equal if there is no entry or the entry is zero
  unfold processingInterval at h
  split at h
  next => cases h
  next => cases h
  next now hnow hnoerror =>
    dsimp only at h
    split at h
    next entry hentry =>
      split at h
      next hzero =>
        obtain ⟨rfl, rfl⟩ := Prod.mk.inj (Option.some.inj h)
        exact ⟨now, hnow, rfl, Or.inr ⟨rfl, Or.inr (Or.inr (by rw [hentry, hzero]))⟩⟩
      next hzero =>
        obtain ⟨rfl, rfl⟩ := Prod.mk.inj (Option.some.inj h)
        exact ⟨now, hnow, rfl, Or.inl ⟨hentry, hzero⟩⟩
    next hother =>
      obtain ⟨rfl, rfl⟩ := Prod.mk.inj (Option.some.inj h)
      refine ⟨now, hnow, rfl, Or.inr ⟨rfl, ?_⟩⟩
      cases hget : s.cacheGet with
      | nothing => exact Or.inl rfl
      | error => exact (hnoerror hget).elim
      | entry =>
        cases hentry : p.lastLogProcessedTimestamp with
        | none => exact Or.inr (Or.inl rfl)
        | some entry => exact absurd hentry (hother entry hget)

/-- An interval with something to do starts at the timestamp that was kept. -/
theorem passInterval_eq_some (h : passInterval s p = some (last, current)) :
    processingInterval s oneMinute p = some (last, current) ∧ last ≠ current ∧
      p.lastLogProcessedTimestamp = some last ∧ last ≠ 0 ∧ 0 < current := by
  obtain ⟨hinterval, hne⟩ := Option.filter_eq_some_iff.mp h
  have hne' : last ≠ current := by simpa using hne
  obtain ⟨now, -, rfl, ⟨hentry, hzero⟩ | ⟨heq, -⟩⟩ := processingInterval_eq_some hinterval
  · have hlate := now.late
    exact ⟨hinterval, hne', hentry, hzero, by unfold oneMinute; omega⟩
  · exact absurd heq hne'

/-- A pass with nothing to do writes nothing; it may start anew where no
timestamp was found. -/
theorem processNewLogs_of_none (config : LogsConfig) (h : passInterval s p = none) :
    (processNewLogs config s p).database = p.database ∧
      ((processNewLogs config s p).lastLogProcessedTimestamp = p.lastLogProcessedTimestamp ∨
        s.cacheSet = true ∧
          (s.cacheGet = .nothing ∨ p.lastLogProcessedTimestamp = none ∨
            p.lastLogProcessedTimestamp = some 0) ∧
          ∃ now, s.shardTimestamp = some now ∧
            (processNewLogs config s p).lastLogProcessedTimestamp =
              some (now.seconds - oneMinute)) := by
  unfold processNewLogs getProcessingInterval
  cases hinterval : processingInterval s oneMinute p with
  | none => exact ⟨rfl, Or.inl rfl⟩
  | some interval =>
    obtain ⟨last, current⟩ := interval
    have heq : last = current := by
      by_contra hne
      rw [passInterval, hinterval, Option.filter_some_pos (by simpa using hne)] at h
      cases h
    subst heq
    simp only [if_true]
    unfold setTimestamp
    cases hset : s.cacheSet with
    | false => exact ⟨rfl, Or.inl rfl⟩
    | true =>
      obtain ⟨now, hnow, rfl, ⟨hentry, -⟩ | ⟨-, hmissing⟩⟩ := processingInterval_eq_some hinterval
      · -- the timestamp is written back
        exact ⟨rfl, Or.inl hentry.symm⟩
      · exact ⟨rfl, Or.inr ⟨rfl, hmissing, now, hnow, rfl⟩⟩

/-! The maps a pass with something to do computes. -/

/-- What a pass computes of the fees. -/
theorem computed_feeBurned (h : passInterval s p = some (last, current)) :
    computed config s p .feeBurned = swapFees config s current last := by
  rw [computed, h, Option.bind_some]

/-- What it computes of the penalties, if it comes that far. -/
theorem computed_penaltyBurned (h : passInterval s p = some (last, current))
    (hfees : swapFees config s current last = some fees) :
    computed config s p .penaltyBurned =
      if s.writeFlag = none ∧ recordsOf config fees .feeBurned ≠ [] then none
      else exitPenalties config s current last := by
  rw [computed, h, Option.bind_some, hfees, Option.bind_some]

/-- Without fees nothing is computed. -/
theorem computed_of_swapFees_none (h : passInterval s p = some (last, current))
    (hfees : swapFees config s current last = none) (m : MeasureName) :
    computed config s p m = none := by
  cases m with
  | feeBurned => rw [computed_feeBurned h, hfees]
  | penaltyBurned => rw [computed, h, Option.bind_some, hfees, Option.bind_none]

/-- What was not computed is not written. -/
theorem writtenOf_of_none {m : MeasureName} (h : computed config s p m = none) :
    writtenOf config s p m = [] := by
  rw [writtenOf, h]

theorem writtenOf_of_some {m : MeasureName} {map : JsMap ℕ ℕ}
    (h : computed config s p m = some map) :
    writtenOf config s p m = written s (recordsOf config map m) := by
  rw [writtenOf, h]

/-- What the two halves of a pass with something to do leave: the first in
the database of the second, and the timestamp to the end. -/
theorem processNewLogs_halves (config : LogsConfig)
    (h : passInterval s p = some (last, current)) :
    processNewLogs config s p =
      match getFeeBurned config s current last p with
      | (none, p) => p
      | (some (), p) =>
        match getExitFarmLogs config s current last p with
        | (none, p) => p
        | (some (), p) => setTimestamp s current p := by
  obtain ⟨hinterval, hne, -⟩ := passInterval_eq_some h
  have hget : getProcessingInterval s oneMinute p = (some (last, current), p) := by
    rw [getProcessingInterval, hinterval]
    exact if_neg hne.symm
  unfold processNewLogs
  rw [hget]
  exact if_neg hne

/-- A pass with something to do moves the timestamp only if it has computed
everything, and has written the records if there are any. -/
theorem processNewLogs_of_some (config : LogsConfig)
    (h : passInterval s p = some (last, current)) :
    (processNewLogs config s p).database =
        (p.database.store (convertRecordsToDataAPIRecords (writtenOf config s p .feeBurned))).store
          (convertRecordsToDataAPIRecords (writtenOf config s p .penaltyBurned)) ∧
      ((processNewLogs config s p).lastLogProcessedTimestamp = p.lastLogProcessedTimestamp ∨
        (processNewLogs config s p).lastLogProcessedTimestamp = some current ∧
          s.cacheSet = true ∧ (∀ m, computed config s p m ≠ none) ∧
          (s.writeFlag = none → ∀ m map, computed config s p m = some map →
            recordsOf config map m = [])) := by
  rw [processNewLogs_halves config h]
  cases hfees : swapFees config s current last with
  | none =>
    -- the logs of the swaps cannot be fetched
    rw [writtenOf_of_none (computed_of_swapFees_none h hfees _),
      writtenOf_of_none (computed_of_swapFees_none h hfees _)]
    obtain ⟨hfst, hdatabase, htimestamp⟩ := getFeeBurned_of_none (p := p) hfees
    cases hcall : getFeeBurned config s current last p with
    | mk result p' =>
      rw [hcall] at hfst hdatabase htimestamp
      obtain rfl : result = none := hfst
      exact ⟨hdatabase, Or.inl htimestamp⟩
  | some fees =>
    have hfee : computed config s p .feeBurned = some fees := by rw [computed_feeBurned h, hfees]
    have hpenalty := computed_penaltyBurned h hfees
    rw [getFeeBurned_of_some hfees, writtenOf_of_some hfee, ← writeRecords_snd]
    cases htotal : (writeRecords config s fees .feeBurned p.database).1 with
    | none =>
      -- the flag is missing and there is a fee
      rw [if_pos (writeRecords_fst.mp htotal)] at hpenalty
      rw [writtenOf_of_none hpenalty]
      exact ⟨rfl, Or.inl rfl⟩
    | some total =>
      have hfeeFlag := records_of_writeRecords htotal
      rw [if_neg fun hmissing => hmissing.2 (hfeeFlag hmissing.1)] at hpenalty
      simp only [Option.map_some]
      cases hpenalties : exitPenalties config s current last with
      | none =>
        rw [getExitFarmLogs_of_none hpenalties, writtenOf_of_none (hpenalty.trans hpenalties)]
        exact ⟨rfl, Or.inl rfl⟩
      | some penalties =>
        rw [hpenalties] at hpenalty
        rw [getExitFarmLogs_of_some hpenalties, writtenOf_of_some hpenalty, ← writeRecords_snd]
        cases htotal' : (writeRecords config s penalties .penaltyBurned
            (writeRecords config s fees .feeBurned p.database).2).1 with
        | none => exact ⟨rfl, Or.inl rfl⟩
        | some total' =>
          have hpenaltyFlag := records_of_writeRecords htotal'
          simp only [Option.map_some]
          unfold setTimestamp
          cases hset : s.cacheSet with
          | false => exact ⟨rfl, Or.inl rfl⟩
          | true =>
            refine ⟨rfl, Or.inr ⟨rfl, rfl, ?_, ?_⟩⟩
            · intro m
              cases m with
              | feeBurned => simp [hfee]
              | penaltyBurned => simp [hpenalty]
            · intro hflag m map hmap
              cases m with
              | feeBurned =>
                obtain rfl := Option.some.inj (hfee.symm.trans hmap)
                exact hfeeFlag hflag
              | penaltyBurned =>
                obtain rfl := Option.some.inj (hpenalty.symm.trans hmap)
                exact hpenaltyFlag hflag

end Pass

/-! ## The seconds of an interval -/

/-- One entry for a second, and all seconds inside the interval. -/
structure Within (last current : ℕ) (map : JsMap ℕ ℕ) : Prop where
  nodup : (JsMap.keys map).Nodup
  mem : ∀ t v, JsMap.get map t = some v → last ≤ t ∧ t ≤ current

section Within

variable {config : LogsConfig} {s : Surroundings} {p : LogsProcessor} {last current : ℕ}
  {map : JsMap ℕ ℕ} {m : MeasureName}

/-- No entry is outside the span. -/
theorem Within.empty : Within last current [] :=
  ⟨List.nodup_nil, fun _ _ h => by cases h⟩

/-- An entry within the span may be added. -/
theorem Within.addAmount (h : Within last current map) {timestamp : ℕ}
    (ht : last ≤ timestamp ∧ timestamp ≤ current) (amount : ℕ) :
    Within last current (addAmount map timestamp amount) := by
  have hset : ∀ v, Within last current (JsMap.set map timestamp v) := by
    intro v
    refine ⟨JsMap.nodup_keys_set h.nodup _ _, ?_⟩
    intro t w hget
    rw [JsMap.get_set] at hget
    split at hget
    next heq => exact heq ▸ ht
    next => exact h.mem t w hget
  unfold Analytics.addAmount
  split
  next => exact h
  next => split <;> exact hset _

/-- So may the entries of logs within the span. -/
theorem Within.foldl {f : JsMap ℕ ℕ → TransactionLogs → JsMap ℕ ℕ} {logs : List TransactionLogs}
    (hlogs : ∀ log ∈ logs, last ≤ log.timestamp ∧ log.timestamp ≤ current)
    (hf : ∀ map log, f map log = map ∨ ∃ amount, f map log = Analytics.addAmount map log.timestamp
      amount) (h : Within last current map) : Within last current (logs.foldl f map) := by
  induction logs generalizing map with
  | nil => exact h
  | cons log logs ih =>
    rw [List.foldl_cons]
    refine ih (fun log' hlog' => hlogs log' (List.mem_cons_of_mem _ hlog')) ?_
    rcases hf map log with heq | ⟨amount, heq⟩
    · rwa [heq]
    · rw [heq]
      exact h.addAmount (hlogs log (List.mem_cons_self ..)) amount

/-- The fees of one kind of swap. -/
theorem Within.getSwapLogs {swapType : String} {feeMap : JsMap ℕ ℕ}
    (hmap : getSwapLogs config s swapType current last map = some feeMap)
    (h : Within last current map) : Within last current feeMap := by
  obtain ⟨logs, hlogs, rfl⟩ := Option.map_eq_some_iff.mp hmap
  exact h.foldl (s.elastic.inRange _ _ _ _ hlogs) fun _ _ => Or.inr ⟨_, rfl⟩

/-- All seconds of the fees are within the span. -/
theorem within_swapFees (h : swapFees config s current last = some map) :
    Within last current map := by
  obtain ⟨feeMap, hinput, houtput⟩ := Option.bind_eq_some_iff.mp h
  exact Within.getSwapLogs houtput (Within.getSwapLogs hinput .empty)

/-- All seconds of the penalties are within the span. -/
theorem within_exitPenalties (h : exitPenalties config s current last = some map) :
    Within last current map := by
  obtain ⟨logs, hlogs, rfl⟩ := Option.map_eq_some_iff.mp h
  refine Within.empty.foldl (s.elastic.inRange _ _ _ _ hlogs) fun map log => ?_
  unfold processExitFarmEvents
  split
  next => exact Or.inl rfl
  next => exact Or.inr ⟨_, rfl⟩

/-- A map that is computed is one of the pass's interval. -/
theorem computed_within (h : computed config s p m = some map) :
    ∃ last current, passInterval s p = some (last, current) ∧ Within last current map := by
  cases m with
  | feeBurned =>
    obtain ⟨⟨last, current⟩, hinterval, hfees⟩ := Option.bind_eq_some_iff.mp h
    exact ⟨last, current, hinterval, within_swapFees hfees⟩
  | penaltyBurned =>
    obtain ⟨⟨last, current⟩, hinterval, hrest⟩ := Option.bind_eq_some_iff.mp h
    obtain ⟨fees, -, hpenalties⟩ := Option.bind_eq_some_iff.mp hrest
    split at hpenalties
    next => cases hpenalties
    next => exact ⟨last, current, hinterval, within_exitPenalties hpenalties⟩

end Within

/-! ## Rows of a pass -/

/-- The row for a second of a measure. -/
def slotOf (config : LogsConfig) (m : MeasureName) (t : ℕ) : Slot where
  timestamp := t
  series := config.MEX_TOKEN_ID
  key := m

section Rows

variable {config : LogsConfig} {s : Surroundings} {p : LogsProcessor} {database : Database}
  {map : JsMap ℕ ℕ} {m : MeasureName} {t v : ℕ} {record : IngestRecord}

/-- The records are the entries of the map. -/
theorem mem_recordsOf : record ∈ recordsOf config map m ↔
    JsMap.get map record.timestamp = some record.value ∧
      record.entity.slot = slotOf config m record.timestamp := by
  obtain ⟨series, key, value, timestamp⟩ := record
  simp only [recordsOf, recordsAt, List.mem_filterMap, Option.map_eq_some_iff, slotOf,
    IngestRecord.entity, XExchangeAnalyticsEntity.slot, Slot.mk.injEq, true_and]
  constructor
  · rintro ⟨t, -, v, hget, heq⟩
    simp only [IngestRecord.mk.injEq] at heq
    obtain ⟨rfl, rfl, rfl, rfl⟩ := heq
    exact ⟨hget, rfl, rfl⟩
  · rintro ⟨hget, rfl, rfl⟩
    exact ⟨timestamp, JsMap.mem_keys_iff.mpr (by rw [hget]; simp), value, hget, rfl⟩

/-- What is written are some of the records. -/
theorem written_sublist (s : Surroundings) (records : List IngestRecord) :
    (written s records).Sublist records := by
  unfold written writtenBatches
  split
  next => exact flatMap_batches_sublist (keptOf_sublist s) records
  next => exact List.nil_sublist _

/-- No two records of a map have the same row. -/
theorem nodup_slots (h : (JsMap.keys map).Nodup) :
    ((convertRecordsToDataAPIRecords (written s (recordsOf config map m))).map
      XExchangeAnalyticsEntity.slot).Nodup := by
  have hseconds : ∀ timestamps,
      ((recordsAt config map m timestamps).map IngestRecord.timestamp).Sublist timestamps := by
    intro timestamps
    induction timestamps with
    | nil => exact List.Sublist.refl _
    | cons timestamp timestamps ih =>
      unfold recordsAt at ih ⊢
      cases hget : JsMap.get map timestamp with
      | none =>
        rw [List.filterMap_cons_none (by rw [hget]; rfl)]
        exact ih.cons timestamp
      | some value =>
        rw [List.filterMap_cons_some (by rw [hget]; rfl), List.map_cons]
        exact ih.cons_cons timestamp
  have hnodup : ((written s (recordsOf config map m)).map IngestRecord.timestamp).Nodup :=
    (((written_sublist s _).map _).trans (hseconds _)).nodup h
  refine List.Nodup.of_map Slot.timestamp ?_
  unfold convertRecordsToDataAPIRecords
  rw [List.map_map, List.map_map]
  exact hnodup

/-- The rows of one measure after those of both have been stored. -/
theorem processNewLogs_database :
    (processNewLogs config s p).database =
      (p.database.store (convertRecordsToDataAPIRecords (writtenOf config s p .feeBurned))).store
        (convertRecordsToDataAPIRecords (writtenOf config s p .penaltyBurned)) := by
  cases hinterval : passInterval s p with
  | some interval => exact (processNewLogs_of_some config hinterval).1
  | none =>
    have hwritten : ∀ m, writtenOf config s p m = [] := by
      intro m
      cases m <;> simp [writtenOf, computed, hinterval]
    rw [hwritten, hwritten]
    exact (processNewLogs_of_none config hinterval).1

/-- The row of a record says its second and its measure. -/
theorem slot_of_mem_writtenOf (h : record ∈ writtenOf config s p m) :
    record.entity.slot = slotOf config m record.timestamp ∧
      ∃ map, computed config s p m = some map ∧
        JsMap.get map record.timestamp = some record.value := by
  unfold writtenOf at h
  split at h
  next => simp at h
  next map hmap =>
    obtain ⟨hget, hslot⟩ := mem_recordsOf.mp ((written_sublist s _).subset h)
    exact ⟨hslot, map, hmap, hget⟩

/-- A row that is in no record stays as it was. -/
theorem database_of_notMem (h : ∀ record ∈ writtenOf config s p m, record.timestamp ≠ t) :
    (processNewLogs config s p).database (slotOf config m t) =
      p.database (slotOf config m t) := by
  have hnotMem : ∀ m', slotOf config m t ∉ (convertRecordsToDataAPIRecords
      (writtenOf config s p m')).map XExchangeAnalyticsEntity.slot := by
    intro m' hmem
    unfold convertRecordsToDataAPIRecords at hmem
    rw [List.map_map, List.mem_map] at hmem
    obtain ⟨record, hrecord, heq⟩ := hmem
    have hslot : slotOf config m' record.timestamp = slotOf config m t :=
      (slot_of_mem_writtenOf hrecord).1.symm.trans heq
    simp only [slotOf, Slot.mk.injEq, true_and] at hslot
    obtain ⟨ht, rfl⟩ := hslot
    exact h record hrecord ht
  rw [processNewLogs_database, Database.store_of_notMem (hnotMem _),
    Database.store_of_notMem (hnotMem _)]

/-- A record that is written is in the table. -/
theorem database_of_mem (h : record ∈ writtenOf config s p m) :
    (processNewLogs config s p).database (slotOf config m record.timestamp) =
      some record.value := by
  have hnodup : ((convertRecordsToDataAPIRecords (writtenOf config s p m)).map
      XExchangeAnalyticsEntity.slot).Nodup := by
    unfold writtenOf
    split
    next => exact List.nodup_nil
    next map hmap =>
      obtain ⟨last, current, -, hwithin⟩ := computed_within hmap
      exact nodup_slots hwithin.nodup
  have hentity : record.entity ∈ convertRecordsToDataAPIRecords (writtenOf config s p m) :=
    List.mem_map_of_mem h
  rw [← (slot_of_mem_writtenOf h).1, processNewLogs_database]
  cases m with
  | penaltyBurned => exact Database.store_of_mem hnodup hentity
  | feeBurned =>
    -- the penalties have other keys
    rw [Database.store_of_notMem, Database.store_of_mem hnodup hentity]
    · rfl
    · intro hmem
      unfold convertRecordsToDataAPIRecords at hmem
      rw [List.map_map, List.mem_map] at hmem
      obtain ⟨other, hother, heq⟩ := hmem
      have hslot : slotOf config .penaltyBurned other.timestamp =
          slotOf config .feeBurned record.timestamp :=
        (slot_of_mem_writtenOf hother).1.symm.trans (heq.trans (slot_of_mem_writtenOf h).1)
      simp [slotOf] at hslot

end Rows

/-! ## Runs -/

/-- The processor, and what an observer notes: for every second of a measure
the value computed last, and how far the passes have come. -/
structure Observed where
  processor : LogsProcessor
  latest : MeasureName → ℕ → Option ℕ
  clock : ℕ

/-- A process that has just started, with whatever the cache and the table hold. -/
def Observed.start (timestamp : Option ℕ) (database : Database) : Observed where
  processor :=
    { isProcessing := false
      feeMap := []
      penaltyMap := []
      lastLogProcessedTimestamp := timestamp
      database := database }
  latest := fun _ _ => none
  clock := 0

/-- A value that was computed for a second and is not what the table has. -/
def Observed.Unwritten (config : LogsConfig) (o : Observed) (m : MeasureName) (t v : ℕ) : Prop :=
  o.latest m t = some v ∧ o.processor.database (slotOf config m t) ≠ some v

/-- A map that is computed counts for all seconds of its interval. -/
def note (config : LogsConfig) (s : Surroundings) (o : Observed) (m : MeasureName) (t : ℕ) :
    Option ℕ :=
  match passInterval s o.processor, computed config s o.processor m with
  | some (last, current), some map =>
    if last ≤ t ∧ t ≤ current then JsMap.get map t else o.latest m t
  | _, _ => o.latest m t

/-- The cron fires, the pass under way comes to its end, or the entry of the
cache expires. -/
inductive ProcessorAction
  | cron
  | processed (s : Surroundings)
  | expired

/-- The timer fires, or a minute is processed in surroundings of its own. -/
def processorStep (config : LogsConfig) (o : Observed) : ProcessorAction → Option Observed
  | .cron => some { o with processor := o.processor.fire }
  | .processed s =>
    if o.processor.isProcessing then
      some
        { processor := o.processor.finish config s
          latest := note config s o
          clock :=
            match passInterval s o.processor with
            | some (_, current) => max o.clock current
            | none => o.clock }
    else none
  | .expired =>
    some { o with processor := { o.processor with lastLogProcessedTimestamp := none } }

/-- The events whose logs a pass fetches. -/
def eventNames : List String := ["swapTokensFixedInput", "swapTokensFixedOutput", "exitFarm"]

/-- The log has an amount for a record. -/
def Burns (config : LogsConfig) (eventName : String) (log : TransactionLogs) : Prop :=
  if eventName = "exitFarm" then ∃ exitFarm, exitFarmEvent config log.events = some exitFarm ∧
    getBurnedPenalty config exitFarm (esdtLocalBurnEvents log.events) ≠ 0
  else getBurnedFee config (esdtLocalBurnEvents log.events) ≠ 0

/-- A pass that can fetch the logs of its interval can also write: writing is
switched on and every save succeeds. It does not matter if the logs have
nothing to write, nor without the flag, which is an error at the first record. -/
def CanWrite (config : LogsConfig) (s : Surroundings) (p : LogsProcessor) : Prop :=
  ∀ last current, passInterval s p = some (last, current) →
    (∀ eventName ∈ eventNames, getTransactionsLogs s eventName current last ≠ none) →
    s.writeFlag = some true ∧ (∀ entities, s.save entities = .saved) ∨
      s.writeFlag = none ∨
      ∀ eventName ∈ eventNames, ∀ logs, getTransactionsLogs s eventName current last = some logs →
        ∀ log ∈ logs, ¬Burns config eventName log

/-- A pass whose new timestamp the cache takes can write what it has to; and
while a computed value is unwritten the timestamp is there to be found (or the
pass starts anew at or before that value). -/
def Undisturbed (config : LogsConfig) (o : Observed) : ProcessorAction → Prop
  | .cron => True
  | .processed s =>
    s.cacheSet = true →
      CanWrite config s o.processor ∧
      (s.cacheGet = .nothing → ∀ now, s.shardTimestamp = some now →
        ∀ m t v, o.Unwritten config m t v → now.seconds - oneMinute ≤ t)
  | .expired => ∀ m t v, ¬o.Unwritten config m t v

section Writes

variable {config : LogsConfig} {s : Surroundings} {p : LogsProcessor} {last current : ℕ}
  {map : JsMap ℕ ℕ} {m : MeasureName}

/-- What a database that saves whatever it is given leaves in the table. -/
theorem written_of_saved (hflag : s.writeFlag = some true)
    (hsave : ∀ entities, s.save entities = .saved) (records : List IngestRecord) :
    written s records = records := by
  have hkept : keptOf s = fun batch => batch := by
    funext batch
    rw [keptOf, hsave]
  rw [written, writtenBatches, if_pos hflag, hkept, List.flatMap_id', flatten_batches]

/-- An amount of zero is not entered. -/
theorem addAmount_zero (map : JsMap ℕ ℕ) (timestamp : ℕ) : addAmount map timestamp 0 = map :=
  if_pos rfl

/-- Logs without an amount leave the map as it is. -/
theorem foldl_of_not_burns {f : JsMap ℕ ℕ → TransactionLogs → JsMap ℕ ℕ} {eventName : String}
    {logs : List TransactionLogs} (hlogs : ∀ log ∈ logs, ¬Burns config eventName log)
    (hf : ∀ map log, ¬Burns config eventName log → f map log = map) (map : JsMap ℕ ℕ) :
    logs.foldl f map = map := by
  induction logs with
  | nil => rfl
  | cons log logs ih =>
    rw [List.foldl_cons, hf map log (hlogs log (List.mem_cons_self ..))]
    exact ih fun log' hlog' => hlogs log' (List.mem_cons_of_mem _ hlog')

/-- Logs that burn nothing leave the map alone. -/
theorem getSwapLogs_of_not_burns {swapType : String} (hswap : swapType ≠ "exitFarm")
    (hlogs : ∀ logs, getTransactionsLogs s swapType current last = some logs →
      ∀ log ∈ logs, ¬Burns config swapType log)
    {feeMap : JsMap ℕ ℕ} (hmap : getSwapLogs config s swapType current last map = some feeMap) :
    feeMap = map := by
  obtain ⟨logs, hget, rfl⟩ := Option.map_eq_some_iff.mp hmap
  refine foldl_of_not_burns (hlogs logs hget) (fun map log hburns => ?_) map
  rw [Burns, if_neg hswap, not_not] at hburns
  rw [processSwapEvents, hburns, addAmount_zero]

/-- Exits that burn nothing leave the map empty. -/
theorem exitPenalties_of_not_burns
    (hlogs : ∀ logs, getTransactionsLogs s "exitFarm" current last = some logs →
      ∀ log ∈ logs, ¬Burns config "exitFarm" log)
    (hmap : exitPenalties config s current last = some map) : map = [] := by
  obtain ⟨logs, hget, rfl⟩ := Option.map_eq_some_iff.mp hmap
  refine foldl_of_not_burns (hlogs logs hget) (fun map log hburns => ?_) []
  rw [Burns, if_pos rfl] at hburns
  unfold processExitFarmEvents
  split
  next => rfl
  next exitFarm hexit =>
    have hzero : getBurnedPenalty config exitFarm (esdtLocalBurnEvents log.events) = 0 := by
      by_contra hne
      exact hburns ⟨exitFarm, hexit, hne⟩
    rw [hzero, addAmount_zero]

/-- If no log has an amount, the maps of the pass are empty. -/
theorem computed_of_not_burns (hinterval : passInterval s p = some (last, current))
    (hlogs : ∀ eventName ∈ eventNames, ∀ logs,
      getTransactionsLogs s eventName current last = some logs →
        ∀ log ∈ logs, ¬Burns config eventName log)
    (hmap : computed config s p m = some map) : map = [] := by
  cases m with
  | feeBurned =>
    rw [computed_feeBurned hinterval] at hmap
    obtain ⟨feeMap, hinput, houtput⟩ := Option.bind_eq_some_iff.mp hmap
    obtain rfl : feeMap = [] :=
      getSwapLogs_of_not_burns (by decide) (hlogs _ (by decide)) hinput
    exact getSwapLogs_of_not_burns (by decide) (hlogs _ (by decide)) houtput
  | penaltyBurned =>
    rw [computed, hinterval, Option.bind_some] at hmap
    obtain ⟨fees, -, hpenalties⟩ := Option.bind_eq_some_iff.mp hmap
    split at hpenalties
    next => cases hpenalties
    next => exact exitPenalties_of_not_burns (hlogs _ (by decide)) hpenalties

/-- A pass that computes both maps had all of its logs. -/
theorem fetched_of_computed (hinterval : passInterval s p = some (last, current))
    (hall : ∀ m, computed config s p m ≠ none) :
    ∀ eventName ∈ eventNames, getTransactionsLogs s eventName current last ≠ none := by
  obtain ⟨fees, hfees⟩ := Option.ne_none_iff_exists'.mp (hall .feeBurned)
  rw [computed_feeBurned hinterval] at hfees
  obtain ⟨feeMap, hinput, houtput⟩ := Option.bind_eq_some_iff.mp hfees
  obtain ⟨inputLogs, hinputLogs, -⟩ := Option.map_eq_some_iff.mp hinput
  obtain ⟨outputLogs, houtputLogs, -⟩ := Option.map_eq_some_iff.mp houtput
  have hexit : getTransactionsLogs s "exitFarm" current last ≠ none := by
    intro hnone
    have hpenalty := hall .penaltyBurned
    rw [computed_penaltyBurned hinterval hfees] at hpenalty
    split at hpenalty
    next => exact hpenalty rfl
    next => exact hpenalty (Option.map_eq_none_iff.mpr hnone)
  intro eventName hmem
  simp only [eventNames, List.mem_cons, List.not_mem_nil, or_false] at hmem
  rcases hmem with rfl | rfl | rfl
  · simp [hinputLogs]
  · simp [houtputLogs]
  · exact hexit

end Writes

section Runs

variable {config : LogsConfig} {s : Surroundings} {o o' : Observed} {m : MeasureName}
  {map : JsMap ℕ ℕ} {t v : ℕ}

/-- A pass that moves the timestamp has every record it computed in the table. -/
theorem written_of_moved (hok : Undisturbed config o (.processed s))
    (hmoved : (o.processor.finish config s).lastLogProcessedTimestamp ≠
      o.processor.lastLogProcessedTimestamp)
    (hmap : computed config s o.processor m = some map) (hget : JsMap.get map t = some v) :
    (o.processor.finish config s).database (slotOf config m t) = some v := by
  obtain ⟨last, current, hinterval, -⟩ := computed_within hmap
  obtain ⟨-, hkept | ⟨-, hset, hall, hnoflag⟩⟩ :=
    processNewLogs_of_some config hinterval
  · exact absurd hkept hmoved
  let record : IngestRecord :=
    { series := config.MEX_TOKEN_ID
      key := m
      value := v
      timestamp := t }
  have hrecord : record ∈ recordsOf config map m := mem_recordsOf.mpr ⟨hget, rfl⟩
  rcases (hok hset).1 last current hinterval (fetched_of_computed hinterval hall) with
    ⟨hflag, hsave⟩ | hnone | hquiet
  · have hwritten : record ∈ writtenOf config s o.processor m := by
      rw [writtenOf_of_some hmap, written_of_saved hflag hsave]
      exact hrecord
    exact database_of_mem hwritten
  · -- the first record would have been an error
    rw [hnoflag hnone m map hmap] at hrecord
    simp at hrecord
  · rw [computed_of_not_burns hinterval hquiet hmap] at hget
    cases hget

/-- What holds after every step: an unwritten value is not before the
timestamp that is kept. -/
structure Kept (config : LogsConfig) (o : Observed) : Prop where
  start : ∀ m t v, o.Unwritten config m t v → ∃ last,
    o.processor.lastLogProcessedTimestamp = some last ∧ last ≠ 0 ∧ last ≤ t
  clock : ∀ m t v, o.latest m t = some v → t ≤ o.clock

/-- Before the first run nothing is to be kept. -/
theorem kept_start (timestamp : Option ℕ) (database : Database) :
    Kept config (Observed.start timestamp database) where
  start := by
    rintro m t v ⟨hlatest, -⟩
    cases hlatest
  clock := by
    intro m t v hlatest
    cases hlatest

/-- A value noted after a pass is of the pass or was noted before. -/
theorem note_cases (h : note config s o m t = some v) :
    (∃ last current map, passInterval s o.processor = some (last, current) ∧
      computed config s o.processor m = some map ∧ JsMap.get map t = some v ∧
      last ≤ t ∧ t ≤ current) ∨
    o.latest m t = some v ∧ (∀ last current map, passInterval s o.processor = some (last, current) →
      computed config s o.processor m = some map → ¬(last ≤ t ∧ t ≤ current)) := by
  unfold note at h
  split at h
  next last current map hinterval hmap =>
    split at h
    next hin => exact Or.inl ⟨last, current, map, hinterval, hmap, h, hin⟩
    next hout =>
      refine Or.inr ⟨h, ?_⟩
      intro last' current' map' hinterval' _
      obtain ⟨rfl, rfl⟩ := Prod.mk.inj (Option.some.inj (hinterval.symm.trans hinterval'))
      exact hout
  next hnone =>
    exact Or.inr ⟨h, fun last current map hinterval hmap =>
      (hnone last current map hinterval hmap).elim⟩

/-- A pass has no record of a second that it has not noted. -/
theorem database_of_outside (houtside : ∀ last current map,
      passInterval s o.processor = some (last, current) →
      computed config s o.processor m = some map → ¬(last ≤ t ∧ t ≤ current)) :
    (processNewLogs config s o.processor).database (slotOf config m t) =
      o.processor.database (slotOf config m t) := by
  refine database_of_notMem fun record hrecord heq => ?_
  obtain ⟨-, map, hmap, hget⟩ := slot_of_mem_writtenOf hrecord
  obtain ⟨last, current, hinterval, hwithin⟩ := computed_within hmap
  exact houtside last current map hinterval hmap (heq ▸ hwithin.mem _ _ hget)

/-- A value that was unwritten before the pass is not left behind by it. -/
theorem Kept.start_processed (h : Kept config o) (hok : Undisturbed config o (.processed s))
    (hbefore : o.Unwritten config m t v)
    (houtside : ∀ last current map, passInterval s o.processor = some (last, current) →
      computed config s o.processor m = some map → ¬(last ≤ t ∧ t ≤ current)) :
    ∃ last, (processNewLogs config s o.processor).lastLogProcessedTimestamp = some last ∧
      last ≠ 0 ∧ last ≤ t := by
  obtain ⟨last, hentry, hzero, hlast⟩ := h.start m t v hbefore
  -- the checkpoint stays, or moves to the time of a new interval
  cases hinterval : passInterval s o.processor with
  | none =>
    rcases (processNewLogs_of_none config hinterval).2 with
      hkept | ⟨hset, hnothing | hmissing | hmissing, now, hshard, hmoved⟩
    · exact ⟨last, by rw [hkept, hentry], hzero, hlast⟩
    · have hnow := (hok hset).2 hnothing now hshard m t v hbefore
      have hlate := now.late
      exact ⟨_, hmoved, by unfold oneMinute; omega, hnow⟩
    · rw [hmissing] at hentry
      cases hentry
    · rw [hmissing] at hentry
      exact absurd (Option.some.inj hentry).symm hzero
  | some interval =>
    obtain ⟨last', current⟩ := interval
    obtain ⟨-, -, hentry', -, hcurrent⟩ := passInterval_eq_some hinterval
    obtain rfl : last' = last := Option.some.inj (hentry'.symm.trans hentry)
    rcases (processNewLogs_of_some config hinterval).2 with hkept | ⟨hmoved, -, hall, -⟩
    · exact ⟨last', by rw [hkept, hentry], hzero, hlast⟩
    · -- then the second is after the interval
      obtain ⟨map, hmap⟩ := Option.ne_none_iff_exists'.mp (hall m)
      have hout := houtside last' current map hinterval hmap
      exact ⟨current, hmoved, by omega, by omega⟩

/-- A minute that loses nothing keeps what was observed. -/
theorem Kept.processed (h : Kept config o) (hok : Undisturbed config o (.processed s))
    (hstep : processorStep config o (.processed s) = some o') : Kept config o' := by
  change (if o.processor.isProcessing then some _ else none) = some o' at hstep
  split at hstep
  next hprocessing =>
    obtain rfl := Option.some.inj hstep
    refine ⟨?_, ?_⟩
    · rintro m t v ⟨hlatest, hunwritten⟩
      dsimp only at hlatest hunwritten ⊢
      rcases note_cases hlatest with ⟨last, current, map, hinterval, hmap, hget, hlast, -⟩ |
        ⟨hold, houtside⟩
      · -- the pass computed it: then the timestamp has not moved
        obtain ⟨-, -, hentry, hzero, -⟩ := passInterval_eq_some hinterval
        have hkept : (o.processor.finish config s).lastLogProcessedTimestamp =
            o.processor.lastLogProcessedTimestamp := by
          by_contra hmoved
          exact hunwritten (written_of_moved hok hmoved hmap hget)
        exact ⟨last, by rw [hkept, hentry], hzero, hlast⟩
      · have hdatabase := database_of_outside houtside
        exact h.start_processed hok ⟨hold, hdatabase ▸ hunwritten⟩ houtside
    · intro m t v hlatest
      dsimp only at hlatest ⊢
      rcases note_cases hlatest with ⟨last, current, map, hinterval, -, -, -, hcurrent⟩ | ⟨hold, -⟩
      · rw [hinterval]
        exact le_max_of_le_right hcurrent
      · have hclock := h.clock m t v hold
        split
        next => exact le_max_of_le_left hclock
        next => exact hclock
  next => cases hstep

/-- Every step that loses nothing does. -/
theorem Kept.step {action : ProcessorAction} (h : Kept config o)
    (hok : Undisturbed config o action) (hstep : processorStep config o action = some o') :
    Kept config o' := by
  cases action with
  | cron =>
    obtain rfl := Option.some.inj hstep
    have hfire : o.processor.fire.database = o.processor.database ∧
        o.processor.fire.lastLogProcessedTimestamp =
          o.processor.lastLogProcessedTimestamp := by
      unfold LogsProcessor.fire
      split <;> exact ⟨rfl, rfl⟩
    refine ⟨?_, h.clock⟩
    rintro m t v ⟨hlatest, hunwritten⟩
    dsimp only at hunwritten ⊢
    rw [hfire.1] at hunwritten
    rw [hfire.2]
    exact h.start m t v ⟨hlatest, hunwritten⟩
  | processed s => exact h.processed hok hstep
  | expired =>
    obtain rfl := Option.some.inj hstep
    refine ⟨?_, h.clock⟩
    intro m t v hunwritten
    exact absurd hunwritten (hok m t v)

end Runs

/-- **The timestamp and the records.** In every run in which the passes that
have their logs can write and the timestamp is not lost while a record is
unwritten: a value that was computed last for its second and is not in
the table is not before the timestamp, so the next pass that gets its interval
starts at or before it; and a pass that moved the timestamp has all the
records it computed in the table. -/
theorem checkpoint_follows_writes (config : LogsConfig) {timestamp : Option ℕ}
    {database : Database} {actions : List ProcessorAction} {o : Observed}
    (hmeets : Meets (processorStep config) (Undisturbed config)
      (Observed.start timestamp database) actions)
    (hrun : run (processorStep config) (Observed.start timestamp database) actions = some o) :
    (∀ m t v, o.Unwritten config m t v → t ≤ o.clock ∧ ∃ last, last ≤ t ∧
      o.processor.lastLogProcessedTimestamp = some last ∧
      ∀ s now, s.cacheGet = .entry → s.shardTimestamp = some now →
        processingInterval s oneMinute o.processor = some (last, now.seconds - oneMinute)) ∧
    ∀ pre s post before after, actions = pre ++ .processed s :: post →
      run (processorStep config) (Observed.start timestamp database) pre = some before →
      processorStep config before (.processed s) = some after →
      after.processor.lastLogProcessedTimestamp ≠ before.processor.lastLogProcessedTimestamp →
      ∀ m map t v, computed config s before.processor m = some map → JsMap.get map t = some v →
        after.processor.database (slotOf config m t) = some v := by
  constructor
  · intro m t v hunwritten
    have hkept : Kept config o :=
      run_invariant (Kept config) (fun _ _ _ h hok hstep => h.step hok hstep)
        (kept_start timestamp database) hmeets hrun
    obtain ⟨last, hentry, hzero, hlast⟩ := hkept.start m t v hunwritten
    refine ⟨hkept.clock m t v hunwritten.1, last, hlast, hentry, ?_⟩
    intro s now hget hshard
    rw [processingInterval, hget, hshard]
    simp only [hentry, if_neg hzero]
  · rintro pre s post before after rfl hpre hstep hmoved m map t v hmap hget
    have hok := hmeets.at_step hpre
    change (if before.processor.isProcessing then some _ else none) = some after at hstep
    split at hstep
    next =>
      obtain rfl := Option.some.inj hstep
      exact written_of_moved hok hmoved hmap hget
    next => cases hstep

/-! ## Two minutes of swaps -/

private def mexConfig : LogsConfig where
  MEX_TOKEN_ID := "MEX-455c57"
  farmVersion := fun _ => none

private def sampleLogs (eventName : String) : List TransactionLogs :=
  if eventName = "swapTokensFixedInput" then
    [{ timestamp := 130, events := [.esdtLocalBurn "MEX-455c57" 5, .other "swapTokensFixedInput"] },
      { timestamp := 140, events := [.esdtLocalBurn "WEGLD-bd4d79" 9] }]
  else if eventName = "swapTokensFixedOutput" then
    [{ timestamp := 130, events := [.esdtLocalBurn "MEX-455c57" 2] },
      { timestamp := 150, events := [.esdtLocalBurn "MEX-455c57" 4] }]
  else []

/-- An index with the swaps of two kinds at second 130, and others after it. -/
private def sampleElastic : ElasticService where
  getList := fun eventName gte lte => some <|
    (sampleLogs eventName).filter fun log => gte ≤ log.timestamp ∧ log.timestamp ≤ lte
  inRange := by
    intro eventName gte lte logs h log hlog
    rw [← Option.some.inj h] at hlog
    simpa using (List.mem_filter.mp hlog).2

/-- The index cannot be reached. -/
private def unreachable : ElasticService where
  getList := fun _ _ _ => none
  inRange := by
    intro _ _ _ logs h
    cases h

private def minute (elastic : ElasticService) (save : List XExchangeAnalyticsEntity → SaveOutcome) :
    Surroundings where
  cacheGet := .entry
  shardTimestamp := some ⟨220, by omega⟩
  elastic := elastic
  writeFlag := some true
  save := save
  cacheSet := true

/-- A pass without its logs leaves the timestamp, and the next one, whose
saves succeed, moves it with all records in the table. -/
theorem checkpoint_follows_writes_saved :
    ∃ o, run (processorStep mexConfig) (Observed.start (some 100) fun _ => none)
        [.cron, .processed (minute unreachable fun _ => .failed fun _ => false),
          .cron, .processed (minute sampleElastic fun _ => .saved)] = some o ∧
      o.processor.lastLogProcessedTimestamp = some 160 ∧
      o.processor.database (slotOf mexConfig .feeBurned 130) = some 7 := by
  refine ⟨_, rfl, rfl, ?_⟩
  refine (checkpoint_follows_writes mexConfig ?_ rfl).2
    [.cron, .processed (minute unreachable fun _ => .failed fun _ => false), .cron]
    (minute sampleElastic fun _ => .saved) [] _ _ rfl rfl rfl ?_
    .feeBurned [(130, 7), (150, 4)] 130 7 rfl rfl
  · refine ⟨trivial, fun o _ => ⟨fun _ => ⟨?_, nofun⟩, fun o _ => ⟨trivial, fun o _ =>
      ⟨fun _ => ⟨?_, nofun⟩, fun _ _ => trivial⟩⟩⟩⟩
    · intro last current _ hfetched
      exact absurd rfl (hfetched "exitFarm" (by decide))
    · intro last current _ _
      exact Or.inl ⟨rfl, fun _ => rfl⟩
  · decide

/-- If the save fails, the timestamp moves as well and the record is in no
table. -/
theorem burned_fee_lost :
    (run (processorStep mexConfig) (Observed.start (some 100) fun _ => none)
        [.cron, .processed (minute sampleElastic fun _ => .failed fun _ => false)]).map
      (fun o => (o.processor.lastLogProcessedTimestamp, o.latest .feeBurned 130,
        o.processor.database (slotOf mexConfig .feeBurned 130))) =
      some (some 160, some 7, none) := by
  decide

end MxExchange.Analytics
