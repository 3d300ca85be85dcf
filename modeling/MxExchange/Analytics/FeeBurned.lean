import MxExchange.Analytics.LogsProcessor
import MxExchange.Collections.Visits

/-!
# `logs.processor.service.ts`: what is stored for a second

The burned fees of an interval are added up over two queries, one for each
kind of swap event, and a query returns a log as a whole. A log that holds
swaps of both kinds is returned by both, and what it burned is added twice
(`feeBurned_eq`). Neighbouring intervals share a second, but that second is
computed anew from all its logs and its record overwritten.

`feeBurned_once_iff` is about runs that succeed one after the other: what is
in the table for a second of their intervals is what was burned in it exactly
if none of its logs with swaps of both kinds burned any MEX.
-/

namespace MxExchange.Analytics

open MxExchange.Collections MxExchange.Pair

/-! ## The index -/

/-- The identifier a log is searched by. -/
def LogEvent.identifier : LogEvent → String
  | .esdtLocalBurn _ _ => "ESDTLocalBurn"
  | .exitFarm _ _ => "exitFarm"
  | .other identifier => identifier

/-- The log has an event of that name, which is what a query asks for. -/
def TransactionLogs.has (eventName : String) (log : TransactionLogs) : Bool :=
  log.events.any fun event => event.identifier = eventName

/-- The index holds all of a history: a query returns its logs in some order. -/
def ElasticService.Holds (elastic : ElasticService) (history : List TransactionLogs) : Prop :=
  ∀ eventName gte lte, ∃ logs, elastic.getList eventName gte lte = some logs ∧
    logs.Perm (history.filter fun log =>
      log.has eventName ∧ gte ≤ log.timestamp ∧ log.timestamp ≤ lte)

/-- The MEX burned in a log. -/
def TransactionLogs.burned (config : LogsConfig) (log : TransactionLogs) : ℕ :=
  getBurnedFee config (esdtLocalBurnEvents log.events)

/-- The two queries for swaps. -/
def swapQueries : List (TransactionLogs → Bool) :=
  [TransactionLogs.has "swapTokensFixedInput", TransactionLogs.has "swapTokensFixedOutput"]

/-- The logs of a second. -/
def logsAt (history : List TransactionLogs) (t : ℕ) : List TransactionLogs :=
  history.filter fun log => log.timestamp = t

/-- What was burned in the swaps of a second, every burn once. -/
def burnedOnce (config : LogsConfig) (history : List TransactionLogs) (t : ℕ) : ℕ :=
  (((logsAt history t).filter fun log => 0 < matching swapQueries log).map
    (TransactionLogs.burned config)).sum

/-- What the two queries make of it. -/
def burnedByQueries (config : LogsConfig) (history : List TransactionLogs) (t : ℕ) : ℕ :=
  ((visits swapQueries (logsAt history t)).map (TransactionLogs.burned config)).sum

/-! ## One map for two queries -/

section Map

variable {config : LogsConfig} {map : JsMap ℕ ℕ} {t : ℕ}

/-- A map has no entry that is zero, and `amount` for a second. -/
structure Amounts (map : JsMap ℕ ℕ) (amount : ℕ → ℕ) : Prop where
  get : ∀ t, JsMap.get map t = if amount t = 0 then none else some (amount t)

/-- A map without entries has an amount of zero at every second. -/
theorem Amounts.empty : Amounts [] fun _ => 0 :=
  ⟨fun _ => rfl⟩

/-- An amount is added to the one at its second. -/
theorem Amounts.addAmount {amount : ℕ → ℕ} (h : Amounts map amount) (timestamp added : ℕ) :
    Amounts (addAmount map timestamp added)
      fun t => amount t + if timestamp = t then added else 0 := by
  refine ⟨fun t => ?_⟩
  unfold Analytics.addAmount
  -- an amount of zero makes no entry
  by_cases hzero : added = 0
  · simp only [hzero, if_true, ite_self, Nat.add_zero]
    exact h.get t
  · rw [if_neg hzero]
    have hentry := h.get timestamp
    have hset : ∀ v, v = amount timestamp + added →
        JsMap.get (JsMap.set map timestamp v) t =
          if (amount t + if timestamp = t then added else 0) = 0 then none
          else some (amount t + if timestamp = t then added else 0) := by
      rintro v rfl
      rw [JsMap.get_set]
      by_cases ht : t = timestamp
      · subst ht
        rw [if_pos rfl, if_pos rfl, if_neg (by omega)]
      · have hne : ¬timestamp = t := fun heq => ht heq.symm
        rw [if_neg ht]
        simp only [if_neg hne, Nat.add_zero]
        exact h.get t
    split
    next entry hget =>
      rw [hget] at hentry
      split at hentry
      next => cases hentry
      next => exact hset _ (by rw [Option.some.inj hentry])
    next hget =>
      rw [hget] at hentry
      split at hentry
      next hamount => exact hset _ (by rw [hamount, Nat.zero_add])
      next => cases hentry

/-- The loop over the logs of one query. -/
theorem Amounts.foldl {amount : ℕ → ℕ} (h : Amounts map amount) (config : LogsConfig)
    (logs : List TransactionLogs) :
    Amounts (logs.foldl (fun map log => processSwapEvents config log.events log.timestamp map) map)
      fun t => amount t + ((logsAt logs t).map (TransactionLogs.burned config)).sum := by
  induction logs generalizing map amount with
  | nil => exact h
  | cons log logs ih =>
    have hstep := ih (h.addAmount log.timestamp (log.burned config))
    refine ⟨fun t => (hstep.get t).trans ?_⟩
    have hsum : ((logsAt (log :: logs) t).map (TransactionLogs.burned config)).sum =
        (if log.timestamp = t then log.burned config else 0) +
          ((logsAt logs t).map (TransactionLogs.burned config)).sum := by
      unfold logsAt
      rw [List.filter_cons]
      by_cases ht : log.timestamp = t
      · simp [ht]
      · simp [ht]
    rw [hsum, Nat.add_assoc]

end Map

section Queries

variable {config : LogsConfig} {history : List TransactionLogs} {s : Surroundings}
  {current last : ℕ} {map feeMap : JsMap ℕ ℕ} {amount : ℕ → ℕ}

/-- What a query adds to a second of the interval. -/
theorem getSwapLogs_amounts (config : LogsConfig) (last current : ℕ)
    (hindex : s.elastic.Holds history) (swapType : String) (h : Amounts map amount) : ∃ feeMap,
      getSwapLogs config s swapType current last map = some feeMap ∧
      Amounts feeMap fun t => amount t + if last ≤ t ∧ t ≤ current then
        (((logsAt history t).filter (TransactionLogs.has swapType)).map
          (TransactionLogs.burned config)).sum else 0 := by
  obtain ⟨logs, hlogs, hperm⟩ := hindex swapType last current
  refine ⟨_, by rw [getSwapLogs, getTransactionsLogs, hlogs]; rfl, ?_⟩
  have hfold := h.foldl config logs
  refine ⟨fun t => (hfold.get t).trans ?_⟩
  have hsum : ((logsAt logs t).map (TransactionLogs.burned config)).sum =
      if last ≤ t ∧ t ≤ current then
        (((logsAt history t).filter (TransactionLogs.has swapType)).map
          (TransactionLogs.burned config)).sum else 0 := by
    unfold logsAt
    rw [((hperm.filter _).map _).sum_eq, List.filter_filter, List.filter_filter]
    split
    next hin =>
      congr 2
      refine List.filter_congr fun log _ => ?_
      by_cases ht : log.timestamp = t
      · simp [ht, hin]
      · simp [ht]
    next hout =>
      -- no log of the interval is of this second
      rw [List.filter_eq_nil_iff.mpr]
      · rfl
      · intro log _ hlog
        simp only [Bool.and_eq_true, decide_eq_true_eq] at hlog
        obtain ⟨rfl, -, hin⟩ := hlog
        exact hout hin
  rw [hsum]

/-- The map of an interval: the sums of both queries for its seconds. -/
theorem swapFees_amounts (config : LogsConfig) (last current : ℕ)
    (hindex : s.elastic.Holds history) : ∃ fees,
    swapFees config s current last = some fees ∧
      Amounts fees fun t => if last ≤ t ∧ t ≤ current then burnedByQueries config history t
        else 0 := by
  obtain ⟨inputs, hinputs, hfirst⟩ :=
    getSwapLogs_amounts config last current hindex "swapTokensFixedInput" Amounts.empty
  obtain ⟨fees, hfees, hsecond⟩ :=
    getSwapLogs_amounts config last current hindex "swapTokensFixedOutput" hfirst
  refine ⟨fees, by rw [swapFees, hinputs]; exact hfees, ⟨fun t => (hsecond.get t).trans ?_⟩⟩
  have hboth : burnedByQueries config history t =
      (((logsAt history t).filter (TransactionLogs.has "swapTokensFixedInput")).map
        (TransactionLogs.burned config)).sum +
      (((logsAt history t).filter (TransactionLogs.has "swapTokensFixedOutput")).map
        (TransactionLogs.burned config)).sum := by
    unfold burnedByQueries visits swapQueries
    simp
  rw [hboth]
  split <;> simp

end Queries

/-! ## Runs that succeed -/

/-- The run finds its checkpoint, all its logs are there, and everything it
computes is written. -/
structure Succeeds (history : List TransactionLogs) (s : Surroundings) : Prop where
  cacheGet : s.cacheGet = .entry
  shardTimestamp : s.shardTimestamp ≠ none
  holds : s.elastic.Holds history
  writeFlag : s.writeFlag = some true
  save : ∀ entities, s.save entities = .saved
  cacheSet : s.cacheSet = true

/-- `handleNewLogs`, from its start to its end. -/
def handleNewLogs (config : LogsConfig) (p : LogsProcessor) (s : Surroundings) : LogsProcessor :=
  if p.isProcessing then p else p.fire.finish config s

/-- One run after the other. -/
def handleAll (config : LogsConfig) (p : LogsProcessor) (runs : List Surroundings) :
    LogsProcessor :=
  runs.foldl (handleNewLogs config) p

/-- A second is in the interval of one of the runs. -/
def Covers (config : LogsConfig) : LogsProcessor → List Surroundings → ℕ → Prop
  | _, [], _ => False
  | p, s :: runs, t =>
    (∃ last current, passInterval s p = some (last, current) ∧ last ≤ t ∧ t ≤ current) ∨
      Covers config (handleNewLogs config p s) runs t

section Runs

variable {config : LogsConfig} {history : List TransactionLogs} {s : Surroundings}
  {p : LogsProcessor} {runs : List Surroundings} {current last t : ℕ}

/-- What a run that succeeds writes for a second of its interval. -/
theorem database_of_covered (h : Succeeds history s)
    (hinterval : passInterval s p = some (last, current)) (ht : last ≤ t ∧ t ≤ current)
    (hfee : burnedByQueries config history t ≠ 0) :
    (processNewLogs config s p).database (slotOf config .feeBurned t) =
      some (burnedByQueries config history t) := by
  obtain ⟨fees, hfees, hamounts⟩ := swapFees_amounts config last current h.holds
  have hcomputed : computed config s p .feeBurned = some fees := by
    rw [computed_feeBurned hinterval, hfees]
  have hget : JsMap.get fees t = some (burnedByQueries config history t) := by
    rw [hamounts.get t, if_pos ht, if_neg hfee]
  let record : IngestRecord :=
    { series := config.MEX_TOKEN_ID
      key := .feeBurned
      value := burnedByQueries config history t
      timestamp := t }
  have hrecord : record ∈ writtenOf config s p .feeBurned := by
    rw [writtenOf_of_some hcomputed, written_of_saved h.writeFlag h.save]
    exact mem_recordsOf.mpr ⟨hget, rfl⟩
  exact database_of_mem hrecord

/-- And no record for any other second, nor for one without a fee. -/
theorem database_of_not_covered (h : Succeeds history s)
    (ht : (∃ last current, passInterval s p = some (last, current) ∧ last ≤ t ∧ t ≤ current) →
      burnedByQueries config history t = 0) :
    (processNewLogs config s p).database (slotOf config .feeBurned t) =
      p.database (slotOf config .feeBurned t) := by
  refine database_of_notMem fun record hrecord heq => ?_
  obtain ⟨-, map, hmap, hget⟩ := slot_of_mem_writtenOf hrecord
  obtain ⟨last, current, hinterval, -⟩ := computed_within hmap
  obtain ⟨fees, hfees, hamounts⟩ := swapFees_amounts config last current h.holds
  rw [computed_feeBurned hinterval, hfees] at hmap
  obtain rfl := Option.some.inj hmap
  rw [heq, hamounts.get t] at hget
  split at hget
  next hin =>
    rw [if_pos (ht ⟨last, current, hinterval, hin⟩)] at hget
    cases hget
  next => cases hget

/-- A run that succeeds moves the checkpoint to the end of its interval. -/
theorem timestamp_of_succeeds (h : Succeeds history s)
    (hinterval : passInterval s p = some (last, current)) :
    (processNewLogs config s p).lastLogProcessedTimestamp = some current := by
  obtain ⟨fees, hfees, -⟩ := swapFees_amounts config last current h.holds
  obtain ⟨logs, hlogs, -⟩ := h.holds "exitFarm" last current
  have hpenalties : exitPenalties config s current last = some (logs.foldl
      (fun map log => processExitFarmEvents config log.events log.timestamp map) []) := by
    rw [exitPenalties, getTransactionsLogs, hlogs]
    rfl
  -- a write that fails clears the flag, and the flag is set
  have hwrites : ∀ map m database, ∃ total,
      (writeRecords config s map m database).1 = some total := by
    intro map m database
    refine Option.ne_none_iff_exists'.mp fun hnone => ?_
    have hflag := (writeRecords_fst.mp hnone).1
    rw [h.writeFlag] at hflag
    cases hflag
  rw [processNewLogs_halves config hinterval, getFeeBurned_of_some hfees]
  obtain ⟨total, htotal⟩ := hwrites fees .feeBurned p.database
  rw [htotal]
  simp only [Option.map_some]
  rw [getExitFarmLogs_of_some hpenalties]
  obtain ⟨total', htotal'⟩ := hwrites _ .penaltyBurned
    (writeRecords config s fees .feeBurned p.database).2
  rw [htotal']
  simp only [Option.map_some]
  rw [setTimestamp, if_pos h.cacheSet]

/-- A run that is not turned away leaves the processor idle again. -/
theorem handleNewLogs_idle (config : LogsConfig) (s : Surroundings)
    (hidle : p.isProcessing = false) :
    (handleNewLogs config p s).isProcessing = false ∧
      (handleNewLogs config p s).database =
        (processNewLogs config s { p with isProcessing := true }).database ∧
      (handleNewLogs config p s).lastLogProcessedTimestamp =
        (processNewLogs config s { p with isProcessing := true }).lastLogProcessedTimestamp := by
  have hrun : handleNewLogs config p s = p.fire.finish config s := by
    rw [handleNewLogs, if_neg (by rw [hidle]; exact Bool.false_ne_true)]
  have hfire : p.fire = { p with isProcessing := true } := by
    rw [LogsProcessor.fire, if_neg (by rw [hidle]; exact Bool.false_ne_true)]
  rw [hrun, hfire]
  exact ⟨rfl, rfl, rfl⟩

/-- What the runs leave for a second: what it was, if the queries find nothing
burned in it, and what they find if it is in one of the intervals or was
there already. -/
theorem handleAll_database (config : LogsConfig) (t : ℕ)
    (hruns : ∀ s ∈ runs, Succeeds history s) (hidle : p.isProcessing = false) :
    (burnedByQueries config history t = 0 →
      (handleAll config p runs).database (slotOf config .feeBurned t) =
        p.database (slotOf config .feeBurned t)) ∧
    (burnedByQueries config history t ≠ 0 →
      Covers config p runs t ∨ p.database (slotOf config .feeBurned t) =
          some (burnedByQueries config history t) →
      (handleAll config p runs).database (slotOf config .feeBurned t) =
        some (burnedByQueries config history t)) := by
  induction runs generalizing p with
  | nil =>
    refine ⟨fun _ => rfl, ?_⟩
    rintro _ (hnone | hthere)
    · exact hnone.elim
    · exact hthere
  | cons s runs ih =>
    have hs := hruns s (List.mem_cons_self ..)
    obtain ⟨hidle', hdatabase, -⟩ := handleNewLogs_idle config s hidle
    obtain ⟨hzero, hfee⟩ := ih (p := handleNewLogs config p s)
      (fun s' hs' => hruns s' (List.mem_cons_of_mem _ hs')) hidle'
    constructor
    · intro hnone
      refine (hzero hnone).trans ?_
      rw [hdatabase]
      exact database_of_not_covered hs fun _ => hnone
    · intro hsome hcovered
      refine hfee hsome ?_
      rcases hcovered with (⟨last, current, hinterval, ht⟩ | hlater) | hthere
      · rw [hdatabase]
        exact Or.inr (database_of_covered hs hinterval ht hsome)
      -- a later run may cover the second again, and then finds the same
      · exact Or.inl hlater
      · by_cases hin : ∃ last current, passInterval s p = some (last, current) ∧
            last ≤ t ∧ t ≤ current
        · obtain ⟨last, current, hinterval, ht⟩ := hin
          rw [hdatabase]
          exact Or.inr (database_of_covered hs hinterval ht hsome)
        · rw [hdatabase, ← hthere]
          exact Or.inr (database_of_not_covered hs fun hcov => (hin hcov).elim)

/-- A second of the intervals has in the table what the two queries find. -/
theorem feeBurned_eq (hruns : ∀ s ∈ runs, Succeeds history s) (hidle : p.isProcessing = false)
    (hcovers : Covers config p runs t) :
    (handleAll config p runs).database (slotOf config .feeBurned t) =
      if burnedByQueries config history t = 0 then p.database (slotOf config .feeBurned t)
      else some (burnedByQueries config history t) := by
  obtain ⟨hzero, hfee⟩ := handleAll_database config t hruns hidle
  split
  next hnone => exact hzero hnone
  next hsome => exact hfee hsome (Or.inl hcovers)

/-- The intervals leave nothing out: each starts at the end of the one before. -/
theorem covers_of_between (hruns : ∀ s ∈ runs, Succeeds history s) (hidle : p.isProcessing = false)
    {first final : ℕ} (hfirst : p.lastLogProcessedTimestamp = some first)
    (hfinal : (handleAll config p runs).lastLogProcessedTimestamp = some final)
    (hzero : first ≠ 0) (hlt : first < final) (ht : first ≤ t ∧ t ≤ final) :
    Covers config p runs t := by
  induction runs generalizing p first with
  | nil =>
    obtain rfl := Option.some.inj (hfirst.symm.trans hfinal)
    exact absurd hlt (lt_irrefl _)
  | cons s runs ih =>
    have hs := hruns s (List.mem_cons_self ..)
    have hruns' : ∀ s ∈ runs, Succeeds history s :=
      fun s' hs' => hruns s' (List.mem_cons_of_mem _ hs')
    obtain ⟨hidle', -, htimestamp⟩ := handleNewLogs_idle config s hidle
    obtain ⟨now, hnow⟩ := Option.ne_none_iff_exists'.mp hs.shardTimestamp
    have hinterval : processingInterval s oneMinute p = some (first, now.seconds - oneMinute) := by
      rw [processingInterval, hs.cacheGet, hnow]
      simp only [hfirst, if_neg hzero]
    by_cases hmoved : first = now.seconds - oneMinute
    · -- nothing to do, and the checkpoint is written back
      have hnone : passInterval s p = none := by
        rw [passInterval, hinterval]
        exact Option.filter_some_neg (by simpa using hmoved)
      refine Or.inr (ih hruns' hidle' ?_ hfinal hzero hlt ht)
      rw [htimestamp]
      rcases (processNewLogs_of_none (p := { p with isProcessing := true }) config hnone).2 with
        hkept | ⟨-, hnothing | hmissing | hmissing, -⟩
      · rw [hkept, hfirst]
      · rw [hs.cacheGet] at hnothing
        cases hnothing
      · exact absurd (hfirst.symm.trans hmissing) (by simp)
      · exact absurd (Option.some.inj (hfirst.symm.trans hmissing)) hzero
    · have hsome : passInterval s p = some (first, now.seconds - oneMinute) := by
        rw [passInterval, hinterval]
        exact Option.filter_some_pos (by simpa using hmoved)
      rcases Nat.lt_or_ge (now.seconds - oneMinute) t with hbefore | hreached
      · -- the second is in the interval of a later run
        have hlate := now.late
        refine Or.inr (ih hruns' hidle' ?_ hfinal ?_ (hbefore.trans_le ht.2)
          ⟨hbefore.le, ht.2⟩)
        · rw [htimestamp]
          exact timestamp_of_succeeds (p := { p with isProcessing := true }) hs hsome
        · unfold oneMinute
          omega
      · exact Or.inl ⟨_, _, hsome, ht.1, hreached⟩

/-- The two queries count a burn once, unless its log has swaps of both kinds. -/
theorem burnedByQueries_eq_iff : burnedByQueries config history t = burnedOnce config history t ↔
    ∀ log ∈ history, log.timestamp = t → log.has "swapTokensFixedInput" →
      log.has "swapTokensFixedOutput" → log.burned config = 0 := by
  have hmany : ∀ log, 1 < matching swapQueries log ↔
      log.has "swapTokensFixedInput" ∧ log.has "swapTokensFixedOutput" := by
    intro log
    unfold matching swapQueries
    cases hinput : log.has "swapTokensFixedInput" <;>
      cases houtput : log.has "swapTokensFixedOutput" <;> simp [hinput, houtput]
  refine sum_visits_eq_iff.trans ?_
  unfold logsAt
  simp only [List.mem_filter, decide_eq_true_eq, hmany]
  exact ⟨fun h log hlog ht hin hout => h log ⟨hlog, ht⟩ ⟨hin, hout⟩,
    fun h log hlog hboth => h log hlog.1 hlog.2 hboth.1 hboth.2⟩

/-- What a query finds is counted once at least. -/
theorem burnedOnce_le (config : LogsConfig) (history : List TransactionLogs) (t : ℕ) :
    burnedOnce config history t ≤ burnedByQueries config history t := by
  rw [burnedByQueries, sum_visits, burnedOnce, sum_map_filter]
  refine List.sum_le_sum fun log _ => ?_
  split
  next hpos => exact Nat.le_mul_of_pos_left _ (by simpa using hpos)
  next => exact Nat.zero_le _

/-- The queries find something burned only where something was. -/
theorem burnedByQueries_eq_zero (h : burnedOnce config history t = 0) :
    burnedByQueries config history t = 0 := by
  rw [← h, burnedByQueries_eq_iff]
  intro log hlog ht hinput _
  have hmatched : log ∈ (logsAt history t).filter fun log => 0 < matching swapQueries log := by
    unfold logsAt matching swapQueries
    simp [hlog, ht, hinput]
  exact List.sum_eq_zero_iff.mp h _ (List.mem_map_of_mem hmatched)

/-- **Each burn once.** After runs that succeed, started from any checkpoint
and any table, a second of their intervals has in the table what was burned
in its swaps (or what it had, if nothing was) exactly if no log of that second
with swaps of both kinds burned MEX. -/
theorem feeBurned_once_iff (hruns : ∀ s ∈ runs, Succeeds history s)
    (hidle : p.isProcessing = false) (hcovers : Covers config p runs t) :
    (handleAll config p runs).database (slotOf config .feeBurned t) =
        (if burnedOnce config history t = 0 then p.database (slotOf config .feeBurned t)
          else some (burnedOnce config history t)) ↔
      ∀ log ∈ history, log.timestamp = t → log.has "swapTokensFixedInput" →
        log.has "swapTokensFixedOutput" → log.burned config = 0 := by
  rw [feeBurned_eq hruns hidle hcovers, ← burnedByQueries_eq_iff]
  by_cases honce : burnedOnce config history t = 0
  · rw [if_pos honce, if_pos (burnedByQueries_eq_zero honce), burnedByQueries_eq_zero honce, honce]
    exact iff_of_true rfl rfl
  · have hle := burnedOnce_le config history t
    rw [if_neg honce, if_neg (by omega), Option.some_inj]

end Runs

/-! ## A minute with one log -/

private def swapConfig : LogsConfig where
  MEX_TOKEN_ID := "MEX-fee"
  farmVersion := fun _ => none

/-- The index of a history, in its order. -/
def indexOf (history : List TransactionLogs) : ElasticService where
  getList := fun eventName gte lte => some <|
    history.filter fun log => log.has eventName ∧ gte ≤ log.timestamp ∧ log.timestamp ≤ lte
  inRange := by
    intro eventName gte lte logs h log hlog
    rw [← Option.some.inj h] at hlog
    exact (of_decide_eq_true (List.mem_filter.mp hlog).2).2

/-- An index that answers with what was logged keeps its promise. -/
theorem holds_indexOf (history : List TransactionLogs) : (indexOf history).Holds history :=
  fun _ _ _ => ⟨_, rfl, List.Perm.refl _⟩

private def goodMinute (history : List TransactionLogs) (now : ShardTimestamp) :
    Surroundings where
  cacheGet := .entry
  shardTimestamp := some now
  elastic := indexOf history
  writeFlag := some true
  save := fun _ => .saved
  cacheSet := true

/-- In a minute without failures everything is written. -/
private theorem succeeds_goodMinute (history : List TransactionLogs) (now : ShardTimestamp) :
    Succeeds history (goodMinute history now) where
  cacheGet := rfl
  shardTimestamp := by simp [goodMinute]
  holds := holds_indexOf history
  writeFlag := rfl
  save := fun _ => rfl
  cacheSet := rfl

private def processor100 : LogsProcessor where
  isProcessing := false
  feeMap := []
  penaltyMap := []
  lastLogProcessedTimestamp := some 100
  database := fun _ => none

private def at221 : ShardTimestamp := ⟨221, by omega⟩

private def at290 : ShardTimestamp := ⟨290, by omega⟩

/-- Swaps of one kind each, two of them in the same second. Second 161 is the
end of the first interval and the start of the next. -/
private def oneKind : List TransactionLogs :=
  [{ timestamp := 130
     events := [.other "swapTokensFixedInput", .esdtLocalBurn "MEX-fee" 5] },
    { timestamp := 130
      events := [.other "swapTokensFixedOutput", .esdtLocalBurn "MEX-fee" 3,
        .esdtLocalBurn "WEGLD-fee" 8] },
    { timestamp := 161
      events := [.other "swapTokensFixedInput", .esdtLocalBurn "MEX-fee" 4] }]

/-- Two swaps of one transaction, the first of which burned 5 MEX. -/
private def bothKinds : List TransactionLogs :=
  [{ timestamp := 130
     events := [.other "swapTokensFixedInput", .esdtLocalBurn "MEX-fee" 5,
       .other "swapTokensFixedOutput"] }]

/-- No log is found by both queries, so what is stored in two runs is what was
burned. -/
theorem feeBurned_once_one_kind :
    (handleAll swapConfig processor100
          [goodMinute oneKind at221, goodMinute oneKind at290]).database
        (slotOf swapConfig .feeBurned 130) =
      if burnedOnce swapConfig oneKind 130 = 0 then none
      else some (burnedOnce swapConfig oneKind 130) := by
  have hruns : ∀ s ∈ [goodMinute oneKind at221, goodMinute oneKind at290], Succeeds oneKind s := by
    intro s hs
    rcases List.mem_cons.mp hs with rfl | hs'
    · exact succeeds_goodMinute oneKind at221
    · rw [List.mem_singleton.mp hs']
      exact succeeds_goodMinute oneKind at290
  refine (feeBurned_once_iff hruns rfl (Or.inl ⟨100, 161, rfl, by decide, by decide⟩)).mpr ?_
  decide

/-- Of the two swaps 10 MEX are stored. -/
theorem burned_fee_twice :
    (∀ s ∈ [goodMinute bothKinds at221], Succeeds bothKinds s) ∧
      Covers swapConfig processor100 [goodMinute bothKinds at221] 130 ∧
      burnedOnce swapConfig bothKinds 130 = 5 ∧
      (handleAll swapConfig processor100 [goodMinute bothKinds at221]).database
        (slotOf swapConfig .feeBurned 130) = some 10 := by
  refine ⟨?_, Or.inl ⟨100, 161, rfl, by decide, by decide⟩, by decide, by decide⟩
  intro s hs
  rw [List.mem_singleton.mp hs]
  exact succeeds_goodMinute bothKinds at221

end MxExchange.Analytics
