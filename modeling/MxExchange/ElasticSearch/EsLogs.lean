import MxExchange.Collections.JsMap
import MxExchange.Collections.Visits
import MxExchange.Pair.PairUtils

/-!
# `es.logs.service.ts`: how often a token is swapped

`getTokenSwapsCount` scrolls through the logs of an interval twice, once for
each kind of swap event, and does the same with both: of every log on a page
it takes all swap events of the given pairs, of either kind. The events of a
log that has both kinds are taken twice. Each event then counts for its first
and for its second token, also if that is the same token.

`getTokenSwapsCount_eq_iff` says when the count of a token is the number of
events that touch it.
-/

namespace MxExchange.ElasticSearch

open MxExchange.Collections MxExchange.Pair

/-- The tokens in the topics of a swap. -/
structure SwapEventTopics where
  firstTokenID : TokenID
  secondTokenID : TokenID

/-- An event, with the topics it has if it is one of a swap. -/
structure Event where
  address : Address
  identifier : String
  topics : SwapEventTopics

/-- A log as the index has it. -/
structure TransactionLogs where
  timestamp : ℕ
  events : List Event

/-- What `getScrollableList` hands to its action, page by page, for an
event's name and an interval with both ends. The two scrolls of a count run
at the same time, and `interleave` is the order in which their pages arrive. -/
structure ElasticService where
  getScrollableList : String → ℕ → ℕ → List (List TransactionLogs)
  interleave : List (List TransactionLogs) → List (List TransactionLogs) →
    List (List TransactionLogs)

def TransactionLogs.has (eventName : String) (log : TransactionLogs) : Bool :=
  log.events.any fun event => event.identifier = eventName

/-- The index answers with its logs, on whatever pages, and no page is lost. -/
structure ElasticService.Holds (elastic : ElasticService) (index : List TransactionLogs) :
    Prop where
  pages : ∀ eventName gte lte, (elastic.getScrollableList eventName gte lte).flatten.Perm
    (index.filter fun log => log.has eventName ∧ gte ≤ log.timestamp ∧ log.timestamp ≤ lte)
  interleave : ∀ pages pages', (elastic.interleave pages pages').Perm (pages ++ pages')

/-! ## The count -/

/-- The swaps of a log that are of one of the pairs. -/
def processSwapEvents (events : List Event) (pairAddresses : List Address) : List Event :=
  events.filter fun event =>
    pairAddresses.contains event.address &&
      (event.identifier = "swapTokensFixedInput" || event.identifier = "swapTokensFixedOutput")

/-- `has`, then `get` and `set` with one more, or `set` with one. -/
def countToken (tokensSwapCountMap : JsMap TokenID ℕ) (tokenID : TokenID) : JsMap TokenID ℕ :=
  match JsMap.get tokensSwapCountMap tokenID with
  | some currentCount => JsMap.set tokensSwapCountMap tokenID (currentCount + 1)
  | none => JsMap.set tokensSwapCountMap tokenID 1

/-- A swap counts for both its tokens. -/
def countEvent (tokensSwapCountMap : JsMap TokenID ℕ) (swapEvent : Event) : JsMap TokenID ℕ :=
  countToken (countToken tokensSwapCountMap swapEvent.topics.firstTokenID)
    swapEvent.topics.secondTokenID

/-- The count over both kinds of swaps, page by page. -/
def getTokenSwapsCount (elastic : ElasticService) (startTimestamp endTimestamp : ℕ)
    (pairAddresses : List Address) : JsMap TokenID ℕ :=
  let pages := elastic.interleave
    (elastic.getScrollableList "swapTokensFixedInput" startTimestamp endTimestamp)
    (elastic.getScrollableList "swapTokensFixedOutput" startTimestamp endTimestamp)
  let swapEvents := pages.flatMap fun items =>
    items.flatMap fun transactionLogs => processSwapEvents transactionLogs.events pairAddresses
  swapEvents.foldl countEvent []

/-- The count of a token; one that is not in the map was not swapped. -/
def countOf (tokensSwapCountMap : JsMap TokenID ℕ) (tokenID : TokenID) : ℕ :=
  (JsMap.get tokensSwapCountMap tokenID).getD 0

/-! ## What is counted -/

section Count

variable {elastic : ElasticService} {index : List TransactionLogs} {startTimestamp endTimestamp : ℕ}
  {pairAddresses : List Address} {tokenID : TokenID} {map : JsMap TokenID ℕ}

/-- How often an event counts for a token. -/
def Event.mentions (event : Event) (tokenID : TokenID) : ℕ :=
  (if event.topics.firstTokenID = tokenID then 1 else 0) +
    if event.topics.secondTokenID = tokenID then 1 else 0

/-- The event touches the token. -/
def Event.touches (tokenID : TokenID) (event : Event) : Bool :=
  event.topics.firstTokenID = tokenID ∨ event.topics.secondTokenID = tokenID

/-- What a log counts for a token each time it is looked at. -/
def TransactionLogs.mentions (pairAddresses : List Address) (tokenID : TokenID)
    (log : TransactionLogs) : ℕ :=
  ((processSwapEvents log.events pairAddresses).map fun event => event.mentions tokenID).sum

/-- The swap events of the pairs in a log that touch a token. -/
def TransactionLogs.swapsOf (pairAddresses : List Address) (tokenID : TokenID)
    (log : TransactionLogs) : List Event :=
  (processSwapEvents log.events pairAddresses).filter (Event.touches tokenID)

/-- The logs of the interval. -/
def logsBetween (index : List TransactionLogs) (startTimestamp endTimestamp : ℕ) :
    List TransactionLogs :=
  index.filter fun log => startTimestamp ≤ log.timestamp ∧ log.timestamp ≤ endTimestamp

/-- The swap events of the pairs in the interval that touch a token. -/
def swapsOf (index : List TransactionLogs) (startTimestamp endTimestamp : ℕ)
    (pairAddresses : List Address) (tokenID : TokenID) : List Event :=
  (logsBetween index startTimestamp endTimestamp).flatMap
    (TransactionLogs.swapsOf pairAddresses tokenID)

/-- The two queries of a count. -/
def swapQueries : List (TransactionLogs → Bool) :=
  [TransactionLogs.has "swapTokensFixedInput", TransactionLogs.has "swapTokensFixedOutput"]

/-- A token is counted once more. -/
theorem countOf_countToken (map : JsMap TokenID ℕ) (tokenID tokenID' : TokenID) :
    countOf (countToken map tokenID') tokenID =
      countOf map tokenID + if tokenID' = tokenID then 1 else 0 := by
  have hset : ∀ v, v = countOf map tokenID' + 1 → countOf (JsMap.set map tokenID' v) tokenID =
      countOf map tokenID + if tokenID' = tokenID then 1 else 0 := by
    rintro v rfl
    unfold countOf
    rw [JsMap.get_set]
    by_cases heq : tokenID = tokenID'
    · rw [if_pos heq, if_pos heq.symm, heq, Option.getD_some]
    · have hne : ¬tokenID' = tokenID := fun h => heq h.symm
      rw [if_neg heq, if_neg hne, Nat.add_zero]
  unfold countToken
  split
  next currentCount hget => exact hset _ (by rw [countOf, hget, Option.getD_some])
  next hget => exact hset _ (by rw [countOf, hget, Option.getD_none])

/-- Each event counts for the tokens it mentions. -/
theorem countOf_foldl (events : List Event) :
    countOf (events.foldl countEvent map) tokenID =
      countOf map tokenID + (events.map fun event => event.mentions tokenID).sum := by
  induction events generalizing map with
  | nil => simp
  | cons event events ih =>
    rw [List.foldl_cons, ih, List.map_cons, List.sum_cons, countEvent, countOf_countToken,
      countOf_countToken, Event.mentions]
    omega

theorem sum_mentions_flatMap (logs : List TransactionLogs) :
    ((logs.flatMap fun log => processSwapEvents log.events pairAddresses).map
        fun event => event.mentions tokenID).sum =
      (logs.map (TransactionLogs.mentions pairAddresses tokenID)).sum := by
  induction logs with
  | nil => rfl
  | cons log logs ih =>
    rw [List.flatMap_cons, List.map_append, List.sum_append, ih, List.map_cons, List.sum_cons]
    rfl

/-- **The count.** A log counts once for every query that returns it. -/
theorem countOf_getTokenSwapsCount (h : elastic.Holds index) :
    countOf (getTokenSwapsCount elastic startTimestamp endTimestamp pairAddresses) tokenID =
      ((logsBetween index startTimestamp endTimestamp).map fun log =>
        matching swapQueries log * log.mentions pairAddresses tokenID).sum := by
  rw [getTokenSwapsCount, countOf_foldl, ← sum_visits]
  have hperm : (elastic.interleave
      (elastic.getScrollableList "swapTokensFixedInput" startTimestamp endTimestamp)
      (elastic.getScrollableList "swapTokensFixedOutput" startTimestamp endTimestamp)).flatten.Perm
        (visits swapQueries (logsBetween index startTimestamp endTimestamp)) := by
    refine (h.interleave _ _).flatten.trans ?_
    rw [List.flatten_append]
    refine ((h.pages _ _ _).append (h.pages _ _ _)).trans (List.Perm.of_eq ?_)
    unfold visits swapQueries logsBetween
    simp only [List.flatMap_cons, List.flatMap_nil, List.append_nil, List.filter_filter,
      Bool.decide_and, Bool.decide_eq_true]
  have hpages : ∀ pages : List (List TransactionLogs),
      (pages.flatMap fun items => items.flatMap fun log =>
        processSwapEvents log.events pairAddresses) =
      pages.flatten.flatMap fun log => processSwapEvents log.events pairAddresses := by
    intro pages
    rw [← List.flatMap_id, List.flatMap_assoc]
    rfl
  rw [hpages, sum_mentions_flatMap, (hperm.map _).sum_eq]
  exact Nat.zero_add _

/-- Looked at once, a log counts at least the swaps that touch the token, and
more if one of them has it on both sides. -/
theorem length_swapsOf_le (pairAddresses : List Address) (tokenID : TokenID)
    (log : TransactionLogs) :
    (log.swapsOf pairAddresses tokenID).length ≤ log.mentions pairAddresses tokenID ∧
      (log.mentions pairAddresses tokenID = (log.swapsOf pairAddresses tokenID).length ↔
        ∀ event ∈ log.swapsOf pairAddresses tokenID,
          event.topics.firstTokenID ≠ event.topics.secondTokenID) := by
  have hlength : (log.swapsOf pairAddresses tokenID).length =
      ((processSwapEvents log.events pairAddresses).map fun event =>
        if event.touches tokenID then 1 else 0).sum := by
    rw [← sum_map_filter]
    simp [TransactionLogs.swapsOf]
  -- an event is counted for either token, so twice if both are the token
  have hle : ∀ event : Event, (if event.touches tokenID then 1 else 0) ≤
      event.mentions tokenID := by
    intro event
    unfold Event.touches Event.mentions
    split
    next htouches =>
      rcases of_decide_eq_true htouches with hfirst | hsecond
      · rw [if_pos hfirst]
        omega
      · rw [if_pos hsecond]
        omega
    next => omega
  refine ⟨?_, ?_⟩
  · rw [hlength]
    exact List.sum_le_sum fun event _ => hle event
  · rw [hlength, TransactionLogs.mentions, sum_map_eq_iff_of_le fun event _ => hle event]
    unfold TransactionLogs.swapsOf
    simp only [List.mem_filter, and_imp]
    refine forall₂_congr fun event _ => ?_
    unfold Event.touches Event.mentions
    by_cases hfirst : event.topics.firstTokenID = tokenID
    · by_cases hsecond : event.topics.secondTokenID = tokenID
      · simp [hfirst, hsecond]
      · have hne : tokenID ≠ event.topics.secondTokenID := fun h => hsecond h.symm
        simp [hfirst, hsecond, hne]
    · by_cases hsecond : event.topics.secondTokenID = tokenID
      · simp [hfirst, hsecond]
      · simp [hfirst, hsecond]

/-- A log with a swap that touches the token is returned by some query. -/
theorem matching_pos {log : TransactionLogs} (h : log.swapsOf pairAddresses tokenID ≠ []) :
    0 < matching swapQueries log := by
  obtain ⟨event, hevent⟩ := List.exists_mem_of_ne_nil _ h
  have hswap := (List.mem_filter.mp (List.mem_filter.mp hevent).1)
  simp only [Bool.and_eq_true, Bool.or_eq_true, decide_eq_true_eq] at hswap
  obtain ⟨hmem, -, hkind⟩ := hswap
  refine List.countP_pos_iff.mpr ?_
  rcases hkind with hinput | houtput
  · exact ⟨TransactionLogs.has "swapTokensFixedInput", by simp [swapQueries],
      List.any_eq_true.mpr ⟨event, hmem, by simpa using hinput⟩⟩
  · exact ⟨TransactionLogs.has "swapTokensFixedOutput", by simp [swapQueries],
      List.any_eq_true.mpr ⟨event, hmem, by simpa using houtput⟩⟩

/-- Both queries return a log, or not more than one of them does. -/
theorem matching_le_one_iff {log : TransactionLogs} : matching swapQueries log ≤ 1 ↔
    ¬(log.has "swapTokensFixedInput" ∧ log.has "swapTokensFixedOutput") := by
  unfold matching swapQueries
  cases hinput : log.has "swapTokensFixedInput" <;>
    cases houtput : log.has "swapTokensFixedOutput" <;> simp [hinput, houtput]

/-- **Every swap once.** The count of a token is the number of swap events of
the pairs in the interval that touch it exactly if no log with such an event
has swap events of both kinds, and no such event has the token on both sides. -/
theorem getTokenSwapsCount_eq_iff (h : elastic.Holds index) :
    countOf (getTokenSwapsCount elastic startTimestamp endTimestamp pairAddresses) tokenID =
        (swapsOf index startTimestamp endTimestamp pairAddresses tokenID).length ↔
      ∀ log ∈ logsBetween index startTimestamp endTimestamp,
        ∀ event ∈ log.swapsOf pairAddresses tokenID,
          ¬(log.has "swapTokensFixedInput" ∧ log.has "swapTokensFixedOutput") ∧
            event.topics.firstTokenID ≠ event.topics.secondTokenID := by
  have hlength : (swapsOf index startTimestamp endTimestamp pairAddresses tokenID).length =
      ((logsBetween index startTimestamp endTimestamp).map fun log =>
        (log.swapsOf pairAddresses tokenID).length).sum := by
    rw [swapsOf, List.length_flatMap]
  -- each log is counted once for each query it matches, and at least once
  have hle : ∀ log : TransactionLogs, (log.swapsOf pairAddresses tokenID).length ≤
      matching swapQueries log * log.mentions pairAddresses tokenID := by
    intro log
    by_cases hnil : log.swapsOf pairAddresses tokenID = []
    · simp [hnil]
    · exact (length_swapsOf_le _ _ log).1.trans (Nat.le_mul_of_pos_left _ (matching_pos hnil))
  -- both sums are over the logs, and the counts are no less term by term, so they agree
  -- only if each term does
  rw [countOf_getTokenSwapsCount h, hlength, sum_map_eq_iff_of_le fun log _ => hle log]
  refine forall₂_congr fun log _ => ?_
  obtain ⟨honce, hdistinct⟩ := length_swapsOf_le pairAddresses tokenID log
  by_cases hnil : log.swapsOf pairAddresses tokenID = []
  · -- nothing to count
    have hzero : log.mentions pairAddresses tokenID = 0 := by
      rw [hdistinct.mpr (by simp [hnil]), hnil, List.length_nil]
    simp [hnil, hzero]
  · have hpos := matching_pos hnil
    have hlengthPos := List.length_pos_iff.mpr hnil
    constructor
    · intro heq event hevent
      have hmatching : matching swapQueries log ≤ 1 := by
        by_contra hmany
        have htwice : 2 * log.mentions pairAddresses tokenID ≤
            matching swapQueries log * log.mentions pairAddresses tokenID :=
          Nat.mul_le_mul_right _ (by omega)
        omega
      have hone : matching swapQueries log = 1 := by omega
      rw [hone, Nat.one_mul] at heq
      exact ⟨matching_le_one_iff.mp hmatching, hdistinct.mp heq event hevent⟩
    · intro hall
      obtain ⟨event, hevent⟩ := List.exists_mem_of_ne_nil _ hnil
      have hmatching := matching_le_one_iff.mpr (hall event hevent).1
      have hone : matching swapQueries log = 1 := by omega
      rw [hone, Nat.one_mul]
      exact hdistinct.mpr fun event hevent => (hall event hevent).2

end Count

/-! ## Swaps along routes -/

private def swapEvent (identifier : String) (firstTokenID secondTokenID : TokenID) : Event where
  address := "erd1pair"
  identifier := identifier
  topics :=
    { firstTokenID := firstTokenID
      secondTokenID := secondTokenID }

/-- An index that answers with a log on each page, the second scroll first. -/
private def inPages (index : List TransactionLogs) : ElasticService where
  getScrollableList := fun eventName gte lte =>
    (index.filter fun log => log.has eventName ∧ gte ≤ log.timestamp ∧ log.timestamp ≤ lte).map
      fun log => [log]
  interleave := fun pages pages' => pages' ++ pages

private theorem holds_inPages (index : List TransactionLogs) : (inPages index).Holds index where
  pages := fun _ _ _ => by
    show (List.map _ _).flatten.Perm _
    rw [← List.flatMap_def, List.flatMap_singleton']
  interleave := fun _ _ => List.perm_append_comm

/-- WEGLD is swapped over two pairs, and then bought; the third log has swaps of both
kinds, but none with WEGLD, and the fourth is of the next day. -/
private def dayLogs : List TransactionLogs :=
  [{ timestamp := 50
     events :=
      [swapEvent "swapTokensFixedInput" "WEGLD-bd4d79" "USDC-c76f1f",
       swapEvent "swapTokensFixedInput" "USDC-c76f1f" "MEX-455c57"] },
   { timestamp := 60
     events := [swapEvent "swapTokensFixedOutput" "MEX-455c57" "WEGLD-bd4d79"] },
   { timestamp := 70
     events :=
      [swapEvent "swapTokensFixedInput" "USDC-c76f1f" "MEX-455c57",
       swapEvent "swapTokensFixedOutput" "MEX-455c57" "USDC-c76f1f"] },
   { timestamp := 150
     events := [swapEvent "swapTokensFixedInput" "WEGLD-bd4d79" "USDC-c76f1f"] }]

/-- A swap of each kind, as a route over two pairs has them. -/
private def routeLog : TransactionLogs where
  timestamp := 50
  events :=
    [swapEvent "swapTokensFixedInput" "WEGLD-bd4d79" "USDC-c76f1f",
     swapEvent "swapTokensFixedOutput" "USDC-c76f1f" "MEX-455c57"]

theorem getTokenSwapsCount_two_swaps :
    countOf (getTokenSwapsCount (inPages dayLogs) 0 100 ["erd1pair"]) "WEGLD-bd4d79" =
        (swapsOf dayLogs 0 100 ["erd1pair"] "WEGLD-bd4d79").length ∧
      (swapsOf dayLogs 0 100 ["erd1pair"] "WEGLD-bd4d79").length = 2 :=
  ⟨(getTokenSwapsCount_eq_iff (holds_inPages dayLogs)).mpr (by decide), by decide⟩

/-- Each of the two events counts twice. -/
theorem route_counted_twice : (inPages [routeLog]).Holds [routeLog] ∧
    countOf (getTokenSwapsCount (inPages [routeLog]) 0 100 ["erd1pair"]) "WEGLD-bd4d79" = 2 ∧
      (swapsOf [routeLog] 0 100 ["erd1pair"] "WEGLD-bd4d79").length = 1 :=
  ⟨holds_inPages [routeLog], by decide, by decide⟩

end MxExchange.ElasticSearch
