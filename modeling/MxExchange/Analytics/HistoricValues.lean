import MxExchange.Analytics.PriceCandles
import MxExchange.Collections.Grouping
import Mathlib.Algebra.Ring.Rat
import Mathlib.Data.List.Sort

/-!
# `timescaledb.query.service.ts`: values by the day

Two more views keep a value for every day, series and key: the last value of the
day, for prices and locked values, and the sum of the day, for volumes and fees.
`getLatestCompleteValues` and `getSumCompleteValues` list the days of a window and
fill the days without a row.

A day is a row of the view by the moment it begins at, and the window is compared
with that moment. A window that begins in the middle of a day therefore lists the
day, but without its row. Of the sums that day is shown as nothing, so all that a
series had on its first day is missing from its history
(`getSumCompleteValues_total`). The closing values are looked up before the window
where it has been given a start, and then a day shows the last value so far in every
window; without a start nothing from before the first whole day is seen
(`getLatestCompleteValues_eq`).

Times are seconds, and the views are up to date.
-/

namespace MxExchange.Analytics.HistoricValues

open MxExchange.Collections MxExchange.Text MxExchange.Analytics.PriceCandles

/-! ## The views -/

abbrev AnalyticsRow := PriceCandles.XExchangeAnalyticsEntity

/-- What the views group by. -/
structure Slot where
  time : ℤ
  series : String
  key : String
  deriving DecidableEq

/-- The key of a row in a view: its bucket, series and key. -/
def slot (B : Bucketing) (row : AnalyticsRow) : Slot :=
  ⟨B.start row.timestamp, row.series, row.key⟩

/-- `last(value, timestamp)` -/
def lastValue (rows : List AnalyticsRow) : Option ℚ :=
  last (fun row => row.timestamp) (fun row => row.value) rows

/-- `sum(value)` -/
def sumValue (rows : List AnalyticsRow) : ℚ := sumOf (fun row => row.value) rows

/-- The measures of which the last value counts. -/
def isClosing (key : String) : Bool :=
  key ∈ ["priceUSD", "liquidityUSD", "lockedValueUSD", "totalLockedValueUSD"]

/-- The measures that add up. -/
def isSummed (key : String) : Bool := key = "feesUSD" ∨ key = "volumeUSD"

/-- The view of last values by the day. -/
def closeDaily (table : HyperDexAnalytics) : List (Slot × ℚ) :=
  groupBy (slot day) lastValue (table.rows.filter fun row => isClosing row.key)

/-- The view of sums by the day. -/
def sumDaily (table : HyperDexAnalytics) : List (Slot × ℚ) :=
  groupBy (slot day) (fun rows => some (sumValue rows))
    (table.rows.filter fun row => isSummed row.key)

/-- The view by the hour is made of rows of the last day. Which of them are older
than a day by now depends on when the hour was refreshed: `kept` says. -/
def sumHourly (table : HyperDexAnalytics) (kept : AnalyticsRow → Bool) :
    List (Slot × ℚ) :=
  groupBy (slot hour) (fun rows => some (sumValue rows))
    (table.rows.filter fun row => isSummed row.key && kept row)

/-! ## The queries -/

/-- `LIKE` -/
def like : List Char → List Char → Bool
  | [], text => text.isEmpty
  | '%' :: pattern, text => text.tails.any (like pattern)
  | '_' :: pattern, text =>
    match text with
    | [] => false
    | _ :: text => like pattern text
  | '\\' :: c :: pattern, text =>
    match text with
    | [] => false
    | d :: text => c = d && like pattern text
  | c :: pattern, text =>
    match text with
    | [] => false
    | d :: text => c = d && like pattern text

/-- A series is matched as a pattern if it has a `%` in it. -/
def seriesWhere (series rowSeries : String) : Bool :=
  if includes series.toList "%".toList then like series.toList rowSeries.toList
  else rowSeries = series

/-- The first row of a series. What is cached of it is left out: it does not change. -/
def getStartDate (table : HyperDexAnalytics) (series : String) : Option ℤ :=
  (earliest (fun row => row.timestamp)
    (table.rows.filter fun row => seriesWhere series row.series)).map (·.timestamp)

/-- A value at a time. -/
structure HistoricDataModel where
  timestamp : ℤ
  value : ℚ
  deriving DecidableEq

/-- What is asked of a query. -/
structure AnalyticsQueryArgs where
  series : String
  metric : String
  start : Option ℤ
  time : Option String

/-- `add(timeAmount, timeUnit)` and `subtract(timeAmount, timeUnit)`, for the moment
and the time. -/
structure Moment where
  add : ℤ → String → ℤ
  subtract : ℤ → String → ℤ
  subtract_day : ∀ now, subtract now "1 day" = now - 86400
  subtract_2days : ∀ now, subtract now "2 days" = now - 2 * 86400
  subtract_7days : ∀ now, subtract now "7 days" = now - 7 * 86400

/-- The span of a query, from the time before now or from the start, whichever
is later. -/
def computeTimeInterval (moment : Moment) (now : ℤ) (time : String) (start : Option ℤ) : ℤ × ℤ :=
  let startDate1 := moment.subtract now time
  let startDate :=
    match start with
    | some startDate2 => if startDate1 < startDate2 then startDate2 else startDate1
    | none => startDate1
  (startDate, now)

/-- The window that is asked for; without a time and a start it begins with the
series, if there is one. -/
def window (moment : Moment) (table : HyperDexAnalytics) (now : ℤ) (args : AnalyticsQueryArgs) :
    Option (ℤ × ℤ) :=
  match args.time, args.start with
  | some time, start => some (computeTimeInterval moment now time start)
  | none, some start => some (start, now)
  | none, none => (getStartDate table args.series).map fun startDate => (startDate, now)

/-- The rows of a view with `time between :startDate and :endDate`, by the buckets
of `time_bucket_gapfill`. -/
def gapfill (B : Bucketing) (view : List (Slot × ℚ)) (startDate endDate : ℤ) :
    List (ℤ × List (Slot × ℚ)) :=
  (B.buckets startDate endDate).map fun bucket =>
    (bucket, (view.filter fun row => startDate ≤ row.1.time ∧ row.1.time ≤ endDate).filter
      fun row => B.start row.1.time = bucket)

/-- `last(last, time)` -/
def lastOf (rows : List (Slot × ℚ)) : Option ℚ := last (fun row => row.1.time) Prod.snd rows

/-- The last values of each day, the days without one filled. -/
def getLatestCompleteValues (moment : Moment) (table : HyperDexAnalytics) (now : ℤ)
    (args : AnalyticsQueryArgs) : List HistoricDataModel :=
  match window moment table now args with
  | none => []
  | some (startDate, endDate) =>
    let closes := (closeDaily table).filter fun row =>
      row.1.series = args.series ∧ row.1.key = args.metric
    let query := gapfill day closes startDate endDate
    -- the lookup is part of the query only if there is a start
    let previousValue :=
      if args.start.isSome then lastOf (closes.filter fun row => row.1.time < startDate) else none
    ((query.map Prod.fst).zip (carryForward previousValue (query.map fun row => lastOf row.2))).map
      fun row => ⟨row.1, row.2.getD 0⟩

/-- The days or hours with their sums, zero where there is no row. -/
def sumsOf (query : List (ℤ × List (Slot × ℚ))) : List HistoricDataModel :=
  query.map fun row => ⟨row.1, sumOf Prod.snd row.2⟩

/-- The sums of each day since the series began. -/
def getSumCompleteValues (table : HyperDexAnalytics) (now : ℤ) (series metric : String) :
    List HistoricDataModel :=
  match getStartDate table series with
  | none => []
  | some startDate =>
    sumsOf (gapfill day ((sumDaily table).filter fun row =>
      seriesWhere series row.1.series ∧ row.1.key = metric) startDate now)

/-- The sums of each hour of the last days. -/
def getHourlySumValues (moment : Moment) (table : HyperDexAnalytics)
    (kept : AnalyticsRow → Bool) (now : ℤ) (args : AnalyticsQueryArgs) :
    List HistoricDataModel :=
  match window moment table now args with
  | none => []
  | some (startDate, endDate) =>
    sumsOf (gapfill hour ((sumHourly table kept).filter fun row =>
      seriesWhere args.series row.1.series ∧ row.1.key = args.metric) startDate endDate)

/-- `AnalyticsAWSGetterService.getLatestCompleteValues`, on what is cached. -/
def awsLatestCompleteValues (moment : Moment) (cachedData : Option (List HistoricDataModel))
    (start : Option ℤ) (time : Option String) : List HistoricDataModel :=
  match cachedData with
  | none => []
  | some data =>
    match start with
    | none => data
    | some start =>
      let data := data.filter fun historicData => start ≤ historicData.timestamp
      match time with
      | none => data
      | some time => data.filter fun historicData => historicData.timestamp ≤ moment.add start time

/-- What the warmer of the cache asks for a series and a metric. -/
def updatedLatestCompleteValues (moment : Moment) (table : HyperDexAnalytics) (now : ℤ)
    (series metric : String) : List HistoricDataModel :=
  getLatestCompleteValues moment table now
    { series := series
      metric := metric
      start := none
      time := none }

/-! ## Sums -/

section Sums

variable {B C : Bucketing} {rows : List AnalyticsRow}

/-- The rows of a series, or of all series of a pattern, that are summed up. -/
def summed (table : HyperDexAnalytics) (series metric : String) : List AnalyticsRow :=
  table.rows.filter fun row =>
    isSummed row.key && (seriesWhere series row.series && decide (row.key = metric))

/-- What a bucket shows is the sum of the rows in it that the window reaches. -/
theorem sumsOf_gapfill (hCB : C.Coarsens B) (asked : Slot → Bool) (startDate endDate : ℤ) :
    sumsOf (gapfill C ((groupBy (slot B) (fun rows => some (sumValue rows)) rows).filter
        fun row => asked row.1) startDate endDate) =
      (C.buckets startDate endDate).map fun bucket =>
        ⟨bucket, sumValue ((rows.filter fun row => asked (slot B row)).filter fun row =>
          (startDate ≤ B.start row.timestamp ∧ B.start row.timestamp ≤ endDate) ∧
            C.start row.timestamp = bucket)⟩ := by
  unfold sumsOf gapfill
  rw [List.map_map]
  apply List.map_congr_left
  intro bucket _
  have hsum := sumOf_groupBy (fun row : AnalyticsRow => row.value) (slot B)
    (fun s => decide (C.start s.time = bucket) &&
      (decide (startDate ≤ s.time ∧ s.time ≤ endDate) && asked s)) rows
  simp only [Function.comp_apply, List.filter_filter, HistoricDataModel.mk.injEq, true_and]
  refine hsum.trans ?_
  unfold sumValue
  congr 1
  apply List.filter_congr
  intro row _
  show (decide (C.start (B.start row.timestamp) = bucket) &&
    (decide (startDate ≤ B.start row.timestamp ∧ B.start row.timestamp ≤ endDate) &&
      asked (slot B row))) = _
  rw [hCB, ← Bool.and_assoc, Bool.and_comm (decide (C.start row.timestamp = bucket)),
    ← Bool.decide_and]

/-- Every row that the window reaches is in one of its buckets. -/
theorem sumOf_buckets (rows : List AnalyticsRow) (hCB : C.Coarsens B)
    (startDate endDate : ℤ) (asked : ℤ → Bool) :
    sumOf (·.value) (((C.buckets startDate endDate).map fun bucket => HistoricDataModel.mk bucket
        (sumValue (rows.filter fun row =>
          (startDate ≤ B.start row.timestamp ∧ B.start row.timestamp ≤ endDate) ∧
            C.start row.timestamp = bucket))).filter fun item => asked item.timestamp) =
      sumValue (rows.filter fun row => asked (C.start row.timestamp) &&
        decide (startDate ≤ B.start row.timestamp ∧ B.start row.timestamp ≤ endDate)) := by
  have hmap : ∀ (value : ℤ → ℚ) (buckets : List ℤ),
      sumOf (·.value) ((buckets.map fun bucket => HistoricDataModel.mk bucket (value bucket)).filter
        fun item => asked item.timestamp) = sumOf value (buckets.filter asked) := by
    intro value buckets
    rw [List.filter_map]
    show sumOf _ ((buckets.filter asked).map _) = _
    induction buckets.filter asked with
    | nil => rfl
    | cons bucket buckets ih => rw [List.map_cons, sumOf_cons, sumOf_cons, ih]
  -- the buckets are distinct, so they group the rows of the window and the groups add
  -- up
  have hnodup : ((C.buckets startDate endDate).filter asked).Nodup :=
    ((Bucketing.pairwise_buckets startDate endDate).imp ne_of_lt).filter _
  have hgroups := sumOf_groups (fun row : AnalyticsRow => row.value)
    (fun row => C.start row.timestamp) hnodup (rows.filter fun row =>
      startDate ≤ B.start row.timestamp ∧ B.start row.timestamp ≤ endDate)
  rw [hmap]
  refine Eq.trans ?_ (hgroups.trans ?_)
  · congr 1
    funext bucket
    unfold sumValue
    rw [List.filter_filter]
    congr 1
    apply List.filter_congr
    intro row _
    rw [Bool.and_comm, ← Bool.decide_and]
  · unfold sumValue
    rw [List.filter_filter]
    congr 1
    apply List.filter_congr
    intro row _
    rw [Bool.eq_iff_iff, Bool.and_eq_true, Bool.and_eq_true, decide_eq_true_iff,
      decide_eq_true_iff, List.mem_filter, Bucketing.mem_buckets]
    constructor
    · exact fun h => ⟨h.1.2, h.2⟩
    · intro h
      refine ⟨⟨⟨⟨?_, ?_⟩, C.start_start _⟩, h.1⟩, h.2⟩
      · rw [← hCB row.timestamp]
        exact C.start_mono h.2.1
      · exact (Bucketing.start_le_start hCB _).trans h.2.2

variable {table : HyperDexAnalytics} {series metric : String} {startDate now : ℤ}

/-- No row of the series is earlier than the first. -/
theorem le_of_getStartDate (h : getStartDate table series = some startDate)
    {row : AnalyticsRow} (hrow : row ∈ summed table series metric) :
    startDate ≤ row.timestamp := by
  obtain ⟨hmem, hasked⟩ := List.mem_filter.mp hrow
  rw [Bool.and_eq_true, Bool.and_eq_true] at hasked
  have hseries : row ∈ table.rows.filter fun row => seriesWhere series row.series :=
    List.mem_filter.mpr ⟨hmem, hasked.2.1⟩
  obtain ⟨r, -, heq, hle⟩ := exists_earliest
    (fun row : AnalyticsRow => row.timestamp) (List.ne_nil_of_mem hseries)
  unfold getStartDate at h
  rw [heq, Option.map_some, Option.some.injEq] at h
  rw [← h]
  exact hle row hseries

/-- The rows of the view are the days with their sums. -/
theorem sumsOf_sumDaily (table : HyperDexAnalytics) (series metric : String) (startDate now : ℤ) :
    sumsOf (gapfill day ((sumDaily table).filter fun row =>
        seriesWhere series row.1.series ∧ row.1.key = metric) startDate now) =
      (day.buckets startDate now).map fun d => ⟨d, sumValue ((summed table series metric).filter
        fun row => (startDate ≤ day.start row.timestamp ∧ day.start row.timestamp ≤ now) ∧
          day.start row.timestamp = d)⟩ := by
  have hrows : ((table.rows.filter fun row => isSummed row.key).filter fun row =>
      decide (seriesWhere series (slot day row).series = true ∧ (slot day row).key = metric)) =
        summed table series metric := by
    rw [List.filter_filter]
    apply List.filter_congr
    intro row _
    rw [Bool.and_comm, Bool.decide_and, Bool.decide_eq_true]
    rfl
  rw [← hrows]
  exact sumsOf_gapfill (Bucketing.Coarsens.refl day)
    (fun s => decide (seriesWhere series s.series = true ∧ s.key = metric)) startDate now

/-- **Sums by the day.** Each day from the first row on shows the sum of its rows,
but the day the series begins in shows nothing unless it begins with it. What is
missing from the history is all the series had on that day. -/
theorem getSumCompleteValues_total (table : HyperDexAnalytics) (series metric : String)
    (startDate now : ℤ) (hstart : getStartDate table series = some startDate)
    (hnow : ∀ row ∈ table.rows, row.timestamp ≤ now) :
    (getSumCompleteValues table now series metric =
      (day.buckets startDate now).map fun d => ⟨d,
        if startDate ≤ d then
          sumValue ((summed table series metric).filter fun row => day.start row.timestamp = d)
        else 0⟩) ∧
    sumOf (·.value) (getSumCompleteValues table now series metric) +
        (if day.start startDate = startDate then 0 else
          sumValue ((summed table series metric).filter fun row =>
            day.start row.timestamp = day.start startDate)) =
      sumValue (summed table series metric) := by
  have hlist : getSumCompleteValues table now series metric = sumsOf (gapfill day
      ((sumDaily table).filter fun row => seriesWhere series row.1.series ∧ row.1.key = metric)
        startDate now) := by
    unfold getSumCompleteValues
    rw [hstart]
  have hfrom : ∀ row ∈ summed table series metric, startDate ≤ row.timestamp :=
    fun row hrow => le_of_getStartDate hstart hrow
  have hto : ∀ row ∈ summed table series metric, day.start row.timestamp ≤ now := by
    intro row hrow
    exact (day.start_le _).trans (hnow row (List.mem_of_mem_filter hrow))
  rw [hlist, sumsOf_sumDaily]
  refine ⟨?_, ?_⟩
  · apply List.map_congr_left
    intro d hd
    have hlast := (Bucketing.mem_buckets.mp hd).1.2
    congr 1
    split
    next hle =>
      congr 1
      apply List.filter_congr
      intro row _
      rw [decide_eq_decide]
      omega
    next hle =>
      rw [List.filter_eq_nil_iff.mpr]
      · rfl
      · intro row _ h
        rw [decide_eq_true_iff] at h
        omega
  · have hsum := sumOf_buckets (summed table series metric) (Bucketing.Coarsens.refl day)
      startDate now fun _ => true
    simp only [Bool.true_and, List.filter_true] at hsum
    rw [hsum]
    unfold sumValue
    rw [← sumOf_filter_add (fun row : AnalyticsRow => row.value)
      (fun row => decide (startDate ≤ day.start row.timestamp ∧ day.start row.timestamp ≤ now))
      (summed table series metric)]
    congr 1
    -- what the window does not reach is of the first day
    have hcut : ∀ row ∈ summed table series metric,
        day.start row.timestamp < startDate →
          day.start row.timestamp = day.start startDate := by
      intro row hrow hlt
      have hge := day.start_mono (hfrom row hrow)
      have hle := day.start_mono hlt.le
      rw [day.start_start] at hle
      omega
    split
    next haligned =>
      rw [List.filter_eq_nil_iff.mpr]
      · rfl
      · intro row hrow h
        rw [Bool.not_eq_true', decide_eq_false_iff_not] at h
        have hge := day.start_mono (hfrom row hrow)
        have := hto row hrow
        omega
    next haligned =>
      congr 1
      apply List.filter_congr
      intro row hrow
      rw [Bool.eq_iff_iff, Bool.not_eq_true', decide_eq_false_iff_not, decide_eq_true_iff]
      have hmem := hto row hrow
      have hlt : day.start startDate < startDate := lt_of_le_of_ne (day.start_le _) haligned
      have hcut := hcut row hrow
      omega

end Sums

/-! ## Closing values -/

section Closes

variable {table : HyperDexAnalytics}

/-- The rows of a series that the views of last values are made of. -/
def closes (table : HyperDexAnalytics) (series metric : String) : List AnalyticsRow :=
  table.rows.filter fun row => isClosing row.key && decide (row.series = series ∧ row.key = metric)

/-- No two closing rows of a series and a measure are of the same time. -/
theorem distinctTimes_closes (table : HyperDexAnalytics) (series metric : String) :
    DistinctTimes (fun row => row.timestamp) (closes table series metric) := by
  intro r hr s hs htime
  obtain ⟨hr, hr'⟩ := List.mem_filter.mp hr
  obtain ⟨hs, hs'⟩ := List.mem_filter.mp hs
  rw [Bool.and_eq_true, decide_eq_true_iff] at hr' hs'
  apply List.inj_on_of_nodup_map table.primaryKey hr hs
  rw [show r.timestamp = s.timestamp from htime, hr'.2.1, hr'.2.2, hs'.2.1, hs'.2.2]

/-- The last value of some days of the view is that of their rows. -/
theorem lastOf_closeDaily (table : HyperDexAnalytics) (series metric : String) (asked : ℤ → Bool) :
    lastOf (((closeDaily table).filter fun row =>
        row.1.series = series ∧ row.1.key = metric).filter fun row => asked row.1.time) =
      lastValue ((closes table series metric).filter fun row =>
        asked (day.start row.timestamp)) := by
  have hrows : ((table.rows.filter fun row => isClosing row.key).filter fun row =>
      asked (slot day row).time &&
        decide ((slot day row).series = series ∧ (slot day row).key = metric)) =
        (closes table series metric).filter fun row => asked (day.start row.timestamp) := by
    unfold closes
    rw [List.filter_filter, List.filter_filter]
    apply List.filter_congr
    intro row _
    rw [Bool.and_assoc, Bool.and_comm (isClosing row.key)]
    rfl
  have htimes := (distinctTimes_closes table series metric).filter
    fun row => asked (day.start row.timestamp)
  rw [List.filter_filter, ← hrows]
  rw [← hrows] at htimes
  refine last_groupBy (B := day) (fun s : Slot =>
    asked s.time && decide (s.series = series ∧ s.key = metric)) (fun row _ => rfl) ?_ htimes
  intro r _ s _ hr hs hbucket
  rw [Bool.and_eq_true, decide_eq_true_iff] at hr hs
  show Slot.mk (day.start r.timestamp) r.series r.key = ⟨day.start s.timestamp, s.series, s.key⟩
  rw [hbucket, show r.series = s.series from hr.2.1.trans hs.2.1.symm,
    show r.key = s.key from hr.2.2.trans hs.2.2.symm]

/-- **Closing values.** With a start each day of the window shows the last value so
far. Without one, only what the days of the window have is seen, and the first day is
one of them only if the window begins with it. -/
theorem getLatestCompleteValues_eq (moment : Moment) (table : HyperDexAnalytics) (now : ℤ)
    (args : AnalyticsQueryArgs) :
    getLatestCompleteValues moment table now args =
      match window moment table now args with
      | none => []
      | some (startDate, endDate) => (day.buckets startDate endDate).map fun d => ⟨d,
          (lastValue ((closes table args.series args.metric).filter fun row =>
            (args.start.isSome = true ∨ startDate ≤ day.start row.timestamp) ∧
              day.start row.timestamp ≤ d)).getD 0⟩ := by
  unfold getLatestCompleteValues
  split
  next => rfl
  next startDate endDate _ =>
    have hview := lastOf_closeDaily table args.series args.metric
    have hobserved : ((day.buckets startDate endDate).map fun d =>
        lastOf ((((closeDaily table).filter fun row =>
          row.1.series = args.series ∧ row.1.key = args.metric).filter fun row =>
            startDate ≤ row.1.time ∧ row.1.time ≤ endDate).filter
              fun row => day.start row.1.time = d)) =
        (day.buckets startDate endDate).map fun d =>
          lastValue ((closes table args.series args.metric).filter fun row =>
            (startDate ≤ day.start row.timestamp ∧ day.start row.timestamp ≤ endDate) ∧
              day.start row.timestamp = d) := by
      apply List.map_congr_left
      intro d _
      rw [List.filter_filter]
      refine (hview fun t => decide (day.start t = d) &&
        decide (startDate ≤ t ∧ t ≤ endDate)).trans ?_
      congr 1
      apply List.filter_congr
      intro row _
      rw [day.start_start, Bool.and_comm, ← Bool.decide_and]
    -- the value before the window is asked for only with a start
    have hprevious : lastOf (((closeDaily table).filter fun row =>
        row.1.series = args.series ∧ row.1.key = args.metric).filter fun row =>
          row.1.time < startDate) = lastValue ((closes table args.series args.metric).filter
            fun row => day.start row.timestamp < startDate) :=
      hview fun t => decide (t < startDate)
    have hcarry := carryForward_window (B := day) (Bucketing.Coarsens.refl day)
      (distinctTimes_closes table args.series args.metric) (fun row => row.value)
      startDate endDate (args.start.isSome = true)
    have hfst : ((day.buckets startDate endDate).map fun d => d) = day.buckets startDate endDate :=
      List.map_id' _
    unfold gapfill
    simp only [List.map_map, Function.comp_def]
    rw [hobserved, hprevious, hfst]
    refine (congrArg (fun values => ((day.buckets startDate endDate).zip values).map
      fun row => HistoricDataModel.mk row.1 (row.2.getD 0)) hcarry).trans ?_
    rw [← List.map_prod_left_eq_zip, List.map_map]
    apply List.map_congr_left
    intro d hd
    have hlast := (Bucketing.mem_buckets.mp hd).1.2
    show HistoricDataModel.mk d (Option.getD (lastValue _) 0) = _
    congr 3
    apply List.filter_congr
    intro row _
    -- a row up to the day is in the window, or is before it and is seen only with a
    -- start
    rw [decide_eq_decide]
    constructor
    · intro h
      refine ⟨?_, h.2⟩
      rcases h.1 with hin | hin
      · exact Or.inl hin.1
      · exact Or.inr hin.1
    · intro h
      refine ⟨?_, h.2⟩
      by_cases hin : startDate ≤ day.start row.timestamp
      · exact Or.inr ⟨hin, by omega⟩
      · exact Or.inl ⟨h.1.resolve_right hin, by omega⟩

/-- Two windows up to the same moment have the same buckets from a later moment on. -/
theorem filter_buckets (B : Bucketing) {lo lo' start : ℤ} (hlo : lo ≤ start) (hlo' : lo' ≤ start)
    (hi : ℤ) :
    (B.buckets lo hi).filter (fun b => decide (start ≤ b)) =
      (B.buckets lo' hi).filter fun b => decide (start ≤ b) := by
  have hsorted := fun lo : ℤ => (Bucketing.pairwise_buckets (B := B) lo hi).filter
    fun b => decide (start ≤ b)
  refine (hsorted lo).eq_of_mem_iff (hsorted lo') fun b => ?_
  have hle := B.start_le lo
  have hle' := B.start_le lo'
  rw [List.mem_filter, List.mem_filter, Bucketing.mem_buckets, Bucketing.mem_buckets,
    decide_eq_true_iff]
  omega

/-- **The kept history.** The history that is kept of a series has no start, and what
is asked for is cut out of it. From any start that comes after a value of a whole day,
that is what the query itself answers. -/
theorem awsLatestCompleteValues_eq (moment : Moment) (table : HyperDexAnalytics)
    (series metric : String) (now start startDate : ℤ)
    (hstartDate : getStartDate table series = some startDate)
    (hseen : ∃ row ∈ closes table series metric,
      startDate ≤ day.start row.timestamp ∧ day.start row.timestamp ≤ start) :
    awsLatestCompleteValues moment
        (some (updatedLatestCompleteValues moment table now series metric)) (some start) none =
      (getLatestCompleteValues moment table now
        { series := series
          metric := metric
          start := some start
          time := none }).filter fun historicData => start ≤ historicData.timestamp := by
  obtain ⟨row, hrow, hwhole, hbefore⟩ := hseen
  unfold awsLatestCompleteValues updatedLatestCompleteValues
  dsimp only
  rw [getLatestCompleteValues_eq, getLatestCompleteValues_eq]
  unfold window
  dsimp only
  rw [hstartDate]
  simp only [Option.map_some, List.filter_map, Function.comp_def]
  rw [filter_buckets day (hwhole.trans hbefore) (le_refl start)]
  apply List.map_congr_left
  intro d hd
  obtain ⟨-, hd⟩ := List.mem_filter.mp hd
  rw [decide_eq_true_iff] at hd
  congr 2
  simp only [Option.isSome_none, Option.isSome_some, true_or, true_and]
  -- the value of the whole day comes after all there was before
  have hvalues : ((closes table series metric).filter fun row =>
      startDate ≤ day.start row.timestamp ∧ day.start row.timestamp ≤ d) ≠ [] := by
    refine List.ne_nil_of_mem (List.mem_filter.mpr ⟨hrow, ?_⟩)
    rw [decide_eq_true_iff]
    exact ⟨hwhole, hbefore.trans hd⟩
  obtain ⟨v, hv⟩ : ∃ v, lastValue ((closes table series metric).filter fun row =>
      startDate ≤ day.start row.timestamp ∧ day.start row.timestamp ≤ d) = some v := by
    obtain ⟨r, -, heq, -⟩ := exists_latest
      (fun row : AnalyticsRow => row.timestamp) hvalues
    exact ⟨r.value, by unfold lastValue last; rw [heq, Option.map_some]⟩
  have hsplit : lastValue ((closes table series metric).filter fun row =>
      day.start row.timestamp ≤ d) = some v := by
    unfold lastValue
    rw [last_split day ((distinctTimes_closes table series metric).filter _) startDate,
      List.filter_filter]
    simp only [← Bool.decide_and]
    show (lastValue ((closes table series metric).filter fun row =>
      startDate ≤ day.start row.timestamp ∧ day.start row.timestamp ≤ d)).or _ = some v
    rw [hv, Option.some_or]
  show lastValue _ = lastValue _
  rw [hsplit, ← hv]
  congr 1
  apply List.filter_congr
  intro row _
  rw [decide_eq_decide]
  exact and_congr_left fun _ => or_iff_right Bool.false_ne_true

end Closes

/-! ## A series of two days -/

/-- A series that begins at one in the morning, with trades and prices of two days. -/
def twoDays : HyperDexAnalytics where
  rows :=
    [⟨3600, "WEGLD-bd4d79", "volumeUSD", 5⟩, ⟨3600, "WEGLD-bd4d79", "priceUSD", 41⟩,
      ⟨86460, "WEGLD-bd4d79", "volumeUSD", 7⟩, ⟨86460, "WEGLD-bd4d79", "priceUSD", 43⟩]
  primaryKey := by decide

/-- A calendar without changes of the clock. -/
def utc : Moment where
  add now time := if time = "1 day" then now + 86400 else now
  subtract now time :=
    if time = "1 day" then now - 86400
    else if time = "2 days" then now - 2 * 86400
    else if time = "7 days" then now - 7 * 86400
    else now
  subtract_day := by simp
  subtract_2days := by simp
  subtract_7days := by simp

/-- Of the 12 that were traded, the history shows 7. -/
theorem getSumCompleteValues_total_sample :
    sumOf (·.value) (getSumCompleteValues twoDays 90000 "WEGLD-bd4d79" "volumeUSD") + 5 = 12 := by
  have htotal := (getSumCompleteValues_total twoDays "WEGLD-bd4d79" "volumeUSD" 3600 90000
    (by decide) (by decide)).2
  have hfirst : (if day.start 3600 = 3600 then 0 else
      sumValue ((summed twoDays "WEGLD-bd4d79" "volumeUSD").filter fun row =>
        day.start row.timestamp = day.start 3600)) = 5 := by decide +kernel
  rw [hfirst] at htotal
  rw [htotal]
  decide +kernel

/-- From noon of the second day on, the kept history is what the query answers. -/
theorem awsLatestCompleteValues_eq_sample :
    awsLatestCompleteValues utc
        (some (updatedLatestCompleteValues utc twoDays 250000 "WEGLD-bd4d79" "priceUSD"))
        (some 129600) none =
      (getLatestCompleteValues utc twoDays 250000
        { series := "WEGLD-bd4d79"
          metric := "priceUSD"
          start := some 129600
          time := none }).filter fun historicData => 129600 ≤ historicData.timestamp :=
  awsLatestCompleteValues_eq utc twoDays "WEGLD-bd4d79" "priceUSD" 250000 129600 3600
    (by decide) (by decide)

end MxExchange.Analytics.HistoricValues
