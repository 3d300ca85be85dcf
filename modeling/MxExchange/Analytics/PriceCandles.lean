import MxExchange.Collections.Candles
import MxExchange.Text.Split
import Mathlib.Algebra.Order.Ring.Rat
import Mathlib.Data.List.Dedup

/-!
# `timescaledb.query.service.ts`: price candles

Prices are rows of `hyper_dex_analytics`. Three views keep their candles, each
computed from the view before: by the minute from the rows, by the hour from the
minutes, by the day from the hours. `getPriceCandles` takes the view that the
resolution names, sums it up once more by the buckets of the resolution, and fills
the buckets without prices in two ways: the database carries the bucket before
forward, and what is still missing at the front of the window is taken from the
last candle of the view before the window.

What comes out are the candles of the prices themselves (`getPriceCandles_eq`),
three or four summaries of summaries later. The two ways to fill agree with each
other only where the resolution is the view's own: then a bucket has the same
candle in every window. With a coarser resolution its low, high and open depend on
where the window begins, and only its close does not (`getPriceCandles_windows`).

Times are seconds, and the views are up to date. That a bucket without rows is a
row of missing values is how `time_bucket_gapfill` fills, also where no row is found
at all.
-/

namespace MxExchange.Analytics.PriceCandles

open MxExchange.Collections MxExchange.Text

/-! ## The table -/

/-- A row of the table. -/
structure XExchangeAnalyticsEntity where
  timestamp : ℤ
  series : String
  key : String
  value : ℚ

/-- `hyper_dex_analytics`, with its primary key. -/
structure HyperDexAnalytics where
  rows : List XExchangeAnalyticsEntity
  primaryKey : (rows.map fun row => (row.timestamp, row.series, row.key)).Nodup

/-- A row of a view of candles. -/
structure PriceCandle extends Candle ℚ where
  time : ℤ
  series : String
  key : String

/-- What a candle is made of. -/
structure Columns (ρ : Type) where
  time : ρ → ℤ
  series : ρ → String
  key : ρ → String
  candle : ρ → Candle ℚ

/-- A row of the table as a candle of one value. -/
def XExchangeAnalyticsEntity.columns : Columns XExchangeAnalyticsEntity where
  time := (·.timestamp)
  series := (·.series)
  key := (·.key)
  candle row := .ofValue row.value

/-- A row of a view is a candle already. -/
def PriceCandle.columns : Columns PriceCandle where
  time := (·.time)
  series := (·.series)
  key := (·.key)
  candle := (·.toCandle)

/-! ## Buckets of time -/

/-- `time_bucket` counts from Monday, the 3rd of January 2000. -/
def bucketOrigin : ℤ := 946857600

/-- Buckets of so many minutes. -/
def minutes (n : ℕ) (hn : 0 < n) : Bucketing := .ofWidth (60 * n) bucketOrigin (by omega)

def hours (n : ℕ) (hn : 0 < n) : Bucketing := .ofWidth (3600 * n) bucketOrigin (by omega)

def days (n : ℕ) (hn : 0 < n) : Bucketing := .ofWidth (86400 * n) bucketOrigin (by omega)

def minute : Bucketing := .ofWidth 60 bucketOrigin (by decide)

def hour : Bucketing := .ofWidth 3600 bucketOrigin (by decide)

def day : Bucketing := .ofWidth 86400 bucketOrigin (by decide)

/-- The months of the calendar, which are made of whole days. -/
structure Calendar where
  months : Bucketing
  coarsens_day : months.Coarsens day

/-- The widths of candles that can be asked for. -/
inductive PriceCandlesResolutions where
  | minute1
  | minute5
  | minute15
  | minute30
  | hour1
  | hour4
  | day1
  | day7
  | month1
  deriving DecidableEq

/-- The enumeration's value, as the queries use it. -/
def PriceCandlesResolutions.value : PriceCandlesResolutions → String
  | minute1 => "1 minute"
  | minute5 => "5 minutes"
  | minute15 => "15 minutes"
  | minute30 => "30 minutes"
  | hour1 => "1 hour"
  | hour4 => "4 hours"
  | day1 => "1 day"
  | day7 => "7 days"
  | month1 => "1 month"

/-- The buckets of `time_bucket_gapfill('${resolution}', time)`. -/
def timeBucket (calendar : Calendar) : PriceCandlesResolutions → Bucketing
  | .minute1 => minute
  | .minute5 => minutes 5 (by omega)
  | .minute15 => minutes 15 (by omega)
  | .minute30 => minutes 30 (by omega)
  | .hour1 => hour
  | .hour4 => hours 4 (by omega)
  | .day1 => day
  | .day7 => days 7 (by omega)
  | .month1 => calendar.months

/-! ## The views -/

/-- `GROUP BY time, series, key`. -/
def candleView {ρ : Type} (columns : Columns ρ) (B : Bucketing) (rows : List ρ) :
    List PriceCandle :=
  let slot := fun row => (B.start (columns.time row), columns.series row, columns.key row)
  (rows.map slot).dedup.filterMap fun group =>
    (summarise columns.time columns.candle (rows.filter fun row => slot row = group)).map
      fun candle => { candle with time := group.1, series := group.2.1, key := group.2.2 }

/-- `WHERE key in (...)` -/
def isPrice (key : String) : Bool := key ∈ ["firstTokenPrice", "secondTokenPrice", "priceUSD"]

/-- The view by the minute, made of the table. -/
def priceCandleMinute (table : HyperDexAnalytics) : List PriceCandle :=
  candleView XExchangeAnalyticsEntity.columns minute (table.rows.filter fun row => isPrice row.key)

/-- The view by the hour, made of the view by the minute. -/
def priceCandleHourly (table : HyperDexAnalytics) : List PriceCandle :=
  candleView PriceCandle.columns hour (priceCandleMinute table)

/-- The view by the day, made of the view by the hour. -/
def priceCandleDaily (table : HyperDexAnalytics) : List PriceCandle :=
  candleView PriceCandle.columns day (priceCandleHourly table)

/-! ## `getPriceCandles` -/

/-- What is asked of a query. -/
structure PriceCandlesQueryArgs where
  series : String
  metric : String
  resolution : PriceCandlesResolutions
  start : ℤ
  «end» : ℤ

/-- The four prices of a bucket, each of which may be missing. -/
structure CandleDataModel where
  time : ℤ
  ohlc : List (Option ℚ)
  deriving DecidableEq

/-- The row that is answered for a bucket. -/
def candleData (bucket : ℤ) (row : Candle (Option ℚ)) : CandleDataModel :=
  ⟨bucket, [row.open, row.high, row.low, row.close]⟩

/-- The view that a resolution is read from. -/
def getCandleModelByResolution (table : HyperDexAnalytics)
    (resolution : PriceCandlesResolutions) : List PriceCandle :=
  if includes resolution.value.toList "minute".toList then priceCandleMinute table
  else if includes resolution.value.toList "hour".toList then priceCandleHourly table
  else priceCandleDaily table

/-- `locf` of all four columns. -/
def locf (previous : Candle (Option ℚ)) : List (Candle (Option ℚ)) → List (Candle (Option ℚ))
  | [] => []
  | row :: rows => row.orElse previous :: locf (row.orElse previous) rows

/-- The rows of a view for a series and a metric. -/
def selected (view : List PriceCandle) (args : PriceCandlesQueryArgs) : List PriceCandle :=
  view.filter fun row => row.series = args.series ∧ row.key = args.metric

/-- The rows with `time between :startDate and :endDate`, by bucket. -/
def bucketRows (B : Bucketing) (candles : List PriceCandle) (args : PriceCandlesQueryArgs) :
    List (Candle (Option ℚ)) :=
  (B.buckets args.start args.end).map fun bucket =>
    columnsOf (·.time) (·.toCandle)
      ((candles.filter fun row => args.start ≤ row.time ∧ row.time ≤ args.end).filter
        fun row => B.start row.time = bucket)

/-- The rows as they are, or filled with what is before the window. -/
def fillGaps (query : List (ℤ × Candle (Option ℚ))) (previousCandle : Option PriceCandle) :
    List CandleDataModel :=
  -- prices arrive as text, which is falsy only where there is none
  let needsGapFilling := query.any fun row => row.2.open.isNone
  if !needsGapFilling then query.map fun row => candleData row.1 row.2
  else
    match previousCandle with
    | none => (query.filter fun row => row.2.open.isSome).map fun row => candleData row.1 row.2
    | some previousCandle => query.map fun row =>
      candleData row.1 (row.2.orElse (Candle.columns (some previousCandle.toCandle)))

/-- The query: the rows of the span in buckets, gaps filled with what was there
last. -/
def getPriceCandles (calendar : Calendar) (table : HyperDexAnalytics)
    (args : PriceCandlesQueryArgs) : List CandleDataModel :=
  let B := timeBucket calendar args.resolution
  let candles := selected (getCandleModelByResolution table args.resolution) args
  let query := (B.buckets args.start args.end).zip
    (locf (Candle.columns none) (bucketRows B candles args))
  fillGaps query (latest (·.time) (candles.filter fun row => row.time < args.start))

/-! ## What is served -/

/-- The prices of a series. -/
def prices (table : HyperDexAnalytics) (series metric : String) : List XExchangeAnalyticsEntity :=
  table.rows.filter fun row => isPrice row.key ∧ row.series = series ∧ row.key = metric

/-- The buckets of the view that a resolution reads. -/
def viewBucket (resolution : PriceCandlesResolutions) : Bucketing :=
  if includes resolution.value.toList "minute".toList then minute
  else if includes resolution.value.toList "hour".toList then hour
  else day

/-- The candle of the bucket of the last price, among the prices given. -/
def lastPrices (B : Bucketing) (rows : List XExchangeAnalyticsEntity) : Option (Candle ℚ) :=
  lastCandle B (·.timestamp) (fun row => .ofValue row.value) rows

/-- The last bucket with prices in the window so far, and if there is none the
last one of the view before the window. -/
def servedCandle (calendar : Calendar) (table : HyperDexAnalytics) (args : PriceCandlesQueryArgs)
    (bucket : ℤ) : Option (Candle ℚ) :=
  let B := timeBucket calendar args.resolution
  let V := viewBucket args.resolution
  (lastPrices B ((prices table args.series args.metric).filter fun row =>
      (args.start ≤ V.start row.timestamp ∧ V.start row.timestamp ≤ args.end) ∧
        B.start row.timestamp ≤ bucket)).or
    (lastPrices V ((prices table args.series args.metric).filter fun row =>
      V.start row.timestamp < args.start))

/-! ## A view of a view -/

/-- Each row of the view is the candle of the rows of its bucket, each row is in
one, and no bucket has two. -/
structure IsView {ρ : Type} (columns : Columns ρ) (B : Bucketing) (rows : List ρ)
    (view : List PriceCandle) : Prop where
  summary : ∀ c ∈ view, IsSummary columns.time columns.candle
    (rows.filter fun row =>
      (columns.series row = c.series ∧ columns.key row = c.key) ∧
        B.start (columns.time row) = c.time) c.toCandle
  cover : ∀ row ∈ rows, ∃ c ∈ view,
    (columns.series row = c.series ∧ columns.key row = c.key) ∧ c.time = B.start (columns.time row)
  distinct : ∀ c ∈ view, ∀ d ∈ view,
    c.series = d.series → c.key = d.key → c.time = d.time → c = d

section Views

variable {ρ : Type} {columns : Columns ρ} {B C : Bucketing} {rows : List ρ}
  {view : List PriceCandle}

/-- The rows of a view are the summaries of their buckets. -/
theorem mem_candleView {c : PriceCandle} :
    c ∈ candleView columns B rows ↔
      (∃ row ∈ rows, (columns.series row = c.series ∧ columns.key row = c.key) ∧
        B.start (columns.time row) = c.time) ∧
      summarise columns.time columns.candle (rows.filter fun row =>
        (columns.series row = c.series ∧ columns.key row = c.key) ∧
          B.start (columns.time row) = c.time) = some c.toCandle := by
  have hslot : ∀ (row : ρ) (group : ℤ × String × String),
      (B.start (columns.time row), columns.series row, columns.key row) = group ↔
        (columns.series row = group.2.1 ∧ columns.key row = group.2.2) ∧
          B.start (columns.time row) = group.1 := by
    intro row group
    rw [Prod.ext_iff, Prod.ext_iff, and_comm]
  unfold candleView
  simp only [List.mem_filterMap, List.mem_dedup, List.mem_map, hslot, Option.map_eq_some_iff]
  constructor
  · intro h
    obtain ⟨group, ⟨row, hrow, hgroup⟩, candle, hcandle, rfl⟩ := h
    exact ⟨⟨row, hrow, hgroup⟩, hcandle⟩
  · intro h
    obtain ⟨⟨row, hrow, hgroup⟩, hcandle⟩ := h
    exact ⟨(c.time, c.series, c.key), ⟨row, hrow, hgroup⟩, c.toCandle, hcandle, rfl⟩

/-- The same as the four facts that are used. -/
theorem isView_candleView (columns : Columns ρ) (B : Bucketing) (rows : List ρ) :
    IsView columns B rows (candleView columns B rows) where
  summary c hc := isSummary_of_eq_some (mem_candleView.mp hc).2
  cover row hrow := by
    have hne : (rows.filter fun other =>
        (columns.series other = columns.series row ∧ columns.key other = columns.key row) ∧
          B.start (columns.time other) = B.start (columns.time row)) ≠ [] :=
      List.ne_nil_of_mem (List.mem_filter.mpr ⟨hrow, by simp⟩)
    obtain ⟨candle, hcandle, -⟩ := exists_summarise columns.time columns.candle hne
    refine ⟨{ candle with
      time := B.start (columns.time row)
      series := columns.series row
      key := columns.key row }, mem_candleView.mpr ⟨⟨row, hrow, ⟨rfl, rfl⟩, rfl⟩, hcandle⟩,
      ⟨rfl, rfl⟩, rfl⟩
  distinct c hc d hd hseries hkey htime := by
    have hc' := (mem_candleView.mp hc).2
    have hd' := (mem_candleView.mp hd).2
    rw [hseries, hkey, htime, hd', Option.some.injEq] at hc'
    cases c
    cases d
    simp_all

/-- A view by coarser buckets can be made from the finer one. -/
theorem IsView.trans {coarse : List PriceCandle} (hfine : IsView columns B rows view)
    (hcoarse : IsView PriceCandle.columns C view coarse) (hCB : C.Coarsens B) :
    IsView columns C rows coarse where
  summary c hc := by
    refine IsSummary.rollUp (B := B) (fun f hf => ?_) (fun row hrow => ?_) (hcoarse.summary c hc)
    -- the rows behind a finer candle of the coarse bucket are all rows of the finer
    -- bucket, as the coarse one contains it
    · obtain ⟨hfview, hfc⟩ := List.mem_filter.mp hf
      rw [decide_eq_true_iff] at hfc
      have hrows : ((rows.filter fun row =>
          (columns.series row = c.series ∧ columns.key row = c.key) ∧
            C.start (columns.time row) = c.time).filter
              fun row => B.start (columns.time row) = f.time) =
          rows.filter fun row =>
            (columns.series row = f.series ∧ columns.key row = f.key) ∧
              B.start (columns.time row) = f.time := by
        rw [List.filter_filter]
        apply List.filter_congr
        intro row _
        rw [← Bool.decide_and, decide_eq_decide]
        constructor
        · intro h
          exact ⟨⟨h.2.1.1.trans hfc.1.1.symm, h.2.1.2.trans hfc.1.2.symm⟩, h.1⟩
        · intro h
          refine ⟨h.2, ⟨h.1.1.trans hfc.1.1, h.1.2.trans hfc.1.2⟩, ?_⟩
          rw [← hCB, h.2]
          exact hfc.2
      show IsSummary columns.time columns.candle (List.filter _ (List.filter _ rows)) f.toCandle
      exact hrows ▸ hfine.summary f hfview
    -- and each row of the coarse bucket is behind one of its finer candles
    · obtain ⟨hmem, hrowc⟩ := List.mem_filter.mp hrow
      rw [decide_eq_true_iff] at hrowc
      obtain ⟨f, hf, hsame, htime⟩ := hfine.cover row hmem
      refine ⟨f, List.mem_filter.mpr ⟨hf, ?_⟩, htime⟩
      rw [decide_eq_true_iff]
      refine ⟨⟨hsame.1.symm.trans hrowc.1.1, hsame.2.symm.trans hrowc.1.2⟩, ?_⟩
      show C.start f.time = c.time
      rw [htime, hCB, hrowc.2]
  cover row hrow := by
    obtain ⟨f, hf, hsame, htime⟩ := hfine.cover row hrow
    obtain ⟨c, hc, hsame', htime'⟩ := hcoarse.cover f hf
    refine ⟨c, hc, ⟨hsame.1.trans hsame'.1, hsame.2.trans hsame'.2⟩, ?_⟩
    rw [htime']
    show C.start f.time = _
    rw [htime, hCB]
  distinct := hcoarse.distinct

end Views

/-- Each minute lies within an hour. -/
theorem hour_coarsens_minute : hour.Coarsens minute :=
  Bucketing.ofWidth_coarsens (by decide) (by decide) (by decide) (by decide)

/-- Each hour lies within a day. -/
theorem day_coarsens_hour : day.Coarsens hour :=
  Bucketing.ofWidth_coarsens (by decide) (by decide) (by decide) (by decide)

/-- Every view is one of the prices. -/
theorem isView_getCandleModelByResolution (table : HyperDexAnalytics)
    (resolution : PriceCandlesResolutions) :
    IsView XExchangeAnalyticsEntity.columns (viewBucket resolution)
      (table.rows.filter fun row => isPrice row.key)
      (getCandleModelByResolution table resolution) := by
  have hminute : IsView XExchangeAnalyticsEntity.columns minute
      (table.rows.filter fun row => isPrice row.key) (priceCandleMinute table) :=
    isView_candleView _ _ _
  have hhour := hminute.trans
    (isView_candleView PriceCandle.columns hour (priceCandleMinute table)) hour_coarsens_minute
  have hday := hhour.trans
    (isView_candleView PriceCandle.columns day (priceCandleHourly table)) day_coarsens_hour
  unfold viewBucket getCandleModelByResolution
  split
  next => exact hminute
  next =>
    split
    next => exact hhour
    next => exact hday

/-- A resolution is never finer than the view it reads. -/
theorem timeBucket_coarsens (calendar : Calendar) (resolution : PriceCandlesResolutions) :
    (timeBucket calendar resolution).Coarsens (viewBucket resolution) := by
  cases resolution with
  | minute1 => exact Bucketing.ofWidth_coarsens (by decide) (by decide) (by decide) (by decide)
  | minute5 => exact Bucketing.ofWidth_coarsens (by decide) (by decide) (by decide) (by decide)
  | minute15 => exact Bucketing.ofWidth_coarsens (by decide) (by decide) (by decide) (by decide)
  | minute30 => exact Bucketing.ofWidth_coarsens (by decide) (by decide) (by decide) (by decide)
  | hour1 => exact Bucketing.ofWidth_coarsens (by decide) (by decide) (by decide) (by decide)
  | hour4 => exact Bucketing.ofWidth_coarsens (by decide) (by decide) (by decide) (by decide)
  | day1 => exact Bucketing.ofWidth_coarsens (by decide) (by decide) (by decide) (by decide)
  | day7 => exact Bucketing.ofWidth_coarsens (by decide) (by decide) (by decide) (by decide)
  | month1 => exact calendar.coarsens_day

/-! ## The candles of one series -/

section Series

variable {V : Bucketing} {quotes : List XExchangeAnalyticsEntity} {candles : List PriceCandle}

/-- A price as a candle. -/
def priced (row : XExchangeAnalyticsEntity) : Candle ℚ := .ofValue row.value

/-- The candles of the buckets with prices. -/
structure CandlesOf (V : Bucketing) (quotes : List XExchangeAnalyticsEntity)
    (candles : List PriceCandle) : Prop where
  summary : ∀ c ∈ candles, IsSummary (·.timestamp) priced
    (quotes.filter fun row => V.start row.timestamp = c.time) c.toCandle
  cover : ∀ row ∈ quotes, ∃ c ∈ candles, c.time = V.start row.timestamp
  distinct : DistinctTimes (·.time) candles

/-- The rows that are read are candles of the rows of the table. -/
theorem candlesOf_selected (table : HyperDexAnalytics) (args : PriceCandlesQueryArgs) :
    CandlesOf (viewBucket args.resolution) (prices table args.series args.metric)
      (selected (getCandleModelByResolution table args.resolution) args) := by
  have hview := isView_getCandleModelByResolution table args.resolution
  have hmem : ∀ c, c ∈ selected (getCandleModelByResolution table args.resolution) args ↔
      c ∈ getCandleModelByResolution table args.resolution ∧
        c.series = args.series ∧ c.key = args.metric := by
    intro c
    rw [selected, List.mem_filter, decide_eq_true_iff]
  -- the metric is a price, so the view has left none of its rows out
  refine ⟨fun c hc => ?_, fun row hrow => ?_, fun c hc d hd htime => ?_⟩
  · obtain ⟨hc, hseries, hkey⟩ := (hmem c).mp hc
    have hrows : ((prices table args.series args.metric).filter fun row =>
        (viewBucket args.resolution).start row.timestamp = c.time) =
        (table.rows.filter fun row => isPrice row.key).filter fun row =>
          (row.series = c.series ∧ row.key = c.key) ∧
            (viewBucket args.resolution).start row.timestamp = c.time := by
      rw [prices, List.filter_filter, List.filter_filter, hseries, hkey]
      apply List.filter_congr
      intro row _
      rw [Bool.eq_iff_iff]
      simp only [Bool.and_eq_true, decide_eq_true_iff]
      tauto
    rw [hrows]
    exact hview.summary c hc
  · obtain ⟨hrow, hrow'⟩ := List.mem_filter.mp hrow
    rw [decide_eq_true_iff] at hrow'
    obtain ⟨c, hc, hsame, htime⟩ := hview.cover row (List.mem_filter.mpr ⟨hrow, hrow'.1⟩)
    exact ⟨c, (hmem c).mpr ⟨hc, hsame.1.symm.trans hrow'.2.1, hsame.2.symm.trans hrow'.2.2⟩, htime⟩
  · obtain ⟨hc, hseries, hkey⟩ := (hmem c).mp hc
    obtain ⟨hd, hseries', hkey'⟩ := (hmem d).mp hd
    exact hview.distinct c hc d hd (hseries.trans hseries'.symm) (hkey.trans hkey'.symm) htime

/-- Prices of one series are at different times. -/
theorem distinctTimes_prices (table : HyperDexAnalytics) (series metric : String) :
    DistinctTimes (·.timestamp) (prices table series metric) := by
  intro r hr s hs htime
  have htime : r.timestamp = s.timestamp := htime
  obtain ⟨hr, hr'⟩ := List.mem_filter.mp hr
  obtain ⟨hs, hs'⟩ := List.mem_filter.mp hs
  rw [decide_eq_true_iff] at hr' hs'
  apply List.inj_on_of_nodup_map table.primaryKey hr hs
  rw [htime, hr'.2.1, hr'.2.2, hs'.2.1, hs'.2.2]

/-- The candle of some of the candles is the candle of their prices. -/
theorem CandlesOf.summarise_filter (h : CandlesOf V quotes candles)
    (htimes : DistinctTimes (·.timestamp) quotes) (p : ℤ → Bool) :
    summarise (·.time) (·.toCandle) (candles.filter fun c => p c.time) =
      summarise (·.timestamp) priced (quotes.filter fun row => p (V.start row.timestamp)) := by
  -- without candles there are no prices, as each price is behind some candle
  by_cases hnil : (candles.filter fun c => p c.time) = []
  · have hquotes : (quotes.filter fun row => p (V.start row.timestamp)) = [] := by
      rw [List.filter_eq_nil_iff]
      intro row hrow hp
      obtain ⟨c, hc, htime⟩ := h.cover row hrow
      exact List.filter_eq_nil_iff.mp hnil c hc (htime ▸ hp)
    rw [hnil, hquotes, summarise_nil, summarise_nil]
  · obtain ⟨c, hc, hsummary⟩ := exists_summarise (fun c : PriceCandle => c.time)
      (fun c : PriceCandle => c.toCandle) hnil
    rw [hc]
    symm
    refine IsSummary.eq_some ?_ (htimes.filter _)
    refine IsSummary.rollUp (B := V) (fun f hf => ?_) (fun row hrow => ?_) hsummary
    · obtain ⟨hf, hp⟩ := List.mem_filter.mp hf
      have hrows : ((quotes.filter fun row => p (V.start row.timestamp)).filter
          fun row => V.start row.timestamp = f.time) =
          quotes.filter fun row => V.start row.timestamp = f.time := by
        rw [List.filter_filter]
        apply List.filter_congr
        intro row _
        rw [Bool.and_eq_left_iff_imp, decide_eq_true_iff]
        intro htime
        rw [htime]
        exact hp
      rw [hrows]
      exact h.summary f hf
    · obtain ⟨hrow, hp⟩ := List.mem_filter.mp hrow
      obtain ⟨f, hf, htime⟩ := h.cover row hrow
      exact ⟨f, List.mem_filter.mpr ⟨hf, htime.symm ▸ hp⟩, htime⟩

/-- The last candle before a moment is the one of the last prices. -/
theorem CandlesOf.latest_before (h : CandlesOf V quotes candles)
    (htimes : DistinctTimes (·.timestamp) quotes) (start : ℤ) :
    (latest (·.time) (candles.filter fun c => c.time < start)).map (·.toCandle) =
      lastPrices V (quotes.filter fun row => V.start row.timestamp < start) := by
  by_cases hnil : (candles.filter fun c => c.time < start) = []
  · have hquotes : (quotes.filter fun row => V.start row.timestamp < start) = [] := by
      rw [List.filter_eq_nil_iff]
      intro row hrow hlt
      obtain ⟨c, hc, htime⟩ := h.cover row hrow
      refine List.filter_eq_nil_iff.mp hnil c hc ?_
      rw [htime]
      exact hlt
    rw [hnil, hquotes]
    rfl
  · obtain ⟨c, hmem, heq, hle⟩ := exists_latest (fun c : PriceCandle => c.time) hnil
    obtain ⟨hc, hlt⟩ := List.mem_filter.mp hmem
    rw [decide_eq_true_iff] at hlt
    obtain ⟨r, hr, -⟩ := (h.summary c hc).opens
    obtain ⟨hrquote, hrtime⟩ := List.mem_filter.mp hr
    rw [decide_eq_true_iff] at hrtime
    have hrmem : r ∈ quotes.filter fun row => V.start row.timestamp < start :=
      List.mem_filter.mpr ⟨hrquote, by rw [decide_eq_true_iff, hrtime]; exact hlt⟩
    obtain ⟨l, hlmem, -, hlatest⟩ := exists_latest
      (fun row : XExchangeAnalyticsEntity => row.timestamp) (List.ne_nil_of_mem hrmem)
    obtain ⟨hlquote, hllt⟩ := List.mem_filter.mp hlmem
    -- the latest price is in the bucket of the latest candle
    have hbucket : V.start l.timestamp = c.time := by
      obtain ⟨d, hd, hdtime⟩ := h.cover l hlquote
      have hdmem : d ∈ candles.filter fun c => c.time < start :=
        List.mem_filter.mpr ⟨hd, by rw [hdtime]; exact hllt⟩
      have hdc := hle d hdmem
      have hge : V.start r.timestamp ≤ V.start l.timestamp :=
        V.start_mono (hlatest r hrmem)
      omega
    have hrows : ((quotes.filter fun row => V.start row.timestamp < start).filter
        fun row => V.start row.timestamp = V.start l.timestamp) =
        quotes.filter fun row => V.start row.timestamp = c.time := by
      rw [List.filter_filter, hbucket]
      apply List.filter_congr
      intro row _
      rw [Bool.and_eq_left_iff_imp, decide_eq_true_iff, decide_eq_true_iff]
      omega
    rw [heq, lastPrices, lastCandle_eq hlmem hlatest, hrows]
    exact ((h.summary c hc).eq_some (htimes.filter _)).symm

end Series

/-! ## The window -/

section Window

variable {calendar : Calendar} {table : HyperDexAnalytics} {args : PriceCandlesQueryArgs}

/-- Filling the columns one by one fills whole candles. -/
theorem locf_columns (previous : Option (Candle ℚ)) (rows : List (Option (Candle ℚ))) :
    locf (Candle.columns previous) (rows.map Candle.columns) =
      (carryForward previous rows).map Candle.columns := by
  induction rows generalizing previous with
  | nil => rfl
  | cons row rows ih =>
    rw [List.map_cons, locf, carryForward, List.map_cons, ← Candle.columns_or, ih]

/-- The prices whose bucket of the view is in the window. -/
def windowed (table : HyperDexAnalytics) (args : PriceCandlesQueryArgs) :
    List XExchangeAnalyticsEntity :=
  (prices table args.series args.metric).filter fun row =>
    args.start ≤ (viewBucket args.resolution).start row.timestamp ∧
      (viewBucket args.resolution).start row.timestamp ≤ args.end

variable (calendar) in
/-- Every row of the span is in one of the buckets. -/
theorem start_mem_buckets {row : XExchangeAnalyticsEntity} (hrow : row ∈ windowed table args) :
    (timeBucket calendar args.resolution).start row.timestamp ∈
      (timeBucket calendar args.resolution).buckets args.start args.end := by
  have hcoarse := timeBucket_coarsens calendar args.resolution
  obtain ⟨-, hwindow⟩ := List.mem_filter.mp hrow
  rw [decide_eq_true_iff] at hwindow
  rw [Bucketing.mem_buckets]
  refine ⟨⟨?_, ?_⟩, Bucketing.start_start _ _⟩
  · rw [← hcoarse row.timestamp]
    exact Bucketing.start_mono _ hwindow.1
  · exact (Bucketing.start_le_start hcoarse _).trans hwindow.2

/-- What the database has for the buckets of the window. -/
theorem locf_bucketRows (calendar : Calendar) (table : HyperDexAnalytics)
    (args : PriceCandlesQueryArgs) :
    locf (Candle.columns none) (bucketRows (timeBucket calendar args.resolution)
        (selected (getCandleModelByResolution table args.resolution) args) args) =
      ((timeBucket calendar args.resolution).buckets args.start args.end).map fun bucket =>
        Candle.columns (lastPrices (timeBucket calendar args.resolution)
          ((windowed table args).filter fun row =>
            (timeBucket calendar args.resolution).start row.timestamp ≤ bucket)) := by
  have hmem : ∀ row ∈ windowed table args, _ := fun row hrow =>
    start_mem_buckets calendar hrow
  have hcoarse := timeBucket_coarsens calendar args.resolution
  generalize timeBucket calendar args.resolution = B at hmem hcoarse ⊢
  have hrows : bucketRows B (selected (getCandleModelByResolution table args.resolution) args)
      args = ((B.buckets args.start args.end).map fun bucket =>
        summarise (·.timestamp) priced ((windowed table args).filter fun row =>
          B.start row.timestamp = bucket)).map Candle.columns := by
    rw [bucketRows, List.map_map]
    apply List.map_congr_left
    intro bucket _
    have hsummary := (candlesOf_selected table args).summarise_filter
      (distinctTimes_prices table args.series args.metric)
      fun t => decide (B.start t = bucket) && decide (args.start ≤ t ∧ t ≤ args.end)
    rw [columnsOf_eq, List.filter_filter, hsummary, Function.comp_apply, windowed,
      List.filter_filter]
    simp only [hcoarse _]
  have hcarry := carryForward_summaries (B := B) (·.timestamp) priced
    (windowed table args) (B.buckets args.start args.end) (Bucketing.pairwise_buckets _ _)
    (fun row hrow => Or.inl (hmem row hrow)) none fun bucket hbucket => by
      -- no price of the window is in a bucket before the first
      have hnil : ((windowed table args).filter fun row => B.start row.timestamp < bucket) =
          [] := by
        rw [List.filter_eq_nil_iff]
        intro row hrow hlt
        have hle := Bucketing.head_le_of_mem_buckets hbucket (hmem row hrow)
        rw [decide_eq_true_iff] at hlt
        omega
      rw [hnil]
      rfl
  rw [hrows, locf_columns, hcarry, List.map_map]
  rfl

/-- Where a row is missing at the front, the candle before the window is taken. -/
theorem filled_eq_served (bucket : ℤ) :
    (lastPrices (timeBucket calendar args.resolution) ((windowed table args).filter fun row =>
        (timeBucket calendar args.resolution).start row.timestamp ≤ bucket)).or
      ((latest (·.time) ((selected (getCandleModelByResolution table args.resolution) args).filter
        fun row => row.time < args.start)).map (·.toCandle)) =
      servedCandle calendar table args bucket := by
  have htimes := distinctTimes_prices table args.series args.metric
  rw [(candlesOf_selected table args).latest_before htimes, windowed, List.filter_filter]
  unfold servedCandle
  dsimp only
  congr 3
  funext row
  rw [Bool.and_comm, ← Bool.decide_and]

end Window

/-- A bucket as it is served. -/
def served (bucket : ℤ) (candle : Candle ℚ) : CandleDataModel :=
  ⟨bucket, [some candle.open, some candle.high, some candle.low, some candle.close]⟩

theorem isNone_open_columns (candle : Option (Candle ℚ)) :
    (Candle.columns candle).open.isNone = candle.isNone := by
  cases candle with
  | none => rfl
  | some candle => rfl

theorem isSome_open_columns (candle : Option (Candle ℚ)) :
    (Candle.columns candle).open.isSome = candle.isSome := by
  cases candle with
  | none => rfl
  | some candle => rfl

/-- Where no bucket is left without a candle, all are served. -/
theorem map_candleData (l : List ℤ) (filled : ℤ → Option (Candle ℚ))
    (h : ∀ bucket ∈ l, (filled bucket).isSome) :
    l.map (fun bucket => candleData bucket (Candle.columns (filled bucket))) =
      l.filterMap fun bucket => (filled bucket).map (served bucket) := by
  rw [← List.filterMap_eq_map]
  apply List.filterMap_congr
  intro bucket hbucket
  obtain ⟨candle, hcandle⟩ := Option.isSome_iff_exists.mp (h bucket hbucket)
  rw [Function.comp_apply, hcandle]
  rfl

/-- Whichever way is taken, a bucket is served if there is a candle for it, of the
window or before it. -/
theorem fillGaps_columns (l : List ℤ) (carried : ℤ → Option (Candle ℚ))
    (previousCandle : Option PriceCandle) :
    fillGaps (l.map fun bucket => (bucket, Candle.columns (carried bucket))) previousCandle =
      l.filterMap fun bucket =>
        ((carried bucket).or (previousCandle.map (·.toCandle))).map (served bucket) := by
  unfold fillGaps
  dsimp only
  -- the query for the candle before the window is only made if some bucket has none
  by_cases hgap : (l.map fun bucket => (bucket, Candle.columns (carried bucket))).any
      fun row => row.2.open.isNone
  · rw [if_neg (by rw [hgap]; decide)]
    cases previousCandle with
    | none =>
      show ((l.map fun bucket => (bucket, Candle.columns (carried bucket))).filter
        fun row => row.2.open.isSome).map (fun row => candleData row.1 row.2) = _
      rw [List.filter_map, List.map_map]
      have hfilter : l.filter ((fun row : ℤ × Candle (Option ℚ) => row.2.open.isSome) ∘
          fun bucket => (bucket, Candle.columns (carried bucket))) =
          l.filter fun bucket => (carried bucket).isSome := by
        apply List.filter_congr
        intro bucket _
        exact isSome_open_columns _
      rw [hfilter]
      show (l.filter fun bucket => (carried bucket).isSome).map
        (fun bucket => candleData bucket (Candle.columns (carried bucket))) = _
      rw [map_candleData _ _ fun bucket hbucket => (List.mem_filter.mp hbucket).2,
        List.filterMap_filter]
      apply List.filterMap_congr
      intro bucket _
      rw [Option.map_none, Option.or_none]
      cases carried bucket with
      | none => rfl
      | some candle => rfl
    | some candle =>
      show (l.map fun bucket => (bucket, Candle.columns (carried bucket))).map (fun row =>
        candleData row.1 (row.2.orElse (Candle.columns (some candle.toCandle)))) = _
      rw [List.map_map]
      have hrow : ∀ bucket, (Candle.columns (carried bucket)).orElse
          (Candle.columns (some candle.toCandle)) =
            Candle.columns ((carried bucket).or (some candle.toCandle)) :=
        fun bucket => (Candle.columns_or _ _).symm
      show l.map (fun bucket => candleData bucket
        ((Candle.columns (carried bucket)).orElse (Candle.columns (some candle.toCandle)))) = _
      simp only [hrow]
      apply map_candleData
      intro bucket _
      rw [Option.isSome_or, Option.isSome_some, Bool.or_true]
  · have hall : ∀ bucket ∈ l, (carried bucket).isSome := by
      intro bucket hbucket
      rw [← Option.not_isNone, ← isNone_open_columns]
      by_contra hnone
      apply hgap
      rw [List.any_map, List.any_eq_true]
      refine ⟨bucket, hbucket, ?_⟩
      rw [Bool.not_eq_true', Bool.not_eq_false] at hnone
      exact hnone
    rw [if_pos (by rw [Bool.not_eq_true] at hgap; rw [hgap]; rfl), List.map_map]
    show l.map (fun bucket => candleData bucket (Candle.columns (carried bucket))) = _
    rw [map_candleData l carried hall]
    apply List.filterMap_congr
    intro bucket hbucket
    obtain ⟨candle, hcandle⟩ := Option.isSome_iff_exists.mp (hall bucket hbucket)
    rw [hcandle, Option.some_or]

/-- **Candles are those of the prices.** Through up to three views and the two
ways to fill, each bucket of the window is served with the candle of the last
bucket with prices, and left out where there is none. -/
theorem getPriceCandles_eq (calendar : Calendar) (table : HyperDexAnalytics)
    (args : PriceCandlesQueryArgs) :
    getPriceCandles calendar table args =
      ((timeBucket calendar args.resolution).buckets args.start args.end).filterMap fun bucket =>
        (servedCandle calendar table args bucket).map (served bucket) := by
  unfold getPriceCandles
  dsimp only
  rw [locf_bucketRows, ← List.map_prod_left_eq_zip, fillGaps_columns]
  apply List.filterMap_congr
  intro bucket _
  rw [filled_eq_served]

/-! ## Two windows -/

section Windows

variable {calendar : Calendar} {table : HyperDexAnalytics} {args : PriceCandlesQueryArgs}
  {bucket : ℤ}

/-- A price before the window is in no later bucket than any of the window. -/
theorem start_le_of_before
    (hbucket : bucket ∈ (timeBucket calendar args.resolution).buckets args.start args.end) {t : ℤ}
    (ht : (viewBucket args.resolution).start t < args.start) :
    (timeBucket calendar args.resolution).start t ≤ bucket := by
  have hfirst := (Bucketing.mem_buckets.mp hbucket).1.1
  have hle := (timeBucket calendar args.resolution).start_mono ht.le
  rw [timeBucket_coarsens calendar args.resolution] at hle
  exact hle.trans hfirst

/-- Where the resolution is that of the view, the window does not matter. -/
theorem servedCandle_of_single
    (hsingle : timeBucket calendar args.resolution = viewBucket args.resolution)
    (hbucket : bucket ∈ (timeBucket calendar args.resolution).buckets args.start args.end) :
    servedCandle calendar table args bucket =
      lastPrices (timeBucket calendar args.resolution)
        ((prices table args.series args.metric).filter fun row =>
          (timeBucket calendar args.resolution).start row.timestamp ≤ bucket) := by
  have hlast := (Bucketing.mem_buckets.mp hbucket).1.2
  have hbefore := fun t => start_le_of_before (t := t) hbucket
  unfold servedCandle
  dsimp only
  rw [hsingle] at hbefore ⊢
  have hsplit := lastCandle_split (B := viewBucket args.resolution) (·.timestamp) priced
    ((prices table args.series args.metric).filter fun row =>
      (viewBucket args.resolution).start row.timestamp ≤ bucket) args.start
  rw [List.filter_filter, List.filter_filter] at hsplit
  refine Eq.trans ?_ hsplit.symm
  congr 2
  · apply List.filter_congr
    intro row _
    rw [← Bool.decide_and, decide_eq_decide]
    omega
  · apply List.filter_congr
    intro row _
    rw [← Bool.decide_and, decide_eq_decide]
    exact ⟨fun h => ⟨h, hbefore _ h⟩, fun h => h.1⟩

/-- A bucket closes with the last price so far, whatever the window. -/
theorem close_servedCandle
    (hbucket : bucket ∈ (timeBucket calendar args.resolution).buckets args.start args.end) :
    (servedCandle calendar table args bucket).map (·.close) =
      last (·.timestamp) (·.value) ((prices table args.series args.metric).filter fun row =>
        (timeBucket calendar args.resolution).start row.timestamp ≤ bucket ∧
          ((viewBucket args.resolution).start row.timestamp < args.start ∨
            (viewBucket args.resolution).start row.timestamp ≤ args.end)) := by
  have hlast := (Bucketing.mem_buckets.mp hbucket).1.2
  have hbefore := fun t => start_le_of_before (t := t) hbucket
  have htimes := distinctTimes_prices table args.series args.metric
  have hclose : ∀ (B : Bucketing) (p : XExchangeAnalyticsEntity → Bool),
      (lastPrices B ((prices table args.series args.metric).filter p)).map (·.close) =
        last (·.timestamp) (·.value) ((prices table args.series args.metric).filter p) :=
    fun B p => map_close_lastCandle (htimes.filter p)
  rw [← hclose (viewBucket args.resolution)]
  unfold servedCandle
  dsimp only
  rw [Option.map_or, hclose, ← hclose (viewBucket args.resolution), ← Option.map_or]
  congr 1
  -- the prices up to the bucket are split at the start of the window, as the two
  -- queries do
  have hsplit := lastCandle_split (B := viewBucket args.resolution) (·.timestamp) priced
    ((prices table args.series args.metric).filter fun row =>
      (timeBucket calendar args.resolution).start row.timestamp ≤ bucket ∧
        ((viewBucket args.resolution).start row.timestamp < args.start ∨
          (viewBucket args.resolution).start row.timestamp ≤ args.end)) args.start
  rw [List.filter_filter, List.filter_filter] at hsplit
  refine Eq.trans ?_ hsplit.symm
  congr 2
  · apply List.filter_congr
    intro row _
    rw [← Bool.decide_and, decide_eq_decide]
    omega
  · apply List.filter_congr
    intro row _
    rw [← Bool.decide_and, decide_eq_decide]
    exact ⟨fun h => ⟨h, hbefore _ h, Or.inl h⟩, fun h => h.1⟩

end Windows

/-- **Two windows.** With the resolution of the view a bucket has one candle,
whatever the window it is served in: that of the last prices up to it. With any
resolution it closes with the last price up to it, among those before the window
or in it. -/
theorem getPriceCandles_windows (calendar : Calendar) (table : HyperDexAnalytics)
    (args : PriceCandlesQueryArgs) :
    (timeBucket calendar args.resolution = viewBucket args.resolution →
      getPriceCandles calendar table args =
        ((timeBucket calendar args.resolution).buckets args.start args.end).filterMap fun bucket =>
          (lastPrices (timeBucket calendar args.resolution)
            ((prices table args.series args.metric).filter fun row =>
              (timeBucket calendar args.resolution).start row.timestamp ≤ bucket)).map
            (served bucket)) ∧
    (getPriceCandles calendar table args).map (fun candle => (candle.time, candle.ohlc[3]?)) =
      ((timeBucket calendar args.resolution).buckets args.start args.end).filterMap fun bucket =>
        (last (·.timestamp) (·.value) ((prices table args.series args.metric).filter fun row =>
          (timeBucket calendar args.resolution).start row.timestamp ≤ bucket ∧
            ((viewBucket args.resolution).start row.timestamp < args.start ∨
              (viewBucket args.resolution).start row.timestamp ≤ args.end))).map
          fun close => (bucket, some (some close)) := by
  rw [getPriceCandles_eq]
  constructor
  · intro hsingle
    apply List.filterMap_congr
    intro bucket hbucket
    rw [servedCandle_of_single hsingle hbucket]
  · rw [List.map_filterMap]
    apply List.filterMap_congr
    intro bucket hbucket
    rw [← close_servedCandle hbucket, Option.map_map, Option.map_map]
    rfl

/-! Three prices in five minutes, and none in the next five. -/

/-- Three prices, stored in no order. -/
def threePrices : HyperDexAnalytics where
  rows := [⟨130, "WEGLD", "priceUSD", 7⟩, ⟨10, "WEGLD", "priceUSD", 5⟩,
    ⟨70, "WEGLD", "priceUSD", 9⟩]
  primaryKey := by decide

/-- A calendar whose months are days. -/
def shortMonths : Calendar := ⟨day, Bucketing.Coarsens.refl day⟩

/-- By the minute the empty bucket is the same in both windows; by five minutes the
window that begins with it has the candle of the last minute, the longer one that of
the five minutes before. -/
theorem getPriceCandles_windows_sample :
    getPriceCandles shortMonths threePrices ⟨"WEGLD", "priceUSD", .minute1, 180, 180⟩ =
      [⟨180, [some 7, some 7, some 7, some 7]⟩] ∧
    getPriceCandles shortMonths threePrices ⟨"WEGLD", "priceUSD", .minute5, 300, 300⟩ =
      [⟨300, [some 7, some 7, some 7, some 7]⟩] ∧
    getPriceCandles shortMonths threePrices ⟨"WEGLD", "priceUSD", .minute5, 0, 300⟩ =
      [⟨0, [some 5, some 9, some 5, some 7]⟩, ⟨300, [some 5, some 9, some 5, some 7]⟩] := by
  refine ⟨?_, by decide +kernel, by decide +kernel⟩
  rw [(getPriceCandles_windows shortMonths threePrices
    ⟨"WEGLD", "priceUSD", .minute1, 180, 180⟩).1 rfl]
  decide +kernel

end MxExchange.Analytics.PriceCandles
