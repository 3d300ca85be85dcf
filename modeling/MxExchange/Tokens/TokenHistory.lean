import MxExchange.Analytics.HistoricValues

/-!
# `token.compute.service.ts`: a token a day and a week ago

What a token was worth a week ago, what is locked of it and what it was traded for
are taken out of the queries of `HistoricValues`, each as an item of a list or as the
sum of some items. So it matters what the queries show at the two ends of a window.

The price of a week ago is the first item of a window without a start, which is the
day the window begins in: no price at all, at any time of the day but midnight
(`computeTokenPrevious7dPrice_eq`). The locked value is the last item, which only
knows of today (`computeTokenLiquidityUSD_eq`). The volumes of two days are split at a
whole hour, and each trade is in one of them (`computeTokenLast2DaysVolumeUSD_eq`).
-/

namespace MxExchange.Tokens.TokenHistory

open MxExchange.Collections MxExchange.Analytics.PriceCandles MxExchange.Analytics.HistoricValues

variable (moment : Moment) (table : HyperDexAnalytics) (now : ℤ) (tokenID : String)

/-- A query about the time up to now. -/
def recent (series metric time : String) : AnalyticsQueryArgs where
  series := series
  metric := metric
  start := none
  time := some time

/-- The first item of the last week. -/
def computeTokenPrevious7dPrice : Option ℚ :=
  let values7d := getLatestCompleteValues moment table now (recent tokenID "priceUSD" "7 days")
  values7d.head?.map (·.value)

/-- The last item of the last day. -/
def computeTokenLiquidityUSD : Option ℚ :=
  let values24h :=
    getLatestCompleteValues moment table now (recent tokenID "lockedValueUSD" "1 day")
  if values24h.length = 0 then none
  else values24h.getLast?.map (·.value)

/-- The volume of a day, and of the day before it. -/
structure VolumeLast2Days where
  previous : ℚ
  current : ℚ
  deriving DecidableEq

/-- `reduce` with `plus`. -/
def sumItems (values : List HistoricDataModel) : ℚ :=
  values.foldl (fun acc item => acc + item.value) 0

/-- `kept` is what the view by the hour still has of the rows older than a day. -/
def computeTokenLast2DaysVolumeUSD (kept : XExchangeAnalyticsEntity → Bool) : VolumeLast2Days :=
  let values48h :=
    getHourlySumValues moment table kept now (recent tokenID "volumeUSD" "2 days")
  -- `startOf('hour')`
  let splitTime := hour.start (moment.subtract now "1 day")
  let previousDayValues := values48h.filter fun item => item.timestamp ≤ splitTime
  let currentDayValues := values48h.filter fun item => splitTime < item.timestamp
  { previous := sumItems previousDayValues
    current := sumItems currentDayValues }

def computeTokenVolumeUSD24h (kept : XExchangeAnalyticsEntity → Bool) : ℚ :=
  (computeTokenLast2DaysVolumeUSD moment table now tokenID kept).current

def computeTokenPrevious24hVolumeUSD (kept : XExchangeAnalyticsEntity → Bool) : ℚ :=
  (computeTokenLast2DaysVolumeUSD moment table now tokenID kept).previous

/-! ## The ends of a window -/

/-- A window of some days up to now, without a start: what came before its first
whole day is not seen. -/
theorem getLatestCompleteValues_recent (series metric time : String) :
    getLatestCompleteValues moment table now (recent series metric time) =
      (day.buckets (moment.subtract now time) now).map fun d => ⟨d,
        (lastValue ((closes table series metric).filter fun row =>
          moment.subtract now time ≤ day.start row.timestamp ∧
            day.start row.timestamp ≤ d)).getD 0⟩ := by
  rw [getLatestCompleteValues_eq]
  show (day.buckets _ _).map _ = _
  apply List.map_congr_left
  intro d _
  congr 3
  apply List.filter_congr
  intro row _
  rw [decide_eq_decide]
  exact and_congr_left fun _ => or_iff_right Bool.false_ne_true

/-- **The price of a week ago** is zero, except at midnight, when it is the last price
of the day that begins then. -/
theorem computeTokenPrevious7dPrice_eq :
    computeTokenPrevious7dPrice moment table now tokenID =
      some (if day.start (now - 7 * 86400) = now - 7 * 86400 then
        (lastValue ((closes table tokenID "priceUSD").filter fun row =>
          day.start row.timestamp = now - 7 * 86400)).getD 0
      else 0) := by
  have hle := day.start_le (now - 7 * 86400)
  unfold computeTokenPrevious7dPrice
  dsimp only
  rw [getLatestCompleteValues_recent, moment.subtract_7days, List.head?_map,
    Bucketing.head?_buckets (by omega)]
  simp only [Option.map_some, Option.some.injEq]
  split
  next haligned =>
    congr 2
    apply List.filter_congr
    intro row _
    rw [decide_eq_decide]
    omega
  next haligned =>
    rw [List.filter_eq_nil_iff.mpr]
    · rfl
    · intro row _ h
      rw [decide_eq_true_iff] at h
      omega

/-- **The locked value** is the last one of today, and zero before there is one: of the
day before only what was recorded in it by midnight counts, and only at midnight. -/
theorem computeTokenLiquidityUSD_eq :
    computeTokenLiquidityUSD moment table now tokenID =
      some ((lastValue ((closes table tokenID "lockedValueUSD").filter fun row =>
        now - 86400 ≤ day.start row.timestamp ∧ day.start row.timestamp ≤ now)).getD 0) := by
  have hlast := Bucketing.getLast?_buckets (B := day) (show now - 86400 ≤ now by omega)
  have hne : day.buckets (now - 86400) now ≠ [] := by
    intro hnil
    rw [hnil] at hlast
    cases hlast
  unfold computeTokenLiquidityUSD
  dsimp only
  rw [getLatestCompleteValues_recent, moment.subtract_day, List.length_map,
    if_neg (by rwa [List.length_eq_zero_iff]), List.getLast?_map, hlast]
  simp only [Option.map_some, Option.some.injEq]
  congr 2
  apply List.filter_congr
  intro row _
  rw [decide_eq_decide]
  refine and_congr_right fun _ => ⟨fun h => h.trans (day.start_le now), fun h => ?_⟩
  have hmono := day.start_mono h
  rwa [day.start_start] at hmono

/-! ## Two days of trades -/

/-- `reduce` is the sum. -/
theorem sumItems_eq (values : List HistoricDataModel) :
    sumItems values = sumOf (·.value) values := by
  have hacc : ∀ (values : List HistoricDataModel) (acc : ℚ),
      values.foldl (fun acc item => acc + item.value) acc = acc + sumOf (·.value) values := by
    intro values
    induction values with
    | nil => exact fun acc => (add_zero acc).symm
    | cons item values ih =>
      intro acc
      rw [List.foldl_cons, ih, sumOf_cons, add_assoc]
  unfold sumItems
  rw [hacc, zero_add]

/-- The rows of the trades that the view by the hour has. -/
def traded (kept : XExchangeAnalyticsEntity → Bool) : List XExchangeAnalyticsEntity :=
  (summed table tokenID "volumeUSD").filter kept

/-- The items of some hours add up to the trades in them. -/
theorem sumItems_hourly (kept : XExchangeAnalyticsEntity → Bool) (asked : ℤ → Bool) :
    sumItems ((getHourlySumValues moment table kept now
        (recent tokenID "volumeUSD" "2 days")).filter fun item => asked item.timestamp) =
      sumValue ((traded table tokenID kept).filter fun row => asked (hour.start row.timestamp) &&
        decide (now - 2 * 86400 ≤ hour.start row.timestamp ∧ hour.start row.timestamp ≤ now)) := by
  have hrows : ((table.rows.filter fun row => isSummed row.key && kept row).filter fun row =>
      decide (seriesWhere tokenID (slot hour row).series = true ∧
        (slot hour row).key = "volumeUSD")) = traded table tokenID kept := by
    unfold traded summed
    rw [List.filter_filter, List.filter_filter]
    apply List.filter_congr
    intro row _
    rw [Bool.decide_and, Bool.decide_eq_true, Bool.and_comm, Bool.and_comm (kept row),
      Bool.and_assoc, Bool.and_assoc, Bool.and_comm (kept row)]
    rfl
  have hlist : getHourlySumValues moment table kept now (recent tokenID "volumeUSD" "2 days") =
      (hour.buckets (now - 2 * 86400) now).map fun bucket => ⟨bucket,
        sumValue ((traded table tokenID kept).filter fun row =>
          (now - 2 * 86400 ≤ hour.start row.timestamp ∧ hour.start row.timestamp ≤ now) ∧
            hour.start row.timestamp = bucket)⟩ := by
    rw [← hrows, ← moment.subtract_2days]
    exact sumsOf_gapfill (Bucketing.Coarsens.refl hour)
      (fun s => decide (seriesWhere tokenID s.series = true ∧ s.key = "volumeUSD")) _ now
  rw [sumItems_eq, hlist]
  exact sumOf_buckets _ (Bucketing.Coarsens.refl hour) _ now asked

theorem lt_start_hour (t : ℤ) : t < hour.start t + 3600 := by
  show t < (t - bucketOrigin) / 3600 * 3600 + bucketOrigin + 3600
  omega

/-- **Volumes of two days.** The trades of the hours after the one that a day ago lies
in are the current volume, all of them. What is left of the two days is the volume
before, so no trade is in both. -/
theorem computeTokenLast2DaysVolumeUSD_eq (kept : XExchangeAnalyticsEntity → Bool)
    (hkept : ∀ row ∈ table.rows, now - 86400 ≤ row.timestamp → kept row = true) :
    computeTokenVolumeUSD24h moment table now tokenID kept =
        sumValue ((summed table tokenID "volumeUSD").filter fun row =>
          hour.start (now - 86400) < hour.start row.timestamp ∧
            hour.start row.timestamp ≤ now) ∧
      computeTokenVolumeUSD24h moment table now tokenID kept +
          computeTokenPrevious24hVolumeUSD moment table now tokenID kept =
        sumValue ((traded table tokenID kept).filter fun row =>
          now - 2 * 86400 ≤ hour.start row.timestamp ∧ hour.start row.timestamp ≤ now) := by
  have hsplit := lt_start_hour (now - 86400)
  have hcurrent : computeTokenVolumeUSD24h moment table now tokenID kept =
      sumValue ((traded table tokenID kept).filter fun row =>
        decide (hour.start (now - 86400) < hour.start row.timestamp) &&
          decide (now - 2 * 86400 ≤ hour.start row.timestamp ∧
            hour.start row.timestamp ≤ now)) := by
    unfold computeTokenVolumeUSD24h computeTokenLast2DaysVolumeUSD
    dsimp only
    rw [moment.subtract_day]
    exact sumItems_hourly moment table now tokenID kept
      fun t => decide (hour.start (now - 86400) < t)
  have hprevious : computeTokenPrevious24hVolumeUSD moment table now tokenID kept =
      sumValue ((traded table tokenID kept).filter fun row =>
        decide (hour.start row.timestamp ≤ hour.start (now - 86400)) &&
          decide (now - 2 * 86400 ≤ hour.start row.timestamp ∧
            hour.start row.timestamp ≤ now)) := by
    unfold computeTokenPrevious24hVolumeUSD computeTokenLast2DaysVolumeUSD
    dsimp only
    rw [moment.subtract_day]
    exact sumItems_hourly moment table now tokenID kept
      fun t => decide (t ≤ hour.start (now - 86400))
  refine ⟨?_, ?_⟩
  · rw [hcurrent, traded, List.filter_filter]
    congr 1
    apply List.filter_congr
    intro row hrow
    have hmem := List.mem_of_mem_filter hrow
    rw [Bool.eq_iff_iff, Bool.and_eq_true, Bool.and_eq_true, decide_eq_true_iff,
      decide_eq_true_iff, decide_eq_true_iff]
    constructor
    · exact fun h => ⟨h.1.1, h.1.2.2⟩
    · intro h
      -- what is after that hour is less than a day old
      have hlate := Bucketing.lt_of_start_lt h.1
      exact ⟨⟨h.1, by omega, h.2⟩, hkept row hmem hlate.le⟩
  · rw [hcurrent, hprevious]
    unfold sumValue
    symm
    rw [← sumOf_filter_add (fun row : XExchangeAnalyticsEntity => row.value)
      (fun row => decide (hour.start (now - 86400) < hour.start row.timestamp))
      ((traded table tokenID kept).filter _), List.filter_filter, List.filter_filter]
    congr 2
    apply List.filter_congr
    intro row _
    rw [← decide_not]
    simp only [not_lt]

/-- At a quarter past one on the second day, with all rows kept: the trade of that day
is current, and both are of the last two days. -/
theorem computeTokenLast2DaysVolumeUSD_eq_sample :
    computeTokenVolumeUSD24h utc twoDays 90900 "WEGLD-bd4d79" (fun _ => true) = 7 ∧
      computeTokenVolumeUSD24h utc twoDays 90900 "WEGLD-bd4d79" (fun _ => true) +
        computeTokenPrevious24hVolumeUSD utc twoDays 90900 "WEGLD-bd4d79" (fun _ => true) = 12 := by
  obtain ⟨hcurrent, hboth⟩ := computeTokenLast2DaysVolumeUSD_eq utc twoDays 90900 "WEGLD-bd4d79"
    (fun _ => true) (fun _ _ _ => rfl)
  rw [hboth, hcurrent]
  decide +kernel

end MxExchange.Tokens.TokenHistory
