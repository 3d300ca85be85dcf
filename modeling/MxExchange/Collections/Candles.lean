import MxExchange.Collections.TimeBuckets
import Mathlib.Order.Defs.LinearOrder

/-!
# Candles

A candle sums up the rows of an interval of time: the first and the last value,
the lowest and the highest. Rows that are candles themselves are summed up the
same way (`columnsOf`), and a row with one value is the candle of that value.

Two facts carry all uses. The candle of the candles of the fine buckets is the
candle of the rows (`IsSummary.rollUp`), since buckets are in the order of time.
And an interval without rows is filled with what came before: going through the
buckets with `carryForward` yields at each of them the candle of the bucket of
the last row so far (`carryForward_summaries`).
-/

namespace MxExchange.Collections

variable {ρ φ σ α : Type}

/-- The four values of a span of time. -/
@[ext]
structure Candle (α : Type) where
  «open» : α
  close : α
  low : α
  high : α
  deriving DecidableEq

namespace Candle

/-- All four of one value. -/
def ofValue (value : α) : Candle α := ⟨value, value, value, value⟩

/-- The four columns of a row that may be missing. -/
def columns (candle : Option (Candle α)) : Candle (Option α) :=
  ⟨candle.map (·.open), candle.map (·.close), candle.map (·.low), candle.map (·.high)⟩

/-- A row with none of its columns missing. -/
def complete (row : Candle (Option α)) : Option (Candle α) := do
  let first ← row.open
  let last ← row.close
  let low ← row.low
  let high ← row.high
  return ⟨first, last, low, high⟩

/-- What is missing in a column is taken from the other row. -/
def orElse (row other : Candle (Option α)) : Candle (Option α) :=
  ⟨row.open.or other.open, row.close.or other.close, row.low.or other.low,
    row.high.or other.high⟩

/-- A view with a column for each value keeps them together. -/
theorem columns_or (candle other : Option (Candle α)) :
    columns (candle.or other) = (columns candle).orElse (columns other) := by
  cases candle with
  | none => rfl
  | some candle => rfl

/-- Columns that came from a candle are that candle. -/
theorem complete_columns (candle : Option (Candle α)) : (columns candle).complete = candle := by
  cases candle with
  | none => rfl
  | some candle => rfl

end Candle

/-! ## The earliest and the latest row -/

section Extremes

/-- The row of least time, the first of them if there are several. -/
def earliest (time : ρ → ℤ) : List ρ → Option ρ
  | [] => none
  | row :: rows =>
    match earliest time rows with
    | none => some row
    | some other => if time other < time row then some other else some row

/-- The row of greatest time. -/
def latest (time : ρ → ℤ) (rows : List ρ) : Option ρ := earliest (fun row => -time row) rows

variable (time : ρ → ℤ)

/-- Rows have an earliest one, and nothing comes before it. -/
theorem exists_earliest : ∀ {rows : List ρ}, rows ≠ [] →
    ∃ r ∈ rows, earliest time rows = some r ∧ ∀ s ∈ rows, time r ≤ time s
  | [], h => absurd rfl h
  | [row], _ => ⟨row, List.mem_singleton_self row, rfl, fun s hs => by
      rw [List.mem_singleton.mp hs]⟩
  | row :: next :: rows, _ => by
    obtain ⟨r, hr, heq, hle⟩ := exists_earliest (List.cons_ne_nil next rows)
    rw [earliest, heq]
    by_cases hlt : time r < time row
    · refine ⟨r, List.mem_cons_of_mem _ hr, if_pos hlt, fun s hs => ?_⟩
      rcases List.mem_cons.mp hs with rfl | hs
      · exact hlt.le
      · exact hle s hs
    · refine ⟨row, List.mem_cons_self, if_neg hlt, fun s hs => ?_⟩
      rcases List.mem_cons.mp hs with rfl | hs
      · exact le_refl _
      · have := hle s hs
        omega

/-- Rows have a latest one, and nothing comes after it. -/
theorem exists_latest {rows : List ρ} (h : rows ≠ []) :
    ∃ r ∈ rows, latest time rows = some r ∧ ∀ s ∈ rows, time s ≤ time r := by
  obtain ⟨r, hr, heq, hle⟩ := exists_earliest (fun row => -time row) h
  refine ⟨r, hr, heq, fun s hs => ?_⟩
  have := hle s hs
  omega

end Extremes

/-! ## The candle of a list of rows -/

section Summary

variable [LinearOrder α] (time : ρ → ℤ) (candle : ρ → Candle α)

/-- The column in the earliest row. -/
def first (column : ρ → α) (rows : List ρ) : Option α := (earliest time rows).map column

/-- The column in the latest row. -/
def last (column : ρ → α) (rows : List ρ) : Option α := (latest time rows).map column

/-- The values of a query over rows: its first, its last, the least and the
greatest. -/
def columnsOf (rows : List ρ) : Candle (Option α) where
  «open» := first time (fun row => (candle row).open) rows
  close := last time (fun row => (candle row).close) rows
  low := (rows.map fun row => (candle row).low).min?
  high := (rows.map fun row => (candle row).high).max?

/-- The candle of the rows, if there is a row. -/
def summarise (rows : List ρ) : Option (Candle α) := (columnsOf time candle rows).complete

/-- `c` opens with one of the earliest rows and closes with one of the latest,
and its low and its high are the lowest and the highest. -/
structure IsSummary (rows : List ρ) (c : Candle α) : Prop where
  opens : ∃ r ∈ rows, (candle r).open = c.open ∧ ∀ s ∈ rows, time r ≤ time s
  closes : ∃ r ∈ rows, (candle r).close = c.close ∧ ∀ s ∈ rows, time s ≤ time r
  low_mem : ∃ r ∈ rows, (candle r).low = c.low
  low_le : ∀ s ∈ rows, c.low ≤ (candle s).low
  high_mem : ∃ r ∈ rows, (candle r).high = c.high
  le_high : ∀ s ∈ rows, (candle s).high ≤ c.high

/-- No two rows have the same time. -/
def DistinctTimes (rows : List ρ) : Prop := ∀ r ∈ rows, ∀ s ∈ rows, time r = time s → r = s

variable {time candle} {rows : List ρ} {c : Candle α}

/-- Rows that are left out take no time with them. -/
theorem DistinctTimes.filter (h : DistinctTimes time rows) (p : ρ → Bool) :
    DistinctTimes time (rows.filter p) :=
  fun r hr s hs => h r (List.mem_of_mem_filter hr) s (List.mem_of_mem_filter hs)

theorem columnsOf_nil : columnsOf time candle [] = Candle.columns none := rfl

theorem summarise_nil : summarise time candle [] = none := rfl

variable (time candle) in
/-- Where there are rows the columns are those of their summary. -/
theorem exists_columnsOf (h : rows ≠ []) :
    ∃ c, columnsOf time candle rows = Candle.columns (some c) ∧ IsSummary time candle rows c := by
  obtain ⟨early, hearlyMem, hearly, hearlyLe⟩ := exists_earliest time h
  obtain ⟨late, hlateMem, hlate, hleLate⟩ := exists_latest time h
  -- there are rows, so `MIN` and `MAX` are not null
  have hmin : (rows.map fun row => (candle row).low).min? ≠ none := by
    rw [Ne, List.min?_eq_none_iff, List.map_eq_nil_iff]
    exact h
  have hmax : (rows.map fun row => (candle row).high).max? ≠ none := by
    rw [Ne, List.max?_eq_none_iff, List.map_eq_nil_iff]
    exact h
  obtain ⟨low, hlow⟩ := Option.ne_none_iff_exists'.mp hmin
  obtain ⟨high, hhigh⟩ := Option.ne_none_iff_exists'.mp hmax
  refine ⟨⟨(candle early).open, (candle late).close, low, high⟩, ?_, ?_⟩
  · unfold columnsOf first last
    rw [hearly, hlate, hlow, hhigh]
    rfl
  · obtain ⟨hlowMem, hlowLe⟩ := List.min?_eq_some_iff.mp hlow
    obtain ⟨hhighMem, hhighLe⟩ := List.max?_eq_some_iff.mp hhigh
    exact
      { opens := ⟨early, hearlyMem, rfl, hearlyLe⟩
        closes := ⟨late, hlateMem, rfl, hleLate⟩
        low_mem := List.mem_map.mp hlowMem
        low_le := fun s hs => hlowLe _ (List.mem_map_of_mem hs)
        high_mem := List.mem_map.mp hhighMem
        le_high := fun s hs => hhighLe _ (List.mem_map_of_mem hs) }

variable (time candle) in
/-- Where there are rows there is a summary. -/
theorem exists_summarise (h : rows ≠ []) :
    ∃ c, summarise time candle rows = some c ∧ IsSummary time candle rows c := by
  obtain ⟨c, hc, hsummary⟩ := exists_columnsOf time candle h
  refine ⟨c, ?_, hsummary⟩
  unfold summarise
  rw [hc, Candle.complete_columns]

/-- Either all four columns are there or none of them. -/
theorem columnsOf_eq (rows : List ρ) :
    columnsOf time candle rows = Candle.columns (summarise time candle rows) := by
  by_cases h : rows = []
  · rw [h, summarise_nil, columnsOf_nil]
  · obtain ⟨c, hc, -⟩ := exists_columnsOf time candle h
    unfold summarise
    rw [hc, Candle.complete_columns]

/-- A summary that was computed is one. -/
theorem isSummary_of_eq_some (h : summarise time candle rows = some c) :
    IsSummary time candle rows c := by
  have hne : rows ≠ [] := by
    intro hnil
    rw [hnil, summarise_nil] at h
    cases h
  obtain ⟨c', hc', hsummary⟩ := exists_summarise time candle hne
  rw [h] at hc'
  rw [Option.some.inj hc']
  exact hsummary

/-- Where times are distinct there is one candle only. -/
theorem IsSummary.eq_some (h : IsSummary time candle rows c) (htimes : DistinctTimes time rows) :
    summarise time candle rows = some c := by
  obtain ⟨r, hr, hopen, hfirst⟩ := h.opens
  obtain ⟨s, hs, hclose, hlast⟩ := h.closes
  obtain ⟨c', hc', h'⟩ := exists_summarise time candle
    (List.ne_nil_of_mem hr)
  obtain ⟨r', hr', hopen', hfirst'⟩ := h'.opens
  obtain ⟨s', hs', hclose', hlast'⟩ := h'.closes
  obtain ⟨u, hu, hlow⟩ := h.low_mem
  obtain ⟨u', hu', hlow'⟩ := h'.low_mem
  obtain ⟨v, hv, hhigh⟩ := h.high_mem
  obtain ⟨v', hv', hhigh'⟩ := h'.high_mem
  -- the two may disagree about which row is first only if the times are equal
  have hrr : r' = r := htimes r' hr' r hr (le_antisymm (hfirst' r hr) (hfirst r' hr'))
  have hss : s' = s := htimes s' hs' s hs (le_antisymm (hlast s' hs') (hlast' s hs))
  rw [hc', Option.some.injEq]
  apply Candle.ext
  · rw [← hopen', ← hopen, hrr]
  · rw [← hclose', ← hclose, hss]
  · have hle := h'.low_le u hu
    have hge := h.low_le u' hu'
    rw [hlow] at hle
    rw [hlow'] at hge
    exact le_antisymm hle hge
  · have hle := h.le_high v' hv'
    have hge := h'.le_high v hv
    rw [hhigh'] at hle
    rw [hhigh] at hge
    exact le_antisymm hle hge

end Summary

/-! ## The candle of candles -/

/-- **Roll-up.** If each fine row is the candle of the rows in its bucket, and
each row is in the bucket of a fine row, then the candle of the fine rows is the
candle of the rows. -/
theorem IsSummary.rollUp [LinearOrder α] {B : Bucketing} {time : ρ → ℤ} {candle : ρ → Candle α}
    {start : φ → ℤ} {fine : φ → Candle α} {rows : List ρ} {fines : List φ} {c : Candle α}
    (hfine : ∀ f ∈ fines,
      IsSummary time candle (rows.filter fun r => B.start (time r) = start f) (fine f))
    (hcover : ∀ r ∈ rows, ∃ f ∈ fines, start f = B.start (time r))
    (h : IsSummary start fine fines c) : IsSummary time candle rows c where
  opens := by
    obtain ⟨f, hf, hopen, hfirst⟩ := h.opens
    obtain ⟨r, hr, hropen, hrfirst⟩ := (hfine f hf).opens
    obtain ⟨hrmem, hrstart⟩ := List.mem_filter.mp hr
    refine ⟨r, hrmem, hropen.trans hopen, fun s hs => ?_⟩
    obtain ⟨g, hg, hgs⟩ := hcover s hs
    rcases (hfirst g hg).eq_or_lt with heq | hlt
    · -- the same bucket, where `r` is the earliest
      exact hrfirst s (List.mem_filter.mpr ⟨hs, by rw [decide_eq_true_iff, heq, hgs]⟩)
    · rw [decide_eq_true_iff] at hrstart
      exact (Bucketing.lt_of_start_lt (B := B) (by rw [hrstart, ← hgs]; exact hlt)).le
  closes := by
    obtain ⟨f, hf, hclose, hlast⟩ := h.closes
    obtain ⟨r, hr, hrclose, hrlast⟩ := (hfine f hf).closes
    obtain ⟨hrmem, hrstart⟩ := List.mem_filter.mp hr
    refine ⟨r, hrmem, hrclose.trans hclose, fun s hs => ?_⟩
    -- either the bucket closes last and `r` is the latest in it, or it closes later
    -- than the bucket of `s`
    obtain ⟨g, hg, hgs⟩ := hcover s hs
    rcases (hlast g hg).eq_or_lt with heq | hlt
    · exact hrlast s (List.mem_filter.mpr ⟨hs, by rw [decide_eq_true_iff, ← heq, hgs]⟩)
    · rw [decide_eq_true_iff] at hrstart
      exact (Bucketing.lt_of_start_lt (B := B) (by rw [hrstart, ← hgs]; exact hlt)).le
  low_mem := by
    obtain ⟨f, hf, hlow⟩ := h.low_mem
    obtain ⟨r, hr, hrlow⟩ := (hfine f hf).low_mem
    exact ⟨r, List.mem_of_mem_filter hr, hrlow.trans hlow⟩
  low_le s hs := by
    obtain ⟨g, hg, hgs⟩ := hcover s hs
    have hmem : s ∈ rows.filter fun r => B.start (time r) = start g :=
      List.mem_filter.mpr ⟨hs, by rw [decide_eq_true_iff, hgs]⟩
    exact (h.low_le g hg).trans ((hfine g hg).low_le s hmem)
  high_mem := by
    obtain ⟨f, hf, hhigh⟩ := h.high_mem
    obtain ⟨r, hr, hrhigh⟩ := (hfine f hf).high_mem
    exact ⟨r, List.mem_of_mem_filter hr, hrhigh.trans hhigh⟩
  le_high s hs := by
    obtain ⟨g, hg, hgs⟩ := hcover s hs
    have hmem : s ∈ rows.filter fun r => B.start (time r) = start g :=
      List.mem_filter.mpr ⟨hs, by rw [decide_eq_true_iff, hgs]⟩
    exact ((hfine g hg).le_high s hmem).trans (h.le_high g hg)

/-! ## The last candle there is -/

/-- Each missing observation is the last one before it. -/
def carryForward (previous : Option σ) : List (Option σ) → List (Option σ)
  | [] => []
  | observation :: rest =>
    observation.or previous :: carryForward (observation.or previous) rest

section Carry

variable [LinearOrder α] (B : Bucketing) (time : ρ → ℤ) (candle : ρ → Candle α)

/-- The candle of the bucket of the latest row. -/
def lastCandle (rows : List ρ) : Option (Candle α) :=
  (latest time rows).bind fun last =>
    summarise time candle (rows.filter fun row => B.start (time row) = B.start (time last))

variable {B time candle} {rows : List ρ}

theorem lastCandle_nil : lastCandle B time candle [] = none := rfl

/-- The last candle is that of the bucket of any latest row. -/
theorem lastCandle_eq {r : ρ} (hmem : r ∈ rows) (hlatest : ∀ s ∈ rows, time s ≤ time r) :
    lastCandle B time candle rows =
      summarise time candle (rows.filter fun row => B.start (time row) = B.start (time r)) := by
  obtain ⟨s, hs, heq, hle⟩ := exists_latest time (List.ne_nil_of_mem hmem)
  have htime : time s = time r := le_antisymm (hlatest s hs) (hle r hmem)
  unfold lastCandle
  rw [heq, Option.bind_some, htime]

variable (time candle) in
/-- Where there are rows there is a last candle. -/
theorem exists_lastCandle (h : rows ≠ []) : ∃ c, lastCandle B time candle rows = some c := by
  obtain ⟨r, hmem, -, hlatest⟩ := exists_latest time h
  have hne : (rows.filter fun row => B.start (time row) = B.start (time r)) ≠ [] :=
    List.ne_nil_of_mem (List.mem_filter.mpr ⟨hmem, by rw [decide_eq_true_iff]⟩)
  obtain ⟨c, hc, -⟩ := exists_summarise time candle hne
  exact ⟨c, (lastCandle_eq hmem hlatest).trans hc⟩

/-- The last candle closes with the latest row. -/
theorem map_close_lastCandle (htimes : DistinctTimes time rows) :
    (lastCandle B time candle rows).map (·.close) =
      last time (fun row => (candle row).close) rows := by
  by_cases hnil : rows = []
  · rw [hnil]
    rfl
  · obtain ⟨r, hmem, heq, hlatest⟩ := exists_latest time hnil
    have hbucket : r ∈ rows.filter fun row => B.start (time row) = B.start (time r) :=
      List.mem_filter.mpr ⟨hmem, by rw [decide_eq_true_iff]⟩
    obtain ⟨c, hc, hsummary⟩ := exists_summarise time candle (List.ne_nil_of_mem hbucket)
    obtain ⟨s, hs, hclose, hlast⟩ := hsummary.closes
    have hsmem := List.mem_of_mem_filter hs
    have hsame : s = r := htimes s hsmem r hmem (le_antisymm (hlatest s hsmem) (hlast r hbucket))
    unfold last
    rw [lastCandle_eq hmem hlatest, hc, heq, Option.map_some, Option.map_some, ← hclose, hsame]

variable (time candle) in
/-- The last candle is that of the buckets from `b` on, if they have rows, and
else that of the buckets before. -/
theorem lastCandle_split (rows : List ρ) (b : ℤ) :
    lastCandle B time candle rows =
      (lastCandle B time candle (rows.filter fun row => b ≤ B.start (time row))).or
        (lastCandle B time candle (rows.filter fun row => B.start (time row) < b)) := by
  -- without rows from `b` on all are before it; else the latest of all is the latest of
  -- those
  by_cases h : (rows.filter fun row => b ≤ B.start (time row)) = []
  · have hbefore : (rows.filter fun row => B.start (time row) < b) = rows := by
      rw [List.filter_eq_self]
      intro r hr
      have hnot := List.filter_eq_nil_iff.mp h r hr
      rw [decide_eq_true_iff] at hnot ⊢
      omega
    rw [h, hbefore, lastCandle_nil, Option.none_or]
  · obtain ⟨r, hmem, -, hlatest⟩ := exists_latest time h
    obtain ⟨hin, hfrom⟩ := List.mem_filter.mp hmem
    rw [decide_eq_true_iff] at hfrom
    have hall : ∀ s ∈ rows, time s ≤ time r := by
      intro s hs
      by_cases hs' : b ≤ B.start (time s)
      · exact hlatest s (List.mem_filter.mpr ⟨hs, by rw [decide_eq_true_iff]; exact hs'⟩)
      · exact (Bucketing.lt_of_start_lt (B := B) (by omega)).le
    have hsame : (rows.filter fun row => b ≤ B.start (time row)).filter
        (fun row => B.start (time row) = B.start (time r)) =
          rows.filter fun row => B.start (time row) = B.start (time r) := by
      rw [List.filter_filter]
      apply List.filter_congr
      intro s _
      rw [Bool.and_eq_left_iff_imp, decide_eq_true_iff, decide_eq_true_iff]
      omega
    obtain ⟨c, hc⟩ := exists_lastCandle (B := B) time candle h
    rw [hc, Option.some_or, ← hc, lastCandle_eq hmem hlatest, lastCandle_eq hin hall, hsame]

/-- Rows of one bucket. -/
theorem lastCandle_bucket (rows : List ρ) (b : ℤ) :
    lastCandle B time candle (rows.filter fun row => B.start (time row) = b) =
      summarise time candle (rows.filter fun row => B.start (time row) = b) := by
  by_cases h : (rows.filter fun row => B.start (time row) = b) = []
  · rw [h, lastCandle_nil, summarise_nil]
  · obtain ⟨r, hmem, -, hlatest⟩ := exists_latest time h
    rw [lastCandle_eq hmem hlatest, List.filter_filter]
    congr 1
    apply List.filter_congr
    intro r _
    have hb := (List.mem_filter.mp hmem).2
    rw [decide_eq_true_iff] at hb
    rw [hb, Bool.and_self]

/-- Up to a bucket the last candle is its own, or the last one before it. -/
theorem lastCandle_le (rows : List ρ) (b : ℤ) :
    lastCandle B time candle (rows.filter fun row => B.start (time row) ≤ b) =
      (summarise time candle (rows.filter fun row => B.start (time row) = b)).or
        (lastCandle B time candle (rows.filter fun row => B.start (time row) < b)) := by
  rw [lastCandle_split time candle _ b, List.filter_filter, List.filter_filter, ← lastCandle_bucket]
  congr 2
  · apply List.filter_congr
    intro r _
    rw [Bool.eq_iff_iff, Bool.and_eq_true, decide_eq_true_iff, decide_eq_true_iff,
      decide_eq_true_iff]
    omega
  · apply List.filter_congr
    intro r _
    rw [Bool.eq_iff_iff, Bool.and_eq_true, decide_eq_true_iff, decide_eq_true_iff]
    omega

variable (time candle) in
/-- **Carrying forward.** Along buckets that leave none of the later rows out,
each bucket gets the candle of the last bucket with rows so far. -/
theorem carryForward_summaries (rows : List ρ) :
    ∀ (l : List ℤ), l.Pairwise (· < ·) →
      (∀ row ∈ rows, B.start (time row) ∈ l ∨ ∀ b ∈ l, B.start (time row) < b) →
      ∀ carried, (∀ b ∈ l.head?,
        carried = lastCandle B time candle (rows.filter fun row => B.start (time row) < b)) →
      carryForward carried (l.map fun b =>
          summarise time candle (rows.filter fun row => B.start (time row) = b)) =
        l.map fun b => lastCandle B time candle (rows.filter fun row => B.start (time row) ≤ b)
  | [], _, _, _, _ => rfl
  | b :: l, hsorted, hrows, carried, hcarried => by
    obtain ⟨hb, hl⟩ := List.pairwise_cons.mp hsorted
    have hstep :
        (summarise time candle (rows.filter fun row => B.start (time row) = b)).or carried =
          lastCandle B time candle (rows.filter fun row => B.start (time row) ≤ b) := by
      rw [lastCandle_le, hcarried b rfl]
    -- what is carried on to the rest is the candle up to `b`
    rw [List.map_cons, List.map_cons, carryForward, hstep]
    congr 1
    apply carryForward_summaries rows l hl
    · intro row hrow
      rcases hrows row hrow with hmem | hbefore
      · rcases List.mem_cons.mp hmem with heq | hmem
        · exact Or.inr fun b' hb' => heq ▸ hb b' hb'
        · exact Or.inl hmem
      · exact Or.inr fun b' hb' => hbefore b' (List.mem_cons_of_mem _ hb')
    · -- between two neighbours there are no rows
      intro b' hb'
      have hmem' : b' ∈ l := List.mem_of_mem_head? hb'
      congr 1
      apply List.filter_congr
      intro row hrow
      rw [decide_eq_decide]
      have hlt := hb b' hmem'
      rcases hrows row hrow with hmem | hbefore
      · rcases List.mem_cons.mp hmem with heq | hmem
        · omega
        · have hle : b' ≤ B.start (time row) := by
            cases l with
            | nil => cases hmem'
            | cons x l =>
              obtain rfl : x = b' := Option.some.inj hb'
              rcases List.mem_cons.mp hmem with heq | hmem
              · exact heq.ge
              · exact ((List.pairwise_cons.mp hl).1 _ hmem).le
          have hblt := hb _ hmem
          omega
      · have hb0 := hbefore b List.mem_cons_self
        have hb1 := hbefore b' (List.mem_cons_of_mem _ hmem')
        omega

end Carry

end MxExchange.Collections
