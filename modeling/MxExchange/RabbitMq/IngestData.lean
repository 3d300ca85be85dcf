import MxExchange.Collections.JsMap
import MxExchange.Num.BigNumber
import Mathlib.Data.List.Infix

/-!
# `rabbitmq.consumer.ts`: what a batch adds up to

`updateIngestData` merges the data of one event into what the batch has so
far. The data of an event is an object, series over measures, so it names
each series once and each measure of a series once (`EventObject`). The
merge goes measure by measure and never replaces a series as a whole.

`measureOf_ingested` is the fold read at one measure: the values of the
events that have the measure, in their order, added up or overwritten. What
a batch means follows from it without another look at the merge
(`ingested_aggregates`).
-/

namespace MxExchange.RabbitMq

open MxExchange.Collections MxExchange.Num

/-! ## Measures -/

/-- What a handler returns for an event: series, and in each its measures. -/
abbrev EventData := List (String × List (String × BigNumber))

/-- The field `data` of the consumer. -/
abbrev IngestData := JsMap String (JsMap String BigNumber)

/-- Volumes and fees are added up, anything else is overwritten. -/
def isSummed (measure : String) : Bool :=
  "volume".toList <:+: measure.toLower.toList ∨ "fees".toList <:+: measure.toLower.toList

/-- One measure of one series. -/
def updateMeasure (measures : JsMap String BigNumber) (measure : String) (value : BigNumber) :
    JsMap String BigNumber :=
  JsMap.set measures measure <|
    if isSummed measure then
      match JsMap.get measures measure with
      | some old => old.plus value
      | none => value
    else value

/-- The measures of a series, one after the other. -/
def updateSeries (data : IngestData) (series : String) (measures : List (String × BigNumber)) :
    IngestData :=
  JsMap.set data series
    (measures.foldl (fun old m => updateMeasure old m.1 m.2) ((JsMap.get data series).getD []))

/-- What one handler returned is put into the data of the batch. -/
def updateIngestData (data : IngestData) (eventData : EventData) : IngestData :=
  eventData.foldl (fun data s => updateSeries data s.1 s.2) data

/-- A measure with what one event says of it. -/
def addUp (measure : String) (old : Option BigNumber) (value : BigNumber) : Option BigNumber :=
  some (if isSummed measure then
    match old with
    | some old => old.plus value
    | none => value
  else value)

/-- What a measure comes to: the sum, or the last value. -/
def combined (measure : String) : List BigNumber → Option BigNumber
  | [] => none
  | v :: vs => if isSummed measure then some (vs.foldl BigNumber.plus v) else (v :: vs).getLast?

/-- The values an event has for a measure of a series. -/
def valuesOf (series measure : String) (eventData : EventData) : List BigNumber :=
  eventData.flatMap fun s =>
    if s.1 = series then s.2.filterMap fun m => if m.1 = measure then some m.2 else none else []

/-- What has been ingested of a measure of a series. -/
def measureOf (data : IngestData) (series measure : String) : Option BigNumber :=
  (JsMap.get data series).bind fun measures => JsMap.get measures measure

section Measures

variable {series measure : String} {data : IngestData} {measures : JsMap String BigNumber}

/-- One measure is changed, by its rule. -/
theorem get_updateMeasure (name : String) (value : BigNumber) :
    JsMap.get (updateMeasure measures name value) measure =
      if name = measure then addUp measure (JsMap.get measures measure) value
      else JsMap.get measures measure := by
  rw [updateMeasure, JsMap.get_set]
  by_cases h : name = measure
  · subst h
    rw [if_pos rfl, if_pos rfl]
    rfl
  · rw [if_neg h, if_neg fun heq => h heq.symm]

/-- Several measures: those of this name, in their order. -/
theorem get_foldl_updateMeasure (values : List (String × BigNumber)) :
    JsMap.get (values.foldl (fun old m => updateMeasure old m.1 m.2) measures) measure =
      (values.filterMap fun m => if m.1 = measure then some m.2 else none).foldl (addUp measure)
        (JsMap.get measures measure) := by
  induction values generalizing measures with
  | nil => rfl
  | cons m values ih =>
    rw [List.foldl_cons, ih, get_updateMeasure]
    by_cases h : m.1 = measure <;> simp [h]

/-- What a series contributes to one of its measures. -/
theorem measureOf_updateSeries (name : String) (values : List (String × BigNumber)) :
    measureOf (updateSeries data name values) series measure =
      (valuesOf series measure [(name, values)]).foldl (addUp measure)
        (measureOf data series measure) := by
  unfold measureOf updateSeries valuesOf
  rw [JsMap.get_set, List.flatMap_cons, List.flatMap_nil, List.append_nil]
  by_cases h : name = series
  · subst h
    rw [if_pos rfl, if_pos rfl, Option.bind_some, get_foldl_updateMeasure]
    cases JsMap.get data name <;> rfl
  · rw [if_neg fun heq => h heq.symm, if_neg h]
    rfl

/-- What an event contributes to a measure. -/
theorem measureOf_updateIngestData (eventData : EventData) :
    measureOf (updateIngestData data eventData) series measure =
      (valuesOf series measure eventData).foldl (addUp measure)
        (measureOf data series measure) := by
  induction eventData generalizing data with
  | nil => rfl
  | cons s eventData ih =>
    have hvalues : valuesOf series measure (s :: eventData) =
        valuesOf series measure [s] ++ valuesOf series measure eventData := by
      simp [valuesOf]
    rw [hvalues, List.foldl_append, ← measureOf_updateSeries]
    exact ih

/-- Adding up from nothing. -/
theorem foldl_addUp (values : List BigNumber) :
    values.foldl (addUp measure) none = combined measure values := by
  cases values with
  | nil => rfl
  | cons v vs =>
    have hfirst : addUp measure none v = some v := by
      unfold addUp
      split <;> rfl
    rw [List.foldl_cons, hfirst, combined]
    -- the amounts of a measure that is summed are added up, of another one the last is
    -- kept
    cases hsum : isSummed measure with
    | true =>
      rw [if_pos rfl]
      clear hfirst
      induction vs generalizing v with
      | nil => rfl
      | cons w vs ih =>
        have hstep : addUp measure (some v) w = some (v.plus w) := by
          rw [addUp, hsum]
          rfl
        rw [List.foldl_cons, hstep, ih, List.foldl_cons]
    | false =>
      rw [if_neg (by simp)]
      clear hfirst
      induction vs generalizing v with
      | nil => rfl
      | cons w vs ih =>
        have hstep : addUp measure (some v) w = some w := by
          rw [addUp, hsum]
          rfl
        rw [List.foldl_cons, hstep, ih, List.getLast?_cons_cons]

end Measures

/-! ## Events with their objects -/

/-- What a handler returns for an event, as an object. -/
structure EventObject where
  data : EventData
  series_nodup : (JsMap.keys data).Nodup
  measures_nodup : ∀ s ∈ data, (JsMap.keys s.2).Nodup

/-- `eventData[series][measure]` -/
def EventObject.value? (e : EventObject) (series measure : String) : Option BigNumber :=
  measureOf e.data series measure

/-- The merges of a batch, on the emptied `data`. -/
def ingested (batch : List EventObject) : IngestData :=
  batch.foldl (fun data e => updateIngestData data e.data) []

/-- What the events of a batch have for a measure of a series, in order. -/
def valuesIn (batch : List EventObject) (series measure : String) : List BigNumber :=
  batch.filterMap fun e => e.value? series measure

/-- The sum of values, from zero. -/
def total (values : List BigNumber) : BigNumber := values.foldl BigNumber.plus (.ofNat 0)

/-- What is ingested for a batch: the series and the measures that some event
has, sums for volumes and fees, and the last value for the others. -/
structure Aggregates (data : IngestData) (batch : List EventObject) : Prop where
  series : ∀ series,
    (JsMap.get data series).isSome ↔ ∃ e ∈ batch, (JsMap.get e.data series).isSome
  measures : ∀ series measure,
    (measureOf data series measure).isSome ↔ ∃ e ∈ batch, (e.value? series measure).isSome
  summed : ∀ series measure value, isSummed measure = true →
    measureOf data series measure = some value → value = total (valuesIn batch series measure)
  overwritten : ∀ series measure, isSummed measure = false →
    measureOf data series measure = (valuesIn batch series measure).getLast?

/-! ## The fold at one measure -/

/-- An event has one value at most for a measure. -/
theorem EventObject.valuesOf_data (e : EventObject) (series measure : String) :
    valuesOf series measure e.data = (e.value? series measure).toList := by
  rw [valuesOf, JsMap.flatMap_key e.series_nodup, value?, measureOf]
  cases h : JsMap.get e.data series with
  | none => rfl
  | some measures =>
    have hnodup := e.measures_nodup _ (JsMap.mem_of_get h)
    exact JsMap.filterMap_key hnodup measure

section Fold

variable (batch earlier later : List EventObject) (e : EventObject) (series measure : String)

/-- Events are worked through in order. -/
theorem ingested_append :
    ingested (earlier ++ later) =
      later.foldl (fun data e => updateIngestData data e.data) (ingested earlier) := by
  rw [ingested, List.foldl_append]
  rfl

/-- One merge: the event has its say on the measure, if it has one. -/
theorem measureOf_updateIngestData_data (data : IngestData) :
    measureOf (updateIngestData data e.data) series measure =
      (e.value? series measure).toList.foldl (addUp measure) (measureOf data series measure) := by
  rw [measureOf_updateIngestData, e.valuesOf_data]

theorem measureOf_foldl (data : IngestData) :
    measureOf (batch.foldl (fun data e => updateIngestData data e.data) data) series measure =
      (valuesIn batch series measure).foldl (addUp measure) (measureOf data series measure) := by
  induction batch generalizing data with
  | nil => rfl
  | cons e batch ih =>
    rw [List.foldl_cons, ih, measureOf_updateIngestData_data, ← List.foldl_append]
    congr 1
    unfold valuesIn
    cases h : e.value? series measure <;> simp [h]

/-- A measure is what the values of the batch combine to. -/
theorem measureOf_ingested :
    measureOf (ingested batch) series measure =
      combined measure (valuesIn batch series measure) := by
  rw [ingested, measureOf_foldl, ← foldl_addUp]
  rfl

/-- A series is there from the first event that has it. -/
theorem get_updateSeries_isSome (data : IngestData) (name : String)
    (values : List (String × BigNumber)) :
    (JsMap.get (updateSeries data name values) series).isSome ↔
      name = series ∨ (JsMap.get data series).isSome := by
  rw [updateSeries, JsMap.get_set]
  by_cases h : series = name
  · simp [h]
  · rw [if_neg h]
    exact (or_iff_right fun heq => h heq.symm).symm

theorem get_updateIngestData_isSome (data : IngestData) (eventData : EventData) :
    (JsMap.get (updateIngestData data eventData) series).isSome ↔
      (JsMap.get data series).isSome ∨ (JsMap.get eventData series).isSome := by
  induction eventData generalizing data with
  | nil => exact (or_iff_left (by simp)).symm
  | cons s eventData ih =>
    rw [show updateIngestData data (s :: eventData) =
      updateIngestData (updateSeries data s.1 s.2) eventData from rfl, ih, get_updateSeries_isSome]
    by_cases h : s.1 = series
    · simp [JsMap.get, h]
    · rw [JsMap.get, if_neg h, or_iff_right h]

/-- The series of a batch are those of its events. -/
theorem get_ingested_isSome :
    (JsMap.get (ingested batch) series).isSome ↔
      ∃ e ∈ batch, (JsMap.get e.data series).isSome := by
  induction batch using List.reverseRecOn with
  | nil => simp [ingested]
  | append_singleton batch e ih =>
    rw [ingested_append, List.foldl_cons, List.foldl_nil, get_updateIngestData_isSome, ih]
    simp only [List.mem_append, List.mem_singleton, or_and_right, exists_or, exists_eq_left]

end Fold

/-! ## What a batch adds up to -/

section Combined

variable {measure : String} {values : List BigNumber}

theorem combined_isSome : (combined measure values).isSome ↔ values ≠ [] := by
  cases values with
  | nil => simp [combined]
  | cons v vs =>
    rw [combined]
    split
    next => simp
    next => simp

/-- A measure that is summed up: the total. -/
theorem combined_summed (h : isSummed measure = true) {value : BigNumber}
    (hvalue : combined measure values = some value) : value = total values := by
  cases values with
  | nil => cases hvalue
  | cons v vs =>
    rw [combined, if_pos h] at hvalue
    rw [total, List.foldl_cons, BigNumber.zero_plus]
    exact (Option.some.inj hvalue).symm

/-- Any other: the last value. -/
theorem combined_overwritten (h : isSummed measure = false) :
    combined measure values = values.getLast? := by
  cases values with
  | nil => rfl
  | cons v vs => rw [combined, if_neg (by simp [h])]

end Combined

/-- A measure has values if some event has one. -/
theorem valuesIn_ne_nil_iff (batch : List EventObject) (series measure : String) :
    valuesIn batch series measure ≠ [] ↔ ∃ e ∈ batch, (e.value? series measure).isSome := by
  rw [valuesIn, Ne, List.filterMap_eq_nil_iff]
  push Not
  simp only [Option.isSome_iff_ne_none]

/-- The data of a batch aggregates what its events returned. -/
theorem aggregates_ingested (batch : List EventObject) : Aggregates (ingested batch) batch where
  series := get_ingested_isSome batch
  measures series measure := by
    rw [measureOf_ingested, combined_isSome, valuesIn_ne_nil_iff]
  summed series measure value h hvalue := by
    rw [measureOf_ingested] at hvalue
    exact combined_summed h hvalue
  overwritten series measure h := by
    rw [measureOf_ingested, combined_overwritten h]

/-- Events that do not have a measure leave it as it is. -/
theorem measureOf_ingested_append {earlier later : List EventObject} {series measure : String}
    (h : ∀ e ∈ later, e.value? series measure = none) :
    measureOf (ingested (earlier ++ later)) series measure =
      measureOf (ingested earlier) series measure := by
  have hnone : valuesIn later series measure = [] := by
    by_contra hne
    obtain ⟨e, he, hsome⟩ := (valuesIn_ne_nil_iff later series measure).mp hne
    rw [h e he] at hsome
    cases hsome
  rw [ingested_append, measureOf_foldl, hnone]
  rfl

/-- Whatever is merged later, the measures of a batch stay, and untouched
ones with their value. -/
theorem ingested_aggregates (batch : List EventObject) :
    Aggregates (ingested batch) batch ∧
    ∀ earlier later, batch = earlier ++ later → ∀ series measure,
      ((measureOf (ingested earlier) series measure).isSome →
        (measureOf (ingested batch) series measure).isSome) ∧
      ((∀ e ∈ later, e.value? series measure = none) →
        measureOf (ingested batch) series measure =
          measureOf (ingested earlier) series measure) := by
  refine ⟨aggregates_ingested batch, ?_⟩
  rintro earlier later rfl series measure
  refine ⟨fun h => ?_, measureOf_ingested_append⟩
  obtain ⟨e, he, hsome⟩ := ((aggregates_ingested earlier).measures series measure).mp h
  rw [(aggregates_ingested (earlier ++ later)).measures]
  exact ⟨e, List.mem_append_left later he, hsome⟩

end MxExchange.RabbitMq
