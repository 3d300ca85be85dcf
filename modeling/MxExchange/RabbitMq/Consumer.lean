import MxExchange.Collections.Runs
import MxExchange.RabbitMq.IngestData

/-!
# `rabbitmq.consumer.ts`: deliveries of events

`consumeEvents` works through a batch of events. The handlers of trades,
liquidity and price discovery return measures, which the consumer adds up in
its field `data` and ingests at the end of the batch. The field is shared by
all executions: each empties it at its start.

Others get a turn only where an execution waits: for a handler, for the
addresses, for the ingestion. What a handler has returned is merged, and
after the last handler ingested, without waiting in between
(`Consumer.proceed`).

How many deliveries are in flight at once is the broker's business, and the
module asks for one at a time (`prefetchCount`). Then every delivery that
comes to its end has ingested its own measures, once and under its own
timestamp (`delivery_ingests_own`). With two at a time, one ingests the
measures of the other as well (`overlapping_deliveries`).
-/

namespace MxExchange.RabbitMq

open MxExchange.Collections MxExchange.Num

/-! ## The consumer -/

/-- A raw event, as the broker delivers it. -/
structure RawEvent where
  address : String
  identifier : String
  name : String
  data : String
  deriving DecidableEq

/-- What the consumer does with an event of a name: call a handler that
returns measures, or one that returns none, or, when a pair is created, call
a handler and then read the addresses anew. -/
inductive EventKind where
  | ingests
  | handled
  | createPair
  | ignored
  deriving DecidableEq

/-- The names the consumer knows. -/
structure EventNames where
  ESDT_LOCAL_BURN : String
  ESDT_LOCAL_MINT : String
  kind : String → EventKind
  /-- Worked through even if there is no data. -/
  withoutData : String → Bool

/-- Burns and mints come from anywhere, other events from the addresses. -/
def isFiltered (names : EventNames) (filterAddresses : List String) (rawEvent : RawEvent) : Bool :=
  rawEvent.identifier = names.ESDT_LOCAL_BURN ∨ rawEvent.identifier = names.ESDT_LOCAL_MINT ∨
    rawEvent.address ∈ filterAddresses

/-- The events of a batch that are not skipped. -/
def processedEvents (names : EventNames) (filterAddresses : List String) (batch : List RawEvent) :
    List RawEvent :=
  (batch.filter (isFiltered names filterAddresses)).filter fun rawEvent =>
    ¬(rawEvent.data = "" ∧ names.withoutData rawEvent.name = false) ∧
      names.kind rawEvent.name ≠ .ignored

/-- Where an execution waits: for the handler of its first pending event, for
the addresses, for its turn now that they are there, or for the ingestion. Or
it is at its end, or thrown out. -/
inductive Phase where
  | running
  | refilling
  | refilled
  | ingesting
  | done
  | failed
  deriving DecidableEq

/-- What a handler has returned for an event. -/
structure Contribution where
  event : RawEvent
  eventData : EventObject
  timestamp : ℕ

/-- An execution of `consumeEvents` for a batch: the events of it that are to
be worked through, those still pending, the local `timestamp`, and what the
handlers have returned. -/
structure Delivery where
  batch : List RawEvent
  events : List RawEvent
  pending : List RawEvent
  timestamp : Option ℕ
  contributions : List Contribution
  phase : Phase

/-- A call of `analyticsWrite.ingest`, by one of the deliveries. -/
structure Ingestion where
  delivery : ℕ
  data : IngestData
  Time : Option ℕ
  deriving DecidableEq

/-- The deliveries and the data they share. -/
structure Consumer where
  filterAddresses : List String
  data : IngestData
  deliveries : List Delivery
  ingestions : List Ingestion

/-- `prefetchCount` of the module. -/
def prefetchCount : ℕ := 1

/-- A delivery that has not been acknowledged. -/
def Phase.inFlight : Phase → Bool
  | running => true
  | refilling => true
  | refilled => true
  | ingesting => true
  | done => false
  | failed => false

/-- How many deliveries are in flight. -/
def Consumer.inFlight (s : Consumer) : ℕ := s.deliveries.countP fun d => d.phase.inFlight

/-- On to the next event. After the last one the execution ingests what is in
`data`, whoever has put it there, and is at its end if there is nothing. -/
def Consumer.proceed (s : Consumer) (i : ℕ) (d : Delivery) : Consumer :=
  match d.pending with
  | _ :: _ => { s with deliveries := s.deliveries.set i { d with phase := .running } }
  | [] =>
    if s.data = [] then { s with deliveries := s.deliveries.set i { d with phase := .done } }
    else { s with
      ingestions := s.ingestions ++ [⟨i, s.data, d.timestamp⟩]
      deliveries := s.deliveries.set i { d with phase := .ingesting } }

/-- What can happen next: the broker delivers a batch, a handler returns
(with measures or without) or throws, the addresses arrive, an execution goes
on with them, or its ingestion is over. `analyticsWrite.ingest` does not
throw. -/
inductive Consumer.Action where
  | deliver (batch : List RawEvent)
  | returnMeasures (i : ℕ) (eventData : EventObject) (timestamp : ℕ)
  | returnNone (i : ℕ)
  | fail (i : ℕ)
  | refill (i : ℕ) (addresses : List String)
  | resume (i : ℕ)
  | finish (i : ℕ)

/-- A segment between two awaits, of one of the deliveries. -/
def Consumer.step (names : EventNames) (prefetchCount : ℕ) (s : Consumer) :
    Consumer.Action → Option Consumer
  | .deliver batch =>
    let events := processedEvents names s.filterAddresses batch
    let d : Delivery := ⟨batch, events, events, none, [], .running⟩
    if s.inFlight < prefetchCount then
      some (({ s with data := [], deliveries := s.deliveries ++ [d] } : Consumer).proceed
        s.deliveries.length d)
    else none
  | .returnMeasures i eventData timestamp => do
    let d ← s.deliveries[i]?
    match d.phase, d.pending with
    | .running, rawEvent :: pending =>
      if names.kind rawEvent.name = .ingests then
        let d' : Delivery := { d with
          pending := pending
          timestamp := some timestamp
          contributions := d.contributions ++ [⟨rawEvent, eventData, timestamp⟩] }
        some (({ s with
          data := updateIngestData s.data eventData.data
          deliveries := s.deliveries.set i d' } : Consumer).proceed i d')
      else none
    | _, _ => none
  | .returnNone i => do
    let d ← s.deliveries[i]?
    match d.phase, d.pending with
    | .running, rawEvent :: pending =>
      match names.kind rawEvent.name with
      | .createPair => some { s with
          -- emptied before the new addresses are waited for
          filterAddresses := []
          deliveries := s.deliveries.set i { d with pending := pending, phase := .refilling } }
      | .handled =>
        let d' : Delivery := { d with pending := pending }
        some (({ s with deliveries := s.deliveries.set i d' } : Consumer).proceed i d')
      | _ => none
    | _, _ => none
  | .fail i => do
    let d ← s.deliveries[i]?
    match d.phase with
    | .running | .refilling =>
      some { s with deliveries := s.deliveries.set i { d with phase := .failed } }
    | _ => none
  | .refill i addresses => do
    let d ← s.deliveries[i]?
    match d.phase with
    | .refilling => some { s with
        filterAddresses := addresses
        deliveries := s.deliveries.set i { d with phase := .refilled } }
    | _ => none
  | .resume i => do
    let d ← s.deliveries[i]?
    match d.phase with
    | .refilled => some (s.proceed i d)
    | _ => none
  | .finish i => do
    let d ← s.deliveries[i]?
    match d.phase with
    | .ingesting => some { s with deliveries := s.deliveries.set i { d with phase := .done } }
    | _ => none

/-- Nothing has been delivered. -/
def Consumer.start (filterAddresses : List String) : Consumer where
  filterAddresses := filterAddresses
  data := []
  deliveries := []
  ingestions := []

/-! ## What a delivery owes -/

/-- What the handlers of a delivery have returned. -/
def Delivery.answers (d : Delivery) : List EventObject :=
  d.contributions.map Contribution.eventData

/-- The one ingestion of a delivery, none if it has no measures. -/
def ownIngestion (i : ℕ) (d : Delivery) : List Ingestion :=
  if ingested d.answers = [] then []
  else [⟨i, ingested d.answers, d.contributions.getLast?.map Contribution.timestamp⟩]

/-! ## One delivery at a time -/

section Invariant

variable {names : EventNames} {s s' : Consumer} {i : ℕ} {d d' : Delivery}

/-- Those who wait for handlers have their measures in `data`, and those who
are past the ingestion have ingested them. -/
structure Delivery.Ok (names : EventNames) (s : Consumer) (i : ℕ) (d : Delivery) : Prop where
  filtered : ∃ addresses, d.events = processedEvents names addresses d.batch
  events : d.contributions.map Contribution.event ++
      d.pending.filter (fun rawEvent => names.kind rawEvent.name = .ingests) =
    d.events.filter fun rawEvent => names.kind rawEvent.name = .ingests
  timestamp : d.timestamp = d.contributions.getLast?.map Contribution.timestamp
  through : d.phase = .ingesting ∨ d.phase = .done → d.pending = []
  data : d.phase = .running ∨ d.phase = .refilling ∨ d.phase = .refilled →
    s.data = ingested d.answers
  ingested : s.ingestions.filter (fun ingestion => ingestion.delivery = i) =
    if d.phase = .ingesting ∨ d.phase = .done then ownIngestion i d else []

/-- What holds of every state that is reached while one delivery at most is in
flight. -/
structure Consumer.Inv (names : EventNames) (s : Consumer) : Prop where
  alone : ∀ (i j : ℕ) (d e : Delivery), s.deliveries[i]? = some d → s.deliveries[j]? = some e →
    d.phase.inFlight = true → e.phase.inFlight = true → i = j
  known : ∀ ingestion ∈ s.ingestions, ingestion.delivery < s.deliveries.length
  deliveries : ∀ (i : ℕ) (d : Delivery), s.deliveries[i]? = some d → d.Ok names s i

theorem Consumer.inv_start (filterAddresses : List String) :
    (Consumer.start filterAddresses).Inv names where
  alone := fun _ _ _ _ h => absurd h (by simp [Consumer.start])
  known := fun _ h => absurd h (by simp [Consumer.start])
  deliveries := fun _ _ h => absurd h (by simp [Consumer.start])

/-- A delivery that is not in flight does not care about `data`. -/
theorem Delivery.Ok.frame (h : d.Ok names s i) (hphase : d.phase.inFlight = false)
    (hingestions : s'.ingestions.filter (fun ingestion => ingestion.delivery = i) =
      s.ingestions.filter fun ingestion => ingestion.delivery = i) : d.Ok names s' i where
  filtered := h.filtered
  events := h.events
  timestamp := h.timestamp
  through := h.through
  data := by
    intro h
    rcases h with hp | hp | hp
    · exact absurd hphase (by simp [hp, Phase.inFlight])
    · exact absurd hphase (by simp [hp, Phase.inFlight])
    · exact absurd hphase (by simp [hp, Phase.inFlight])
  ingested := hingestions.trans h.ingested

/-- The delivery in flight goes on. -/
theorem Consumer.Inv.update (hinv : s.Inv names) (hi : s.deliveries[i]? = some d)
    (hflight : d.phase.inFlight = true) (hset : s'.deliveries = s.deliveries.set i d')
    (hingestions : ∀ j, j ≠ i →
      s'.ingestions.filter (fun ingestion => ingestion.delivery = j) =
        s.ingestions.filter fun ingestion => ingestion.delivery = j)
    (hknown : ∀ ingestion ∈ s'.ingestions, ingestion.delivery < s.deliveries.length)
    (hok : d'.Ok names s' i) : s'.Inv names := by
  have hcases : ∀ (j : ℕ) (e : Delivery), s'.deliveries[j]? = some e →
      (j = i ∧ e = d') ∨ (j ≠ i ∧ s.deliveries[j]? = some e) := by
    intro j e hj
    rw [hset, List.getElem?_set] at hj
    split at hj
    next hij =>
      split at hj
      next => exact Or.inl ⟨hij.symm, (Option.some.inj hj).symm⟩
      next => exact absurd hj (by simp)
    next hij => exact Or.inr ⟨fun h => hij h.symm, hj⟩
  -- whoever else was in flight would have been in flight with it
  have hgrounded : ∀ (j : ℕ) (e : Delivery), j ≠ i → s.deliveries[j]? = some e →
      e.phase.inFlight = false := by
    intro j e hne hj
    cases hp : e.phase.inFlight with
    | false => rfl
    | true => exact absurd (hinv.alone j i e d hj hi hp hflight) hne
  constructor
  · intro j k e e' hj hk he he'
    rcases hcases j e hj with ⟨rfl, -⟩ | ⟨hne, hj'⟩
    · rcases hcases k e' hk with ⟨rfl, -⟩ | ⟨hne', hk'⟩
      · rfl
      · exact absurd he' (by simp [hgrounded k e' hne' hk'])
    · exact absurd he (by simp [hgrounded j e hne hj'])
  · intro ingestion h
    rw [hset, List.length_set]
    exact hknown ingestion h
  · intro j e hj
    rcases hcases j e hj with ⟨rfl, rfl⟩ | ⟨hne, hj'⟩
    · exact hok
    · exact (hinv.deliveries j e hj').frame (hgrounded j e hne hj') (hingestions j hne)

/-- What is ingested is the delivery's own, and so is the timestamp. -/
theorem Consumer.Inv.proceed (hinv : s.Inv names) (hi : s.deliveries[i]? = some d)
    (hphase : d.phase = .running ∨ d.phase = .refilled) : (s.proceed i d).Inv names := by
  have hold := hinv.deliveries i d hi
  have hflight : d.phase.inFlight = true := by
    rcases hphase with h | h <;> rw [h] <;> rfl
  have hdata : s.data = ingested d.answers :=
    hold.data (hphase.imp_right Or.inr)
  have hingested := hold.ingested
  rw [if_neg (by rcases hphase with h | h <;> simp [h])] at hingested
  have hlt := (List.getElem?_eq_some_iff.mp hi).1
  -- there is more to take up, or nothing to ingest, or the data is ingested; the last
  -- two close the delivery
  unfold Consumer.proceed
  split
  next =>
    refine hinv.update hi hflight rfl (fun _ _ => rfl) hinv.known ⟨hold.filtered, hold.events,
      hold.timestamp, fun h => absurd h (by simp), fun _ => hdata, ?_⟩
    rw [if_neg (by simp)]
    exact hingested
  next hpending =>
    split
    next hempty =>
      refine hinv.update hi hflight rfl (fun _ _ => rfl) hinv.known ⟨hold.filtered, hold.events,
        hold.timestamp, fun _ => hpending, fun h => absurd h (by simp), ?_⟩
      rw [if_pos (Or.inr rfl)]
      show s.ingestions.filter _ = ownIngestion i d
      rw [hingested, ownIngestion, if_pos (hdata.symm.trans hempty)]
    next hsome =>
      refine hinv.update hi hflight rfl ?_ ?_ ⟨hold.filtered, hold.events, hold.timestamp,
        fun _ => hpending, fun h => absurd h (by simp), ?_⟩
      · intro j hne
        show (s.ingestions ++ [_]).filter _ = _
        rw [List.filter_append, List.filter_cons_of_neg (by simpa using fun h => hne h.symm),
          List.filter_nil, List.append_nil]
      · intro ingestion hmem
        rcases List.mem_append.mp hmem with hmem | hmem
        · exact hinv.known ingestion hmem
        · rw [List.mem_singleton.mp hmem]
          exact hlt
      · rw [if_pos (Or.inl rfl)]
        show (s.ingestions ++ [_]).filter _ = ownIngestion i d
        -- the ingestion is the only one of this delivery
        rw [List.filter_append, hingested, List.nil_append, ownIngestion,
          if_neg fun h => hsome (hdata.trans h), ← hdata, ← hold.timestamp]
        exact List.filter_cons_of_pos (by simp)

/-- A batch is delivered when nothing else is in flight. -/
theorem Consumer.inv_deliver {batch : List RawEvent} (hinv : s.Inv names)
    (hstep : s.step names prefetchCount (.deliver batch) = some s') : s'.Inv names := by
  simp only [Consumer.step] at hstep
  split at hstep
  next hcount =>
    obtain rfl := Option.some.inj hstep
    have hgrounded : ∀ (i : ℕ) (d : Delivery), s.deliveries[i]? = some d →
        d.phase.inFlight = false := by
      have hzero : s.deliveries.countP (fun d => d.phase.inFlight) = 0 :=
        Nat.lt_one_iff.mp hcount
      intro i d hi
      simpa using List.countP_eq_zero.mp hzero d (List.mem_of_getElem? hi)
    have hcases : ∀ (i : ℕ) (d : Delivery) (new : Delivery),
        (s.deliveries ++ [new])[i]? = some d →
        (i = s.deliveries.length ∧ d = new) ∨ s.deliveries[i]? = some d := by
      intro i d new hi
      rw [List.getElem?_append] at hi
      split at hi
      next => exact Or.inr hi
      next hge =>
        obtain ⟨hlt, hd⟩ := List.getElem?_eq_some_iff.mp hi
        rw [List.length_singleton] at hlt
        rw [List.getElem_singleton] at hd
        exact Or.inl ⟨by omega, hd.symm⟩
    refine Consumer.Inv.proceed ?_ (List.getElem?_concat_length ..) (Or.inl rfl)
    constructor
    -- the new delivery is the only one in flight
    · intro i j d e hi hj hd he
      rcases hcases i d _ hi with ⟨rfl, -⟩ | hi'
      · rcases hcases j e _ hj with ⟨rfl, -⟩ | hj'
        · rfl
        · exact absurd he (by simp [hgrounded j e hj'])
      · exact absurd hd (by simp [hgrounded i d hi'])
    · intro ingestion h
      rw [List.length_append]
      exact Nat.lt_add_right 1 (hinv.known ingestion h)
    · intro i d hi
      rcases hcases i d _ hi with ⟨rfl, rfl⟩ | hi'
      -- and nothing has been ingested under its number
      · refine ⟨⟨s.filterAddresses, rfl⟩, rfl, rfl, fun h => absurd h (by simp), fun _ => rfl, ?_⟩
        rw [if_neg (by simp), List.filter_eq_nil_iff]
        intro ingestion hmem
        have := hinv.known ingestion hmem
        simp only [decide_eq_true_eq]
        omega
      · exact (hinv.deliveries i d hi').frame (hgrounded i d hi') rfl
  next => exact absurd hstep (by simp)

/-- A handler returns measures, and they are added to the delivery's own. -/
theorem Consumer.inv_returnMeasures {eventData : EventObject} {timestamp : ℕ}
    (hinv : s.Inv names)
    (hstep : s.step names prefetchCount (.returnMeasures i eventData timestamp) = some s') :
    s'.Inv names := by
  obtain ⟨d, hi, hstep⟩ := Option.bind_eq_some_iff.mp hstep
  have hold := hinv.deliveries i d hi
  have hlt := (List.getElem?_eq_some_iff.mp hi).1
  split at hstep
  next rawEvent pending hphase hpending =>
    split at hstep
    next hkind =>
      obtain rfl := Option.some.inj hstep
      refine Consumer.Inv.proceed ?_ (List.getElem?_set_self hlt) (Or.inl hphase)
      refine hinv.update hi (by rw [hphase]; rfl) rfl (fun _ _ => rfl) hinv.known ?_
      refine ⟨hold.filtered, ?_, ?_, ?_, ?_, ?_⟩
      · rw [← hold.events, hpending, List.filter_cons_of_pos (by simpa using hkind)]
        simp
      · simp
      · intro h
        exact absurd h (by simp [hphase])
      · intro _
        -- the measures join those of the handlers before
        show updateIngestData s.data eventData.data = ingested (List.map _ (_ ++ [_]))
        rw [List.map_append, ingested_append, hold.data (Or.inl hphase)]
        rfl
      · have hingested := hold.ingested
        rw [if_neg (by simp [hphase])] at hingested ⊢
        exact hingested
    next => exact absurd hstep (by simp)
  next => exact absurd hstep (by simp)

/-- An event without measures is done with. -/
theorem Delivery.Ok.drop {rawEvent : RawEvent} {pending : List RawEvent} {phase : Phase}
    (h : d.Ok names s i) (hpending : d.pending = rawEvent :: pending)
    (hkind : names.kind rawEvent.name ≠ .ingests) (hphase : d.phase = .running)
    (hphase' : phase = .running ∨ phase = .refilling)
    (hdata : s'.data = s.data) (hingestions : s'.ingestions = s.ingestions) :
    Delivery.Ok names s' i { d with pending := pending, phase := phase } where
  filtered := h.filtered
  events := by
    rw [← h.events, hpending, List.filter_cons_of_neg (by simpa using hkind)]
  timestamp := h.timestamp
  through := by
    intro hthrough
    rcases hphase' with rfl | rfl <;> exact absurd hthrough (by simp)
  data := fun _ => hdata.trans (h.data (Or.inl hphase))
  ingested := by
    have hingested := h.ingested
    rw [if_neg (by simp [hphase])] at hingested
    rw [hingestions, hingested]
    rcases hphase' with rfl | rfl <;> exact (if_neg (by simp)).symm

theorem Consumer.inv_returnNone (hinv : s.Inv names)
    (hstep : s.step names prefetchCount (.returnNone i) = some s') : s'.Inv names := by
  obtain ⟨d, hi, hstep⟩ := Option.bind_eq_some_iff.mp hstep
  have hold := hinv.deliveries i d hi
  have hlt := (List.getElem?_eq_some_iff.mp hi).1
  split at hstep
  next rawEvent pending hphase hpending =>
    have hflight : d.phase.inFlight = true := by
      rw [hphase]
      rfl
    split at hstep
    next hkind =>
      obtain rfl := Option.some.inj hstep
      exact hinv.update hi hflight rfl (fun _ _ => rfl) hinv.known
        (hold.drop hpending (by simp [hkind]) hphase (Or.inr rfl) rfl rfl)
    next hkind =>
      obtain rfl := Option.some.inj hstep
      refine Consumer.Inv.proceed ?_ (List.getElem?_set_self hlt) (Or.inl hphase)
      exact hinv.update hi hflight rfl (fun _ _ => rfl) hinv.known
        (hold.drop hpending (by simp [hkind]) hphase (Or.inl hphase) rfl rfl)
    next => exact absurd hstep (by simp)
  next => exact absurd hstep (by simp)

theorem Consumer.inv_fail (hinv : s.Inv names)
    (hstep : s.step names prefetchCount (.fail i) = some s') : s'.Inv names := by
  obtain ⟨d, hi, hstep⟩ := Option.bind_eq_some_iff.mp hstep
  have hold := hinv.deliveries i d hi
  have hfails : (d.phase = .running ∨ d.phase = .refilling) →
      some { s with deliveries := s.deliveries.set i { d with phase := .failed } } = some s' →
      s'.Inv names := by
    intro hphase hs
    obtain rfl := Option.some.inj hs
    have hingested := hold.ingested
    rw [if_neg (by rcases hphase with h | h <;> simp [h])] at hingested
    refine hinv.update hi (by rcases hphase with h | h <;> rw [h] <;> rfl) rfl (fun _ _ => rfl)
      hinv.known ⟨hold.filtered, hold.events, hold.timestamp, fun h => absurd h (by simp),
        fun h => absurd h (by simp), ?_⟩
    rw [if_neg (by simp)]
    exact hingested
  split at hstep
  next hphase => exact hfails (Or.inl hphase) hstep
  next hphase => exact hfails (Or.inr hphase) hstep
  next => exact absurd hstep (by simp)

theorem Consumer.inv_refill {addresses : List String} (hinv : s.Inv names)
    (hstep : s.step names prefetchCount (.refill i addresses) = some s') : s'.Inv names := by
  obtain ⟨d, hi, hstep⟩ := Option.bind_eq_some_iff.mp hstep
  have hold := hinv.deliveries i d hi
  split at hstep
  next hphase =>
    obtain rfl := Option.some.inj hstep
    have hingested := hold.ingested
    rw [if_neg (by simp [hphase])] at hingested
    refine hinv.update hi (by rw [hphase]; rfl) rfl (fun _ _ => rfl) hinv.known
      ⟨hold.filtered, hold.events, hold.timestamp, fun h => absurd h (by simp),
        fun _ => hold.data (Or.inr (Or.inl hphase)), ?_⟩
    rw [if_neg (by simp)]
    exact hingested
  next => exact absurd hstep (by simp)

theorem Consumer.inv_resume (hinv : s.Inv names)
    (hstep : s.step names prefetchCount (.resume i) = some s') : s'.Inv names := by
  obtain ⟨d, hi, hstep⟩ := Option.bind_eq_some_iff.mp hstep
  split at hstep
  next hphase =>
    obtain rfl := Option.some.inj hstep
    exact hinv.proceed hi (Or.inr hphase)
  next => exact absurd hstep (by simp)

theorem Consumer.inv_finish (hinv : s.Inv names)
    (hstep : s.step names prefetchCount (.finish i) = some s') : s'.Inv names := by
  obtain ⟨d, hi, hstep⟩ := Option.bind_eq_some_iff.mp hstep
  have hold := hinv.deliveries i d hi
  split at hstep
  next hphase =>
    obtain rfl := Option.some.inj hstep
    have hingested := hold.ingested
    rw [if_pos (Or.inl hphase)] at hingested
    refine hinv.update hi (by rw [hphase]; rfl) rfl (fun _ _ => rfl) hinv.known
      ⟨hold.filtered, hold.events, hold.timestamp, fun _ => hold.through (Or.inl hphase),
        fun h => absurd h (by simp), ?_⟩
    rw [if_pos (Or.inr rfl)]
    exact hingested
  next => exact absurd hstep (by simp)

/-- Every segment keeps the invariant. -/
theorem Consumer.inv_step {a : Consumer.Action} (hinv : s.Inv names)
    (h : s.step names prefetchCount a = some s') : s'.Inv names := by
  cases a with
  | deliver batch => exact Consumer.inv_deliver hinv h
  | returnMeasures i eventData timestamp => exact Consumer.inv_returnMeasures hinv h
  | returnNone i => exact Consumer.inv_returnNone hinv h
  | fail i => exact Consumer.inv_fail hinv h
  | refill i addresses => exact Consumer.inv_refill hinv h
  | resume i => exact Consumer.inv_resume hinv h
  | finish i => exact Consumer.inv_finish hinv h

end Invariant

/-- In every run, a delivery that has come to its end has had an answer for
each event of its batch that bears measures, in their order. It has ingested
once, if there were measures at all, under the last timestamp its handlers
returned, and what its own answers aggregate to. -/
theorem delivery_ingests_own (names : EventNames) (filterAddresses : List String)
    (actions : List Consumer.Action) (s : Consumer)
    (hrun : run (Consumer.step names prefetchCount) (Consumer.start filterAddresses) actions =
      some s)
    (i : ℕ) (d : Delivery) (hi : s.deliveries[i]? = some d) (hdone : d.phase = .done) :
    (∃ addresses, d.contributions.map Contribution.event =
        (processedEvents names addresses d.batch).filter
          fun rawEvent => names.kind rawEvent.name = .ingests) ∧
      s.ingestions.filter (fun ingestion => ingestion.delivery = i) = ownIngestion i d ∧
      Aggregates (ingested d.answers) d.answers := by
  have hinv : s.Inv names :=
    run_invariant_all (Consumer.Inv names) (fun _ _ _ => Consumer.inv_step)
      (Consumer.inv_start filterAddresses) hrun
  have hok := hinv.deliveries i d hi
  refine ⟨?_, ?_, aggregates_ingested d.answers⟩
  · obtain ⟨addresses, hevents⟩ := hok.filtered
    refine ⟨addresses, ?_⟩
    rw [← hevents, ← hok.events, hok.through (Or.inr hdone), List.filter_nil, List.append_nil]
  · rw [hok.ingested, if_pos (Or.inr hdone)]

/-! ## Two deliveries at a time -/

def sampleNames : EventNames where
  ESDT_LOCAL_BURN := "ESDTLocalBurn"
  ESDT_LOCAL_MINT := "ESDTLocalMint"
  kind name :=
    if name = "swap" then .ingests else if name = "createPair" then .createPair else .ignored
  withoutData _ := false

/-- A swap of a pair. -/
def sampleSwap (address : String) : RawEvent := ⟨address, "swap", "swap", "x"⟩

/-- What a handler answers for it. -/
def sampleVolume (volume : ℕ) : EventObject where
  data := [("MEX-455c57", [("volume", .ofNat volume)])]
  series_nodup := List.nodup_singleton _
  measures_nodup := by
    intro s hs
    rw [List.mem_singleton.mp hs]
    exact List.nodup_singleton _

/-- Two batches of one trade each, of 5 and of 7. Both handlers are waited for
when the first returns. -/
def overlappingActions : List Consumer.Action :=
  [.deliver [sampleSwap "a"], .deliver [sampleSwap "b"], .returnMeasures 0 (sampleVolume 5) 100,
    .returnMeasures 1 (sampleVolume 7) 200, .finish 0, .finish 1]

/-- The state after two deliveries whose segments alternate. -/
def overlappingEnd : Consumer :=
  (run (Consumer.step sampleNames 2) (Consumer.start ["a", "b"]) overlappingActions).getD
    (Consumer.start [])

/-- The second batch is ingested with the volume of the first added, as its
`data` was emptied before that came in. -/
theorem overlapping_deliveries :
    run (Consumer.step sampleNames 2) (Consumer.start ["a", "b"]) overlappingActions =
      some overlappingEnd ∧
    overlappingEnd.ingestions.map (fun i => (i.Time, measureOf i.data "MEX-455c57" "volume")) =
      [(some 100, some (.ofNat 5)), (some 200, some (.ofNat 12))] ∧
    ¬∀ (names : EventNames) (prefetchCount : ℕ) (filterAddresses : List String)
      (actions : List Consumer.Action) (s : Consumer),
      run (Consumer.step names prefetchCount) (Consumer.start filterAddresses) actions = some s →
      ∀ (i : ℕ) (d : Delivery), s.deliveries[i]? = some d → d.phase = .done →
        s.ingestions.filter (fun ingestion => ingestion.delivery = i) = ownIngestion i d := by
  have hrun : run (Consumer.step sampleNames 2) (Consumer.start ["a", "b"]) overlappingActions =
      some overlappingEnd := rfl
  refine ⟨hrun, by decide +kernel, ?_⟩
  intro h
  have hown := h _ _ _ _ _ hrun 1 _ rfl rfl
  exact absurd (congrArg (List.map fun i => measureOf i.data "MEX-455c57" "volume") hown)
    (by decide +kernel)

def sampleCreatePair : RawEvent := ⟨"r", "createPair", "createPair", "x"⟩

/-- Two batches, one after the other. In the first a pair is created between
two trades, so its addresses are read anew. -/
def separateActions : List Consumer.Action :=
  [.deliver [sampleSwap "a", sampleCreatePair, sampleSwap "b"],
    .returnMeasures 0 (sampleVolume 5) 100, .returnNone 0, .refill 0 ["a", "b", "c"], .resume 0,
    .returnMeasures 0 (sampleVolume 6) 106, .finish 0,
    .deliver [sampleSwap "c"], .returnMeasures 1 (sampleVolume 7) 200, .finish 1]

/-- The state after the same deliveries, one at a time. -/
def separateEnd : Consumer :=
  (run (Consumer.step sampleNames prefetchCount) (Consumer.start ["a", "b", "r"])
    separateActions).getD (Consumer.start [])

/-- One at a time, the first delivery ingests its own volume. -/
theorem delivery_ingests_own_separate :
    separateEnd.ingestions.filter (fun ingestion => ingestion.delivery = 0) =
      [⟨0, [("MEX-455c57", [("volume", .ofNat 11)])], some 106⟩] := by
  refine (delivery_ingests_own sampleNames ["a", "b", "r"] separateActions separateEnd rfl 0
    ⟨[sampleSwap "a", sampleCreatePair, sampleSwap "b"],
      [sampleSwap "a", sampleCreatePair, sampleSwap "b"], [], some 106,
      [⟨sampleSwap "a", sampleVolume 5, 100⟩, ⟨sampleSwap "b", sampleVolume 6, 106⟩], .done⟩
    rfl rfl).2.1.trans ?_
  decide +kernel

end MxExchange.RabbitMq
