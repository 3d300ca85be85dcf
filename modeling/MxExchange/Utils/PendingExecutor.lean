import MxExchange.Collections.Runs
import Mathlib.Logic.Function.Basic

/-!
# `pending.executor.ts`: one execution for all who ask

`execute` looks its argument up in a dictionary of promises, by the digest of
its JSON. Who finds a promise there awaits it; who does not calls the executor,
leaves its promise there, and takes it out again once it has been resumed.

Between two awaits nothing else runs, so a call is one step (`call`). That an
execution settles is another one: it queues what awaits it. Each resumption is a
step of its own, first come, first served (`resume`); in between there may be
more calls. Of an execution the first to be resumed is its owner, the one that
takes the entry out (`Inv.entry`), so no one who finds it there is late by more
than the owner's turn.
-/

namespace MxExchange.Utils

open MxExchange.Collections

/-- What digests depend on, and what they are. `JSON.stringify` throws for some
arguments, and for others it gives no text, for which `update` throws. -/
structure PendingExecutor (TIN Error : Type) where
  stringify : TIN → Except Error String
  md5 : String → String

/-- The entry of the dictionary for an argument. -/
def PendingExecutor.key {TIN Error : Type} (pending : PendingExecutor TIN Error) (value : TIN) :
    Except Error String :=
  (pending.stringify value).map pending.md5

/-- Which of the two awaits a call is at. -/
inductive Await where
  | joined
  | owner
  deriving DecidableEq

/-- A call that awaits an execution. -/
structure Caller (TIN : Type) where
  call : ℕ
  value : TIN
  await : Await
  deriving DecidableEq

/-- A promise of the executor, those who await it in their order, and those of
them who have been resumed. -/
structure Execution (TIN TOUT Error : Type) where
  value : TIN
  key : String
  callers : List (Caller TIN)
  outcome : Option (Except Error TOUT)
  resumed : List (Caller TIN)

/-- The executions, the dictionary, the queue, and what the calls have got. -/
structure State (TIN TOUT Error : Type) where
  executions : ℕ → Option (Execution TIN TOUT Error)
  started : ℕ
  dictionary : String → Option ℕ
  /-- Resumptions that are queued, with the execution each is from. -/
  jobs : List (Caller TIN × ℕ)
  calls : ℕ
  /-- What the promise of a call has been settled with. -/
  received : ℕ → Option (Except Error TOUT)

/-- What can happen between two awaits. -/
inductive Event (TIN TOUT Error : Type) where
  /-- A call, and what the executor throws at once, if it is called and does. -/
  | call (value : TIN) (thrown : Option Error)
  | settle (execution : ℕ) (outcome : Except Error TOUT)
  | resume

section Steps

variable {TIN TOUT Error : Type}

namespace State

/-- Nothing has been called. -/
def init : State TIN TOUT Error where
  executions := fun _ => none
  started := 0
  dictionary := fun _ => none
  jobs := []
  calls := 0
  received := fun _ => none

variable (s : State TIN TOUT Error)

/-- The call rejects before it awaits anything. -/
def reject (error : Error) : State TIN TOUT Error :=
  { s with
    calls := s.calls + 1
    received := Function.update s.received s.calls (some (.error error)) }

/-- `return await pendingRequest`, which is resumed at once if it is settled. -/
def join (value : TIN) (id : ℕ) (execution : Execution TIN TOUT Error) :
    State TIN TOUT Error :=
  let caller : Caller TIN := ⟨s.calls, value, .joined⟩
  { s with
    calls := s.calls + 1
    executions := Function.update s.executions id
      (some { execution with callers := execution.callers ++ [caller] })
    jobs := if execution.outcome.isSome then s.jobs ++ [(caller, id)] else s.jobs }

/-- The executor has been called and its promise is awaited. -/
def start (value : TIN) (key : String) : State TIN TOUT Error :=
  { s with
    calls := s.calls + 1
    started := s.started + 1
    executions := Function.update s.executions s.started
      (some ⟨value, key, [⟨s.calls, value, .owner⟩], none, []⟩)
    dictionary := Function.update s.dictionary key (some s.started) }

/-- The promise of the executor settles, and all who await it are queued in
their order. -/
def settle (id : ℕ) (execution : Execution TIN TOUT Error) (outcome : Except Error TOUT) :
    State TIN TOUT Error :=
  { s with
    executions := Function.update s.executions id (some { execution with outcome := some outcome })
    jobs := s.jobs ++ execution.callers.map fun caller => (caller, id) }

/-- The first of the queue goes on. An owner takes the entry out before its
promise is settled. -/
def resume (caller : Caller TIN) (id : ℕ) (execution : Execution TIN TOUT Error)
    (outcome : Except Error TOUT) (jobs : List (Caller TIN × ℕ)) : State TIN TOUT Error :=
  { s with
    executions := Function.update s.executions id
      (some { execution with resumed := execution.resumed ++ [caller] })
    dictionary :=
      match caller.await with
      | .owner => Function.update s.dictionary execution.key none
      | .joined => s.dictionary
    jobs := jobs
    received := Function.update s.received caller.call (some outcome) }

end State

variable (pending : PendingExecutor TIN Error)

/-- `execute` up to its first await. -/
def execute (s : State TIN TOUT Error) (value : TIN) (thrown : Option Error) :
    Option (State TIN TOUT Error) :=
  match pending.key value with
  | .error error => some (s.reject error)
  | .ok key =>
    match s.dictionary key with
    | some id => (s.executions id).map (s.join value id)
    | none =>
      match thrown with
      | some error => some (s.reject error)
      | none => some (s.start value key)

/-- Only pending executions settle, and only what is queued is resumed. -/
def step (s : State TIN TOUT Error) : Event TIN TOUT Error → Option (State TIN TOUT Error)
  | .call value thrown => execute pending s value thrown
  | .settle id outcome =>
    match s.executions id with
    | some execution =>
      if execution.outcome.isNone then some (s.settle id execution outcome) else none
    | none => none
  | .resume =>
    match s.jobs with
    | [] => none
    | (caller, id) :: jobs =>
      match s.executions id with
      | some execution => execution.outcome.map fun outcome =>
        s.resume caller id execution outcome jobs
      | none => none

/-! ## What a step can do -/

variable {pending} {s s' : State TIN TOUT Error}

/-- The state after a step, with the guards of that step. -/
inductive Steps (s : State TIN TOUT Error) : State TIN TOUT Error → Prop where
  | reject (error : Error) : Steps s (s.reject error)
  | join {value : TIN} {key : String} {id : ℕ} {execution : Execution TIN TOUT Error}
      (hkey : pending.key value = .ok key) (hentry : s.dictionary key = some id)
      (hexecution : s.executions id = some execution) : Steps s (s.join value id execution)
  | start {value : TIN} {key : String} (hkey : pending.key value = .ok key)
      (hentry : s.dictionary key = none) : Steps s (s.start value key)
  | settle {id : ℕ} {execution : Execution TIN TOUT Error} (outcome : Except Error TOUT)
      (hexecution : s.executions id = some execution) (hpending : execution.outcome = none) :
      Steps s (s.settle id execution outcome)
  | resume {caller : Caller TIN} {id : ℕ} {jobs : List (Caller TIN × ℕ)}
      {execution : Execution TIN TOUT Error} {outcome : Except Error TOUT}
      (hjobs : s.jobs = (caller, id) :: jobs) (hexecution : s.executions id = some execution)
      (hsettled : execution.outcome = some outcome) :
      Steps s (s.resume caller id execution outcome jobs)

/-- A step is one of the five. -/
theorem step_cases {event : Event TIN TOUT Error} (h : step pending s event = some s') :
    @Steps TIN TOUT Error pending s s' := by
  cases event with
  | call value thrown =>
    rw [step, execute] at h
    split at h
    next => exact Option.some.inj h ▸ .reject _
    next key hkey =>
      split at h
      next id hentry =>
        obtain ⟨execution, hexecution, rfl⟩ := Option.map_eq_some_iff.mp h
        exact .join hkey hentry hexecution
      next hentry =>
        split at h
        next => exact Option.some.inj h ▸ .reject _
        next => exact Option.some.inj h ▸ .start hkey hentry
  | settle id outcome =>
    rw [step] at h
    split at h
    next execution hexecution =>
      split at h
      next hpending =>
        exact Option.some.inj h ▸ .settle outcome hexecution (Option.isNone_iff_eq_none.mp hpending)
      next => cases h
    next => cases h
  | resume =>
    rw [step] at h
    split at h
    next => cases h
    next caller id jobs hjobs =>
      split at h
      next execution hexecution =>
        obtain ⟨outcome, hsettled, rfl⟩ := Option.map_eq_some_iff.mp h
        exact .resume hjobs hexecution hsettled
      next => cases h

/-! ## The invariant -/

/-- The queued resumptions of an execution. -/
def jobsOf (jobs : List (Caller TIN × ℕ)) (id : ℕ) : List (Caller TIN) :=
  (jobs.filter fun job => job.2 = id).map Prod.fst

/-- An owner, and then callers that have joined it. -/
def OwnerFirst (callers : List (Caller TIN)) : Prop :=
  ∃ owner rest, callers = owner :: rest ∧ owner.await = .owner ∧
    ∀ caller ∈ rest, caller.await = .joined

/-- What holds of an execution, given what else is there. -/
structure ExecutionInv (pending : PendingExecutor TIN Error) (s : State TIN TOUT Error) (id : ℕ)
    (execution : Execution TIN TOUT Error) : Prop where
  key : pending.key execution.value = .ok execution.key
  keys : ∀ caller ∈ execution.callers, pending.key caller.value = .ok execution.key
  ownerFirst : OwnerFirst execution.callers
  /-- The entry is there until someone has been resumed. -/
  entry : s.dictionary execution.key = some id ↔ execution.resumed = []
  running : execution.outcome = none → execution.resumed = [] ∧ jobsOf s.jobs id = []
  settled : execution.outcome.isSome → execution.callers = execution.resumed ++ jobsOf s.jobs id
  calls : ∀ caller ∈ execution.callers, caller.call < s.calls
  received : ∀ caller ∈ execution.callers, ∀ outcome, s.received caller.call = some outcome →
    execution.outcome = some outcome ∧ execution.resumed ≠ []
  resumed : ∀ caller ∈ execution.resumed, s.received caller.call = execution.outcome

/-- What holds between any two steps, of each execution and of all that refers
to one. -/
structure Inv (pending : PendingExecutor TIN Error) (s : State TIN TOUT Error) : Prop where
  executions : ∀ id execution, s.executions id = some execution →
    ExecutionInv pending s id execution
  started : ∀ id, s.started ≤ id → s.executions id = none
  dictionary : ∀ key id, s.dictionary key = some id →
    ∃ execution, s.executions id = some execution ∧ execution.key = key
  /-- A call awaits one execution. -/
  callers : ∃ awaited : ℕ → ℕ, ∀ id execution, s.executions id = some execution →
    ∀ caller ∈ execution.callers, awaited caller.call = id
  calls : ∀ call, s.calls ≤ call → s.received call = none
  jobs : ∀ caller id, (caller, id) ∈ s.jobs → ∃ execution, s.executions id = some execution

/-- An entry of an updated map is the new one or an old one. -/
theorem update_eq_some {ι β : Type} [DecidableEq ι] {f : ι → Option β} {i j : ι} {x y : β} :
    Function.update f i (some x) j = some y ↔ j = i ∧ x = y ∨ j ≠ i ∧ f j = some y := by
  rw [Function.update_apply]
  by_cases h : j = i
  · simp [h]
  · simp [h]

/-- An entry stays in the map, if the new one has its property too. -/
theorem exists_update {β : Type} {f : ℕ → Option β} {i j : ℕ} {x : β} {P : β → Prop}
    (h : ∃ y, f j = some y ∧ P y) (hx : j = i → P x) :
    ∃ y, Function.update f i (some x) j = some y ∧ P y := by
  by_cases hj : j = i
  · exact ⟨x, update_eq_some.mpr (Or.inl ⟨hj, rfl⟩), hx hj⟩
  · obtain ⟨y, hy, hP⟩ := h
    exact ⟨y, update_eq_some.mpr (Or.inr ⟨hj, hy⟩), hP⟩

theorem jobsOf_append (jobs jobs' : List (Caller TIN × ℕ)) (id : ℕ) :
    jobsOf (jobs ++ jobs') id = jobsOf jobs id ++ jobsOf jobs' id := by
  simp [jobsOf]

/-- All that is queued for an execution is of it. -/
theorem jobsOf_map_self (callers : List (Caller TIN)) (id : ℕ) :
    jobsOf (callers.map fun caller => (caller, id)) id = callers := by
  simp [jobsOf, List.filter_map, Function.comp_def]

/-- What is queued for one execution is not of another. -/
theorem jobsOf_map_ne (callers : List (Caller TIN)) {id id' : ℕ} (h : id' ≠ id) :
    jobsOf (callers.map fun caller => (caller, id)) id' = [] := by
  simp [jobsOf, h.symm]

theorem jobsOf_cons_self (caller : Caller TIN) (id : ℕ) (jobs : List (Caller TIN × ℕ)) :
    jobsOf ((caller, id) :: jobs) id = caller :: jobsOf jobs id := by
  simp [jobsOf]

theorem jobsOf_cons_ne (caller : Caller TIN) {id id' : ℕ} (h : id' ≠ id)
    (jobs : List (Caller TIN × ℕ)) : jobsOf ((caller, id) :: jobs) id' = jobsOf jobs id' := by
  simp [jobsOf, h.symm]

namespace ExecutionInv

variable {id : ℕ} {execution : Execution TIN TOUT Error}

/-- Who has been resumed has called. -/
theorem mem_callers_of_mem_resumed (h : ExecutionInv pending s id execution) {caller : Caller TIN}
    (hcaller : caller ∈ execution.resumed) : caller ∈ execution.callers := by
  cases houtcome : execution.outcome with
  | none =>
    rw [(h.running houtcome).1] at hcaller
    cases hcaller
  | some outcome =>
    rw [h.settled (by rw [houtcome]; rfl)]
    exact List.mem_append_left _ hcaller

/-- An execution that a step leaves alone. -/
theorem frame (h : ExecutionInv pending s id execution)
    (hentry : s'.dictionary execution.key = some id ↔ s.dictionary execution.key = some id)
    (hjobs : jobsOf s'.jobs id = jobsOf s.jobs id) (hcalls : s.calls ≤ s'.calls)
    (hreceived : ∀ caller ∈ execution.callers, s'.received caller.call = s.received caller.call) :
    ExecutionInv pending s' id execution where
  key := h.key
  keys := h.keys
  ownerFirst := h.ownerFirst
  entry := hentry.trans h.entry
  running := fun hrunning => hjobs ▸ h.running hrunning
  settled := fun hsettled => hjobs ▸ h.settled hsettled
  calls := fun caller hcaller => Nat.lt_of_lt_of_le (h.calls caller hcaller) hcalls
  received := by
    intro caller hcaller outcome houtcome
    rw [hreceived caller hcaller] at houtcome
    exact h.received caller hcaller outcome houtcome
  resumed := by
    intro caller hcaller
    rw [hreceived caller (h.mem_callers_of_mem_resumed hcaller)]
    exact h.resumed caller hcaller

/-- Who is resumed first is the owner, and nobody else is. -/
theorem await_of_next (h : ExecutionInv pending s id execution) {caller : Caller TIN}
    {rest : List (Caller TIN)}
    (hcallers : execution.callers = execution.resumed ++ caller :: rest) :
    caller.await = if execution.resumed = [] then .owner else .joined := by
  obtain ⟨owner, joined, hfirst, howner, hjoined⟩ := h.ownerFirst
  rw [hfirst] at hcallers
  cases hresumed : execution.resumed with
  | nil =>
    rw [hresumed, List.nil_append, List.cons.injEq] at hcallers
    rw [if_pos rfl, ← hcallers.1, howner]
  | cons first others =>
    rw [hresumed, List.cons_append, List.cons.injEq] at hcallers
    rw [if_neg (List.cons_ne_nil _ _)]
    refine hjoined caller ?_
    rw [hcallers.2]
    exact List.mem_append_right _ List.mem_cons_self

end ExecutionInv

/-- The invariant holds where nothing has been called. -/
theorem inv_init : Inv pending (State.init : State TIN TOUT Error) where
  executions := by
    intro id execution h
    cases h
  started := fun _ _ => rfl
  dictionary := by
    intro key id h
    cases h
  callers := ⟨fun _ => 0, fun id execution h => nomatch h⟩
  calls := fun _ _ => rfl
  jobs := by
    intro caller id h
    cases h

/-- Who joins a settled execution is queued behind the others. -/
theorem State.jobsOf_join (value : TIN) (id : ℕ) (execution : Execution TIN TOUT Error) (id' : ℕ) :
    jobsOf (s.join value id execution).jobs id' =
      if id' = id ∧ execution.outcome.isSome then
        jobsOf s.jobs id' ++ [⟨s.calls, value, .joined⟩]
      else jobsOf s.jobs id' := by
  unfold State.join
  by_cases hsettled : execution.outcome.isSome
  · simp only [hsettled, if_true, and_true]
    rw [jobsOf_append]
    by_cases hid : id' = id
    · rw [if_pos hid, hid]
      exact congrArg _ (jobsOf_map_self [_] id)
    · rw [if_neg hid]
      exact (congrArg _ (jobsOf_map_ne [_] hid)).trans (List.append_nil _)
  · simp [hsettled]

/-- An execution that nobody has been resumed from may be joined. -/
theorem ExecutionInv.join {id : ℕ} {execution : Execution TIN TOUT Error}
    (h : ExecutionInv pending s id execution) {value : TIN}
    (hkey : pending.key value = .ok execution.key) (hresumed : execution.resumed = [])
    (hfresh : s.received s.calls = none) :
    ExecutionInv pending (s.join value id execution) id
      { execution with callers := execution.callers ++ [⟨s.calls, value, .joined⟩] } where
  key := h.key
  keys := by
    intro caller hcaller
    rcases List.mem_append.mp hcaller with hcaller | hcaller
    · exact h.keys caller hcaller
    · rw [List.mem_singleton.mp hcaller]
      exact hkey
  ownerFirst := by
    obtain ⟨owner, rest, hfirst, howner, hjoined⟩ := h.ownerFirst
    refine ⟨owner, rest ++ [⟨s.calls, value, .joined⟩], ?_, howner, fun caller hcaller => ?_⟩
    · rw [hfirst, List.cons_append]
    -- the owner stays in front, as a new caller is put behind the others
    · rcases List.mem_append.mp hcaller with hcaller | hcaller
      · exact hjoined caller hcaller
      · rw [List.mem_singleton.mp hcaller]
  entry := h.entry
  running := by
    intro hrunning
    have hnot : ¬(id = id ∧ execution.outcome.isSome) := fun hand => by
      rw [show execution.outcome = none from hrunning] at hand
      exact absurd hand.2 nofun
    refine ⟨hresumed, ?_⟩
    rw [State.jobsOf_join, if_neg hnot]
    exact (h.running hrunning).2
  settled := by
    -- a settled execution has its new caller queued behind those that are
    intro hsettled
    rw [State.jobsOf_join, if_pos ⟨rfl, hsettled⟩, ← List.append_assoc, ← h.settled hsettled]
  calls := by
    intro caller hcaller
    rcases List.mem_append.mp hcaller with hcaller | hcaller
    · exact Nat.lt_succ_of_lt (h.calls caller hcaller)
    · rw [List.mem_singleton.mp hcaller]
      exact Nat.lt_succ_self _
  received := by
    intro caller hcaller outcome houtcome
    rcases List.mem_append.mp hcaller with hcaller | hcaller
    · exact h.received caller hcaller outcome houtcome
    · rw [List.mem_singleton.mp hcaller] at houtcome
      exact absurd (hfresh.symm.trans houtcome) nofun
  resumed := h.resumed

namespace Inv

/-- The next call has not been seen. -/
theorem call_ne (h : Inv pending s) {id : ℕ} {execution : Execution TIN TOUT Error}
    (hexecution : s.executions id = some execution) {caller : Caller TIN}
    (hcaller : caller ∈ execution.callers) : caller.call ≠ s.calls :=
  Nat.ne_of_lt ((h.executions id execution hexecution).calls caller hcaller)

/-- The dictionary leads to executions of its own keys. -/
theorem key_of_entry (h : Inv pending s) {key : String} {id : ℕ}
    {execution : Execution TIN TOUT Error} (hentry : s.dictionary key = some id)
    (hexecution : s.executions id = some execution) : execution.key = key := by
  obtain ⟨execution', hexecution', hkey⟩ := h.dictionary key id hentry
  rw [hexecution] at hexecution'
  cases hexecution'
  exact hkey

/-! What an update of one execution keeps. -/

/-- No execution is beyond those that have been started. -/
theorem started_update (h : Inv pending s) {id : ℕ} {execution : Execution TIN TOUT Error}
    (hexecution : s.executions id = some execution) (execution' : Execution TIN TOUT Error)
    (id' : ℕ) (hid' : s.started ≤ id') :
    Function.update s.executions id (some execution') id' = none := by
  have hne : id' ≠ id := by
    rintro rfl
    rw [h.started id' hid'] at hexecution
    cases hexecution
  exact (Function.update_of_ne hne _ _).trans (h.started id' hid')

/-- Entries still lead to executions of their keys. -/
theorem dictionary_update (h : Inv pending s) {id : ℕ} {execution : Execution TIN TOUT Error}
    (hexecution : s.executions id = some execution) (execution' : Execution TIN TOUT Error)
    (hkey : execution'.key = execution.key) (key : String) (id' : ℕ)
    (hentry : s.dictionary key = some id') :
    ∃ execution'', Function.update s.executions id (some execution') id' = some execution'' ∧
      execution''.key = key := by
  refine exists_update (h.dictionary key id' hentry) ?_
  rintro rfl
  exact hkey.trans (h.key_of_entry hentry hexecution)

/-- What is queued belongs to an execution. -/
theorem jobs_update (h : Inv pending s) (id : ℕ) (execution' : Execution TIN TOUT Error)
    {caller : Caller TIN} {id' : ℕ} (hjob : id' = id ∨ (caller, id') ∈ s.jobs) :
    ∃ execution'', Function.update s.executions id (some execution') id' = some execution'' := by
  rcases hjob with rfl | hjob
  · exact ⟨_, Function.update_self _ _ _⟩
  · obtain ⟨execution'', hold⟩ := h.jobs caller id' hjob
    obtain ⟨result, hresult, -⟩ := exists_update (P := fun _ => True)
      ⟨execution'', hold, trivial⟩ fun _ => (trivial : (fun _ => True) execution')
    exact ⟨result, hresult⟩

/-- A call awaits one execution still. -/
theorem callers_update (h : Inv pending s) {id : ℕ} {execution : Execution TIN TOUT Error}
    (hexecution : s.executions id = some execution) (execution' : Execution TIN TOUT Error)
    (hcallers : execution'.callers = execution.callers) :
    ∃ awaited : ℕ → ℕ, ∀ id' execution'',
      Function.update s.executions id (some execution') id' = some execution'' →
        ∀ caller ∈ execution''.callers, awaited caller.call = id' := by
  obtain ⟨awaited, hawaited⟩ := h.callers
  refine ⟨awaited, fun id' execution'' hexecution'' caller hcaller => ?_⟩
  rcases update_eq_some.mp hexecution'' with ⟨rfl, rfl⟩ | ⟨-, hold⟩
  · exact hawaited id' execution hexecution caller (hcallers ▸ hcaller)
  · exact hawaited id' execution'' hold caller hcaller

/-- A new call changes nothing for those who have called. -/
theorem received_update (h : Inv pending s) {id : ℕ} {execution : Execution TIN TOUT Error}
    (hexecution : s.executions id = some execution) (outcome : Option (Except Error TOUT)) :
    ∀ caller ∈ execution.callers,
      Function.update s.received s.calls outcome caller.call = s.received caller.call := by
  intro caller hcaller
  exact Function.update_of_ne (h.call_ne hexecution hcaller) _ _

/-- A call that rejects awaits nothing. -/
theorem reject (h : Inv pending s) (error : Error) : Inv pending (s.reject error) where
  executions := fun id execution hexecution =>
    (h.executions id execution hexecution).frame Iff.rfl rfl (Nat.le_succ _)
      (h.received_update hexecution _)
  started := h.started
  dictionary := h.dictionary
  callers := h.callers
  calls := by
    intro call hcall
    have hne : call ≠ s.calls := Nat.ne_of_gt (Nat.lt_of_succ_le hcall)
    exact (Function.update_of_ne hne _ _).trans (h.calls call (Nat.le_of_succ_le hcall))
  jobs := h.jobs

/-- Who finds an entry comes before the owner is resumed. -/
theorem join (h : Inv pending s) {value : TIN} {key : String} {id : ℕ}
    {execution : Execution TIN TOUT Error} (hkey : pending.key value = .ok key)
    (hentry : s.dictionary key = some id) (hexecution : s.executions id = some execution) :
    Inv pending (s.join value id execution) where
  executions := by
    intro id' execution' hexecution'
    rcases update_eq_some.mp hexecution' with ⟨rfl, rfl⟩ | ⟨hne, hold⟩
    · have hinv := h.executions id' execution hexecution
      have hsame := h.key_of_entry hentry hexecution
      exact hinv.join (hsame ▸ hkey) (hinv.entry.mp (hsame ▸ hentry))
        (h.calls s.calls (Nat.le_refl _))
    · refine (h.executions id' execution' hold).frame Iff.rfl ?_ (Nat.le_succ _) fun _ _ => rfl
      rw [State.jobsOf_join, if_neg fun hand => hne hand.1]
  started := h.started_update hexecution _
  dictionary := h.dictionary_update hexecution _ rfl
  callers := by
    obtain ⟨awaited, hawaited⟩ := h.callers
    refine ⟨Function.update awaited s.calls id, fun id' execution' hexecution' caller hcaller => ?_⟩
    rcases update_eq_some.mp hexecution' with ⟨rfl, rfl⟩ | ⟨-, hold⟩
    · rcases List.mem_append.mp hcaller with hcaller | hcaller
      -- those who have called are of earlier numbers than the one that joins
      · rw [Function.update_of_ne (h.call_ne hexecution hcaller)]
        exact hawaited id' execution hexecution caller hcaller
      · rw [List.mem_singleton.mp hcaller, Function.update_self]
    · rw [Function.update_of_ne (h.call_ne hold hcaller)]
      exact hawaited id' execution' hold caller hcaller
  calls := fun call hcall => h.calls call (Nat.le_of_succ_le hcall)
  jobs := by
    intro caller id' hjob
    refine h.jobs_update id _ (?_ : id' = id ∨ (caller, id') ∈ s.jobs)
    unfold State.join at hjob
    dsimp only at hjob
    split at hjob
    next =>
      rcases List.mem_append.mp hjob with hjob | hjob
      · exact Or.inr hjob
      · exact Or.inl (congrArg Prod.snd (List.mem_singleton.mp hjob))
    next => exact Or.inr hjob

/-- A new execution has one caller, its owner, and the entry leads to it. -/
theorem start (h : Inv pending s) {value : TIN} {key : String}
    (hkey : pending.key value = .ok key) (hentry : s.dictionary key = none) :
    Inv pending (s.start value key) where
  executions := by
    intro id' execution' hexecution'
    rcases update_eq_some.mp hexecution' with ⟨rfl, rfl⟩ | ⟨hne, hold⟩
    · -- what has not started has no one to resume
      have hjobs : jobsOf s.jobs s.started = [] := by
        rw [jobsOf, List.map_eq_nil_iff, List.filter_eq_nil_iff]
        rintro ⟨caller, id⟩ hjob hid
        obtain ⟨execution, hexecution⟩ := h.jobs caller id hjob
        have hsame : id = s.started := of_decide_eq_true hid
        rw [hsame, h.started _ (Nat.le_refl _)] at hexecution
        cases hexecution
      refine ⟨hkey, ?_, ⟨_, [], rfl, rfl, nofun⟩, ?_, fun _ => ⟨rfl, hjobs⟩, nofun, ?_, ?_, nofun⟩
      · intro caller hcaller
        rw [List.mem_singleton.mp hcaller]
        exact hkey
      · exact ⟨fun _ => rfl, fun _ => Function.update_self _ _ _⟩
      · intro caller hcaller
        rw [List.mem_singleton.mp hcaller]
        exact Nat.lt_succ_self _
      · intro caller hcaller outcome houtcome
        rw [List.mem_singleton.mp hcaller] at houtcome
        exact absurd ((h.calls s.calls (Nat.le_refl _)).symm.trans houtcome) nofun
    · refine (h.executions id' execution' hold).frame ?_ rfl (Nat.le_succ _) fun _ _ => rfl
      show Function.update s.dictionary key (some s.started) execution'.key = some id' ↔ _
      by_cases hsame : execution'.key = key
      · rw [hsame, Function.update_self, hentry]
        exact ⟨fun hid => absurd (Option.some.inj hid).symm hne, nofun⟩
      · rw [Function.update_of_ne hsame]
  started := by
    intro id' hid'
    have hne : id' ≠ s.started := Nat.ne_of_gt (Nat.lt_of_succ_le hid')
    exact (Function.update_of_ne hne _ _).trans (h.started id' (Nat.le_of_succ_le hid'))
  dictionary := by
    intro key' id' hentry'
    rcases update_eq_some.mp hentry' with ⟨rfl, rfl⟩ | ⟨-, hold⟩
    · exact ⟨_, Function.update_self _ _ _, rfl⟩
    -- an old entry cannot lead to the execution that starts now
    · refine exists_update (h.dictionary key' id' hold) ?_
      rintro rfl
      obtain ⟨execution, hexecution, -⟩ := h.dictionary key' _ hold
      rw [h.started _ (Nat.le_refl _)] at hexecution
      cases hexecution
  callers := by
    obtain ⟨awaited, hawaited⟩ := h.callers
    refine ⟨Function.update awaited s.calls s.started,
      fun id' execution' hexecution' caller hcaller => ?_⟩
    rcases update_eq_some.mp hexecution' with ⟨rfl, rfl⟩ | ⟨-, hold⟩
    · rw [List.mem_singleton.mp hcaller, Function.update_self]
    · rw [Function.update_of_ne (h.call_ne hold hcaller)]
      exact hawaited id' execution' hold caller hcaller
  calls := fun call hcall => h.calls call (Nat.le_of_succ_le hcall)
  jobs := fun _ _ hjob => h.jobs_update s.started _ (Or.inr hjob)

/-- All callers are queued, and none of them has been resumed. -/
theorem settle (h : Inv pending s) {id : ℕ} {execution : Execution TIN TOUT Error}
    (outcome : Except Error TOUT) (hexecution : s.executions id = some execution)
    (hpending : execution.outcome = none) : Inv pending (s.settle id execution outcome) where
  executions := by
    intro id' execution' hexecution'
    rcases update_eq_some.mp hexecution' with ⟨rfl, rfl⟩ | ⟨hne, hold⟩
    · -- nobody has been resumed yet, and all are queued now
      have hinv := h.executions id' execution hexecution
      obtain ⟨hresumed, hjobs⟩ := hinv.running hpending
      refine ⟨hinv.key, hinv.keys, hinv.ownerFirst, hinv.entry, nofun, fun _ => ?_, hinv.calls,
        ?_, ?_⟩
      · show execution.callers = execution.resumed ++ jobsOf (s.jobs ++ _) id'
        rw [jobsOf_append, jobsOf_map_self, hresumed, hjobs]
        rfl
      · intro caller hcaller outcome' houtcome'
        exact absurd hresumed (hinv.received caller hcaller outcome' houtcome').2
      · intro caller hcaller
        rw [show execution.resumed = [] from hresumed] at hcaller
        cases hcaller
    · refine (h.executions id' execution' hold).frame Iff.rfl ?_ (Nat.le_refl _) fun _ _ => rfl
      show jobsOf (s.jobs ++ _) id' = _
      rw [jobsOf_append, jobsOf_map_ne _ hne, List.append_nil]
  started := h.started_update hexecution _
  dictionary := h.dictionary_update hexecution _ rfl
  callers := h.callers_update hexecution _ rfl
  calls := h.calls
  jobs := by
    intro caller id' hjob
    refine h.jobs_update id _ (?_ : id' = id ∨ (caller, id') ∈ s.jobs)
    rcases List.mem_append.mp hjob with hjob | hjob
    · exact Or.inr hjob
    · obtain ⟨_, -, hpair⟩ := List.mem_map.mp hjob
      exact Or.inl (congrArg Prod.snd hpair).symm

section Resume

variable {caller : Caller TIN} {id : ℕ} {jobs : List (Caller TIN × ℕ)}
  {execution : Execution TIN TOUT Error} {outcome : Except Error TOUT}

/-- The one to be resumed comes right behind those who have been. -/
theorem callers_of_next (h : Inv pending s) (hjobs : s.jobs = (caller, id) :: jobs)
    (hexecution : s.executions id = some execution) (hsettled : execution.outcome = some outcome) :
    execution.callers = execution.resumed ++ caller :: jobsOf jobs id := by
  rw [(h.executions id execution hexecution).settled (by rw [hsettled]; rfl), hjobs,
    jobsOf_cons_self]

theorem mem_callers_of_next (h : Inv pending s) (hjobs : s.jobs = (caller, id) :: jobs)
    (hexecution : s.executions id = some execution) (hsettled : execution.outcome = some outcome) :
    caller ∈ execution.callers := by
  rw [h.callers_of_next hjobs hexecution hsettled]
  exact List.mem_append_right _ List.mem_cons_self

/-- An owner's entry is its own. -/
theorem dictionary_resume (h : Inv pending s) (hjobs : s.jobs = (caller, id) :: jobs)
    (hexecution : s.executions id = some execution) (hsettled : execution.outcome = some outcome)
    (key : String) :
    (s.resume caller id execution outcome jobs).dictionary key =
      if s.dictionary key = some id then none else s.dictionary key := by
  have hinv := h.executions id execution hexecution
  have hawait := hinv.await_of_next (h.callers_of_next hjobs hexecution hsettled)
  have hentry := hinv.entry
  unfold State.resume
  dsimp only
  split at hawait
  next hnone =>
    -- the first to go on is the owner, and the entry is still there
    rw [hawait]
    dsimp only
    by_cases hkey : key = execution.key
    · rw [hkey, Function.update_self, if_pos (hentry.mpr hnone)]
    · rw [Function.update_of_ne hkey, if_neg]
      exact fun hother => hkey (h.key_of_entry hother hexecution).symm
  next hsome =>
    -- the owner has been resumed, and the entry is gone
    rw [hawait]
    dsimp only
    rw [if_neg]
    exact fun hother => hsome (hentry.mp (h.key_of_entry hother hexecution ▸ hother))

/-- Resuming the first of the queue keeps the order of the callers. -/
theorem executionInv_resume (h : Inv pending s) (hjobs : s.jobs = (caller, id) :: jobs)
    (hexecution : s.executions id = some execution) (hsettled : execution.outcome = some outcome) :
    ExecutionInv pending (s.resume caller id execution outcome jobs) id
      { execution with resumed := execution.resumed ++ [caller] } := by
  have hinv := h.executions id execution hexecution
  have hcallers := h.callers_of_next hjobs hexecution hsettled
  have hresumed : execution.resumed ++ [caller] ≠ [] := by simp
  refine ⟨hinv.key, hinv.keys, hinv.ownerFirst, ?_, ?_, fun _ => ?_, hinv.calls, ?_, ?_⟩
  -- someone has been resumed now, and the entry is gone
  · rw [h.dictionary_resume hjobs hexecution hsettled]
    refine iff_of_false ?_ hresumed
    split
    next => exact nofun
    next hother => exact hother
  · intro hrunning
    exact absurd (hsettled.symm.trans hrunning) nofun
  · exact hcallers.trans (List.append_cons _ _ _)
  · intro other hother outcome' houtcome'
    rcases update_eq_some.mp houtcome' with ⟨-, rfl⟩ | ⟨-, hold⟩
    · exact ⟨hsettled, hresumed⟩
    · exact ⟨(hinv.received other hother outcome' hold).1, hresumed⟩
  · intro other hother
    by_cases hsame : other.call = caller.call
    · show Function.update s.received caller.call (some outcome) other.call = execution.outcome
      rw [hsame, Function.update_self, hsettled]
    · have hold : other ∈ execution.resumed := by
        refine (List.mem_append.mp hother).resolve_right fun hnew => hsame ?_
        rw [List.mem_singleton.mp hnew]
      exact (Function.update_of_ne hsame _ _).trans (hinv.resumed other hold)

/-- The owner is resumed first and takes its entry out, the others leave the
dictionary as it is. -/
theorem resume (h : Inv pending s) (hjobs : s.jobs = (caller, id) :: jobs)
    (hexecution : s.executions id = some execution) (hsettled : execution.outcome = some outcome) :
    Inv pending (s.resume caller id execution outcome jobs) where
  executions := by
    intro id' execution' hexecution'
    rcases update_eq_some.mp hexecution' with ⟨rfl, rfl⟩ | ⟨hne, hold⟩
    · exact h.executionInv_resume hjobs hexecution hsettled
    · refine (h.executions id' execution' hold).frame ?_ ?_ (Nat.le_refl _) ?_
      · rw [h.dictionary_resume hjobs hexecution hsettled]
        split
        next hentry =>
          rw [hentry]
          exact ⟨nofun, fun hid => absurd (Option.some.inj hid).symm hne⟩
        next => exact Iff.rfl
      · rw [hjobs, jobsOf_cons_ne _ hne]
        rfl
      · intro other hother
        obtain ⟨awaited, hawaited⟩ := h.callers
        -- the call that is resumed awaits this execution, so no other one
        refine Function.update_of_ne (fun hsame => hne ?_) _ _
        rw [← hawaited id' execution' hold other hother, hsame, hawaited id execution hexecution
          caller (h.mem_callers_of_next hjobs hexecution hsettled)]
  started := h.started_update hexecution _
  dictionary := by
    intro key id' hentry
    rw [h.dictionary_resume hjobs hexecution hsettled] at hentry
    split at hentry
    next => cases hentry
    next =>
      exact h.dictionary_update hexecution
        { execution with resumed := execution.resumed ++ [caller] } rfl key id' hentry
  callers := h.callers_update hexecution _ rfl
  calls := by
    intro call hcall
    have hlt := (h.executions id execution hexecution).calls caller
      (h.mem_callers_of_next hjobs hexecution hsettled)
    exact (Function.update_of_ne (Nat.ne_of_gt (Nat.lt_of_lt_of_le hlt hcall)) _ _).trans
      (h.calls call hcall)
  jobs := by
    intro other id' hjob
    refine h.jobs_update id _ (Or.inr (?_ : (other, id') ∈ s.jobs))
    rw [hjobs]
    exact List.mem_cons_of_mem _ hjob

end Resume

end Inv

/-- One step keeps the invariant. -/
theorem inv_step (h : Inv pending s) {event : Event TIN TOUT Error}
    (hstep : step pending s event = some s') : Inv pending s' := by
  cases step_cases hstep with
  | reject error => exact h.reject error
  | join hkey hentry hexecution => exact h.join hkey hentry hexecution
  | start hkey hentry => exact h.start hkey hentry
  | settle outcome hexecution hpending => exact h.settle outcome hexecution hpending
  | resume hjobs hexecution hsettled => exact h.resume hjobs hexecution hsettled

/-- The invariant holds in every state of every run. -/
theorem inv_run {events : List (Event TIN TOUT Error)}
    (hrun : run (step pending) State.init events = some s) : Inv pending s :=
  run_invariant_all (Inv pending) (fun _ _ _ h hstep => inv_step h hstep) inv_init hrun

/-! ## What callers see -/

/-- Someone has got the outcome. -/
def Served (s : State TIN TOUT Error) (execution : Execution TIN TOUT Error) : Prop :=
  ∃ caller ∈ execution.callers, s.received caller.call ≠ none

/-- What callers see: one execution in flight for an argument, and what it comes
to, value or error, for all who await it. -/
structure OneForAll (pending : PendingExecutor TIN Error) (s : State TIN TOUT Error) : Prop where
  oneInFlight : ∀ id id' execution execution', s.executions id = some execution →
    s.executions id' = some execution' → execution.outcome = none → execution'.outcome = none →
      pending.stringify execution.value = pending.stringify execution'.value → id = id'
  /-- A call for what is in flight starts nothing and awaits that. -/
  joins : ∀ id execution value thrown, s.executions id = some execution →
    execution.outcome = none → pending.key value = .ok execution.key →
      ∃ s' caller, step pending s (.call value thrown) = some s' ∧ s'.started = s.started ∧
        caller.call = s.calls ∧
        s'.executions id = some { execution with callers := execution.callers ++ [caller] }
  outcomes : ∀ id execution, s.executions id = some execution → ∀ caller ∈ execution.callers,
    ∀ outcome, s.received caller.call = some outcome → execution.outcome = some outcome
  /-- With nothing left to run, all have what there is. -/
  served : s.jobs = [] → ∀ id execution, s.executions id = some execution →
    ∀ caller ∈ execution.callers, s.received caller.call = execution.outcome
  runs : s.jobs ≠ [] → ∃ s', step pending s .resume = some s'
  keys : ∀ id execution, s.executions id = some execution → ∀ caller ∈ execution.callers,
    pending.key caller.value = .ok execution.key
  apart : ∀ id id' execution execution', s.executions id = some execution →
    s.executions id' = some execution' → ∀ caller ∈ execution.callers,
      ∀ caller' ∈ execution'.callers, caller.call = caller'.call → id = id'
  gone : ∀ id execution, s.executions id = some execution → Served s execution →
    s.dictionary execution.key ≠ some id
  starts : ∀ value key, pending.key value = .ok key →
    (∀ id execution, s.executions id = some execution → execution.key = key →
      Served s execution) →
    ∃ s' execution, step pending s (.call value none) = some s' ∧ s'.started = s.started + 1 ∧
      s'.executions s.started = some execution ∧ execution.value = value ∧ execution.outcome = none

namespace Inv

/-- Arguments of one text have one key. -/
theorem key_eq_of_stringify_eq {value value' : TIN}
    (h : pending.stringify value = pending.stringify value') :
    pending.key value = pending.key value' := by
  rw [PendingExecutor.key, h, PendingExecutor.key]

/-- A call that finds an entry joins, whatever the executor would throw. -/
theorem step_call_join {value : TIN} {key : String} {id : ℕ}
    {execution : Execution TIN TOUT Error} (hkey : pending.key value = .ok key)
    (hentry : s.dictionary key = some id) (hexecution : s.executions id = some execution)
    (thrown : Option Error) :
    step pending s (.call value thrown) = some (s.join value id execution) := by
  rw [step, execute, hkey]
  dsimp only
  rw [hentry]
  dsimp only
  rw [hexecution]
  rfl

/-- An execution has served somebody once anyone has been resumed from it. -/
theorem served_iff (h : Inv pending s) {id : ℕ}
    {execution : Execution TIN TOUT Error} (hexecution : s.executions id = some execution) :
    Served s execution ↔ execution.resumed ≠ [] := by
  have hinv := h.executions id execution hexecution
  constructor
  · rintro ⟨caller, hcaller, hreceived⟩
    obtain ⟨outcome, houtcome⟩ := Option.ne_none_iff_exists'.mp hreceived
    exact (hinv.received caller hcaller outcome houtcome).2
  · intro hresumed
    obtain ⟨caller, hcaller⟩ := List.exists_mem_of_ne_nil _ hresumed
    refine ⟨caller, hinv.mem_callers_of_mem_resumed hcaller, ?_⟩
    rw [hinv.resumed caller hcaller]
    exact fun hrunning => hresumed (hinv.running hrunning).1

/-- The invariant gives all of it. -/
theorem oneForAll (h : Inv pending s) : OneForAll pending s where
  oneInFlight := by
    intro id id' execution execution' hexecution hexecution' hrunning hrunning' hjson
    have hinv := h.executions id execution hexecution
    have hinv' := h.executions id' execution' hexecution'
    have hkey : execution.key = execution'.key := by
      have hkeys := key_eq_of_stringify_eq hjson
      rw [hinv.key, hinv'.key] at hkeys
      exact Except.ok.inj hkeys
    -- while both run nobody has been resumed, so the dictionary has both under one key
    have hentry := hinv.entry.mpr (hinv.running hrunning).1
    have hentry' := hinv'.entry.mpr (hinv'.running hrunning').1
    rw [hkey, hentry'] at hentry
    exact (Option.some.inj hentry).symm
  joins := by
    intro id execution value thrown hexecution hrunning hkey
    have hinv := h.executions id execution hexecution
    have hentry := hinv.entry.mpr (hinv.running hrunning).1
    exact ⟨_, ⟨s.calls, value, .joined⟩, step_call_join hkey hentry hexecution thrown, rfl, rfl,
      Function.update_self _ _ _⟩
  outcomes := fun id execution hexecution caller hcaller outcome houtcome =>
    ((h.executions id execution hexecution).received caller hcaller outcome houtcome).1
  served := by
    intro hjobs id execution hexecution caller hcaller
    have hinv := h.executions id execution hexecution
    cases houtcome : execution.outcome with
    | none =>
      refine Option.eq_none_iff_forall_ne_some.mpr fun outcome hreceived => ?_
      exact absurd (houtcome.symm.trans (hinv.received caller hcaller outcome hreceived).1) nofun
    | some outcome =>
      -- with nothing queued all callers have been resumed
      have hcallers := hinv.settled (by rw [houtcome]; rfl)
      have hnone : jobsOf s.jobs id = [] := by rw [hjobs]; rfl
      rw [hnone, List.append_nil] at hcallers
      rw [hinv.resumed caller (hcallers ▸ hcaller), houtcome]
  runs := by
    intro hjobs
    obtain ⟨⟨caller, id⟩, jobs, heq⟩ := List.exists_cons_of_ne_nil hjobs
    obtain ⟨execution, hexecution⟩ := h.jobs caller id (heq ▸ List.mem_cons_self)
    have hinv := h.executions id execution hexecution
    cases houtcome : execution.outcome with
    -- what is queued belongs to an execution that has settled
    | none =>
      have hnone := (hinv.running houtcome).2
      rw [heq, jobsOf_cons_self] at hnone
      cases hnone
    | some outcome =>
      refine ⟨s.resume caller id execution outcome jobs, ?_⟩
      rw [step, heq]
      dsimp only
      rw [hexecution]
      dsimp only
      rw [houtcome]
      rfl
  keys := fun id execution hexecution => (h.executions id execution hexecution).keys
  apart := by
    intro id id' execution execution' hexecution hexecution' caller hcaller caller' hcaller' hcall
    obtain ⟨awaited, hawaited⟩ := h.callers
    rw [← hawaited id execution hexecution caller hcaller, hcall,
      hawaited id' execution' hexecution' caller' hcaller']
  gone := by
    intro id execution hexecution hserved hentry
    have hinv := h.executions id execution hexecution
    exact (h.served_iff hexecution).mp hserved (hinv.entry.mp hentry)
  starts := by
    intro value key hkey hall
    -- an entry would lead to an execution that has served someone, whose entry is gone
    have hentry : s.dictionary key = none := by
      refine Option.eq_none_iff_forall_ne_some.mpr fun id hentry => ?_
      obtain ⟨execution, hexecution, hsame⟩ := h.dictionary key id hentry
      have hserved := hall id execution hexecution hsame
      have hinv := h.executions id execution hexecution
      exact (h.served_iff hexecution).mp hserved (hinv.entry.mp (hsame ▸ hentry))
    refine ⟨s.start value key, _, ?_, rfl, Function.update_self _ _ _, rfl, rfl⟩
    rw [step, execute, hkey]
    dsimp only
    rw [hentry]

end Inv

/-- **One execution for all who ask**, in any order of calls, settlements and
resumptions. -/
theorem oneForAll_of_run (events : List (Event TIN TOUT Error))
    (hrun : run (step pending) State.init events = some s) : OneForAll pending s :=
  (inv_run hrun).oneForAll

end Steps

/-! ## A call before the owner's turn -/

/-- Numbers, printed, and texts as their own digests. -/
def samplePending : PendingExecutor ℕ String where
  stringify := fun value => .ok (toString value)
  md5 := id

/-- Two calls for the same while another is executed, which fails; then the same
once more. -/
def sampleCalls : List (Event ℕ ℕ String) :=
  [.call 7 none, .call 9 none, .call 7 none, .settle 1 (.error "timeout"), .resume,
    .settle 0 (.ok 1), .resume, .resume, .call 7 none, .settle 2 (.ok 3), .resume]

/-- Four calls, three executions. -/
theorem oneForAll_sample :
    ∃ s : State ℕ ℕ String, run (step samplePending) State.init sampleCalls = some s ∧
      s.started = 3 ∧ OneForAll samplePending s :=
  ⟨_, rfl, rfl, oneForAll_of_run sampleCalls rfl⟩

/-- The entry is not gone when the execution has succeeded: the next call joins
it. -/
theorem not_gone_when_settled :
    ¬∀ (events : List (Event ℕ ℕ String)) (s : State ℕ ℕ String),
      run (step samplePending) State.init events = some s →
        ∀ value key, samplePending.key value = .ok key →
          (∀ id execution, s.executions id = some execution → execution.key = key →
            execution.outcome ≠ none) →
          ∃ s', step samplePending s (.call value none) = some s' ∧
            s'.started = s.started + 1 := by
  intro h
  have hsettled := h [.call 7 none, .settle 0 (.ok 1)] _ rfl 7 _ rfl
  obtain ⟨s', hstep, hstarted⟩ := hsettled fun id execution hexecution _ => by
    rcases update_eq_some.mp hexecution with ⟨-, rfl⟩ | ⟨hne, hold⟩
    · exact nofun
    · exact absurd ((Function.update_of_ne hne _ _).symm.trans hold) nofun
  cases hstep
  cases hstarted

end MxExchange.Utils
