import Mathlib.Algebra.Order.Ring.Nat
import Mathlib.Tactic.Ring
import MxExchange.Collections.Runs

/-!
# `guestCaching.middleware.ts`: hits of guest queries

Requests without a user are counted by query and minute, in memory, and every
`batchSize` of them are to be reported to a counter in Redis at once. The
counter in memory goes from one to `batchSize` and starts over, without a
pause between reading and writing it. What is reported is read from it once
more, after the query has been stored: by then further requests may have come
and started it over.

A request runs from one await to the next, so the requests of a minute are
parties of one system, each in the phase it waits in (`step`). A report is in
time when the requests that have come make full batches. What is reported adds
up to the full batches if all reports are in time, and to less if one is not
(`sum_increments_iff`).
-/

namespace MxExchange.Utils.GuestCaching

open MxExchange.Collections

/-- The middleware, for one query. The batch size comes from the environment. -/
structure GuestCachingMiddleware where
  batchSize : ℕ
  batchSize_pos : 0 < batchSize

/-- What a request waits for. `isFirstEntryForThisKey` is kept until the
minute's counter is given a time to live. -/
inductive GuestPhase where
  | arriving
  | storesBody (isFirstEntryForThisKey : Bool)
  | reports (isFirstEntryForThisKey : Bool)
  | reportsFirstEntry
  | setsTtl
  | readsResponse
  | done
  deriving DecidableEq

/-- `cacheHitsCounter` at the minute and the query, and the increments that
were sent to Redis. -/
structure GuestCounter where
  minuteEntry : Bool
  cacheHits : ℕ
  increments : List ℕ
  deriving DecidableEq

structure GuestState where
  counter : GuestCounter
  phases : List GuestPhase
  deriving DecidableEq

def GuestCounter.zIncrementRemote (counter : GuestCounter) (increment : ℕ) : GuestCounter :=
  { counter with increments := counter.increments ++ [increment] }

/-- From the report on, or from the counting where nothing is reported. -/
def firstEntry (isFirstEntryForThisKey : Bool) (counter : GuestCounter) :
    GuestPhase × GuestCounter :=
  if isFirstEntryForThisKey then (.reportsFirstEntry, counter.zIncrementRemote 0)
  else (.readsResponse, counter)

namespace GuestCachingMiddleware

variable (middleware : GuestCachingMiddleware)

/-- A request runs up to its next await. -/
def use : GuestPhase → GuestCounter → GuestPhase × GuestCounter
  | .arriving, counter =>
    let cacheHits :=
      if counter.cacheHits < middleware.batchSize then counter.cacheHits + 1 else 1
    let counted : GuestCounter :=
      { counter with
        minuteEntry := true
        cacheHits := cacheHits }
    if middleware.batchSize ≤ cacheHits then (.storesBody !counter.minuteEntry, counted)
    else firstEntry (!counter.minuteEntry) counted
  | .storesBody isFirst, counter =>
    (.reports isFirst, counter.zIncrementRemote counter.cacheHits)
  | .reports isFirst, counter => firstEntry isFirst counter
  | .reportsFirstEntry, counter => (.setsTtl, counter)
  | .setsTtl, counter => (.readsResponse, counter)
  | .readsResponse, counter => (.done, counter)
  | .done, counter => (.done, counter)

/-- One request goes on. -/
def step (s : GuestState) (i : ℕ) : Option GuestState :=
  match s.phases[i]? with
  | none => none
  | some .done => none
  | some phase =>
    some
      { counter := (middleware.use phase s.counter).2
        phases := s.phases.set i (middleware.use phase s.counter).1 }

end GuestCachingMiddleware

def GuestPhase.hasArrived : GuestPhase → Bool
  | arriving => false
  | _ => true

/-- The request is to report and has not done so. -/
def GuestPhase.isToReport : GuestPhase → Bool
  | storesBody _ => true
  | _ => false

def GuestState.arrived (s : GuestState) : ℕ := s.phases.countP GuestPhase.hasArrived

def GuestState.toReport (s : GuestState) : ℕ := s.phases.countP GuestPhase.isToReport

/-- All requests of a minute, from the first to the last step. Another query
may have had a request in the minute before. -/
structure GuestRun (middleware : GuestCachingMiddleware) (n : ℕ) where
  minuteEntry : Bool
  schedule : List ℕ
  final : GuestState
  ran : run middleware.step ⟨⟨minuteEntry, 0, []⟩, List.replicate n .arriving⟩ schedule = some final
  finished : ∀ phase ∈ final.phases, phase = .done

/-- A request that is to report goes on while the requests that have come
make full batches. -/
def InTime (middleware : GuestCachingMiddleware) (s : GuestState) (i : ℕ) : Prop :=
  ∀ isFirst, s.phases[i]? = some (.storesBody isFirst) → middleware.batchSize ∣ s.arrived

/-! ## The counter in memory -/

/-- The counter after `k` requests. -/
def hitsAfter (b k : ℕ) : ℕ := if k = 0 then 0 else (k - 1) % b + 1

theorem hitsAfter_succ (b k : ℕ) : hitsAfter b (k + 1) = k % b + 1 := by
  unfold hitsAfter
  rw [if_neg (by omega), Nat.add_sub_cancel]

/-- The counter starts over after a full batch. -/
theorem hitsAfter_next {b : ℕ} (hb : 0 < b) (k : ℕ) :
    (if hitsAfter b k < b then hitsAfter b k + 1 else 1) = hitsAfter b (k + 1) := by
  cases k with
  | zero => rw [hitsAfter_succ, Nat.zero_mod, hitsAfter, if_pos rfl, if_pos hb]
  | succ m =>
    have hlt := Nat.mod_lt m hb
    have hmod : (m % b + 1) % b = (m + 1) % b := Nat.mod_add_mod m b 1
    rw [hitsAfter_succ, hitsAfter_succ, ← hmod]
    by_cases h : m % b + 1 < b
    · rw [if_pos h, Nat.mod_eq_of_lt h]
    · rw [if_neg h, show m % b + 1 = b by omega, Nat.mod_self]

theorem hitsAfter_le {b : ℕ} (hb : 0 < b) (k : ℕ) : hitsAfter b k ≤ b := by
  cases k with
  | zero => exact hb.le
  | succ m =>
    rw [hitsAfter_succ]
    exact Nat.mod_lt m hb

/-- It stands at the batch size when the batches are full. -/
theorem hitsAfter_eq_iff {b k : ℕ} (hb : 0 < b) (hk : 0 < k) : hitsAfter b k = b ↔ b ∣ k := by
  obtain ⟨m, rfl⟩ := Nat.exists_eq_add_of_le' hk
  have hlt := Nat.mod_lt m hb
  have hmod : (m % b + 1) % b = (m + 1) % b := Nat.mod_add_mod m b 1
  rw [hitsAfter_succ, Nat.dvd_iff_mod_eq_zero, ← hmod]
  by_cases h : m % b + 1 < b
  · rw [Nat.mod_eq_of_lt h]
    omega
  · rw [show m % b + 1 = b by omega, Nat.mod_self]
    simp

/-! ## One step -/

section Steps

variable {middleware : GuestCachingMiddleware} {s t : GuestState} {i : ℕ}

/-- What a step does to the counter, and to how many requests are in phases
of a kind. -/
theorem step_effect (h : middleware.step s i = some t) :
    ∃ phase, s.phases[i]? = some phase ∧ t.counter = (middleware.use phase s.counter).2 ∧
      t.phases.length = s.phases.length ∧
      ∀ kind : GuestPhase → Bool,
        t.phases.countP kind + (if kind phase then 1 else 0) =
          s.phases.countP kind + if kind (middleware.use phase s.counter).1 then 1 else 0 := by
  unfold GuestCachingMiddleware.step at h
  cases hphase : s.phases[i]? with
  | none =>
    rw [hphase] at h
    exact absurd h (by simp)
  | some phase =>
    obtain ⟨hi, rfl⟩ := List.getElem?_eq_some_iff.mp hphase
    have hresult : t =
        { counter := (middleware.use s.phases[i] s.counter).2
          phases := s.phases.set i (middleware.use s.phases[i] s.counter).1 } := by
      rw [hphase] at h
      split at h
      next heq => exact absurd heq (by simp)
      next => exact absurd h (by simp)
      next phase _ heq =>
        obtain rfl := Option.some.inj heq
        exact (Option.some.inj h).symm
    subst hresult
    refine ⟨_, rfl, rfl, List.length_set, fun kind => ?_⟩
    -- one phase is replaced, so a count changes by what the old and the new one are
    rw [List.countP_set hi]
    have hpos : kind s.phases[i] → 0 < s.phases.countP kind := fun hkind =>
      List.countP_pos_iff.mpr ⟨_, List.getElem_mem hi, hkind⟩
    by_cases hkind : kind s.phases[i]
    · have := hpos hkind
      rw [if_pos hkind]
      omega
    · rw [if_neg hkind]
      omega

/-- A step counts an arrival, reports, or does neither. -/
inductive Effect (middleware : GuestCachingMiddleware) (s t : GuestState) (i : ℕ) : Prop
  | arrives (hphase : s.phases[i]? = some .arriving) (harrived : t.arrived = s.arrived + 1)
    (hhits : t.counter.cacheHits = if s.counter.cacheHits < middleware.batchSize then
      s.counter.cacheHits + 1 else 1)
    (htoReport : t.toReport = s.toReport +
      if middleware.batchSize ≤ t.counter.cacheHits then 1 else 0)
    (hsum : t.counter.increments.sum = s.counter.increments.sum)
  | reports (isFirst : Bool) (hphase : s.phases[i]? = some (.storesBody isFirst))
    (harrived : t.arrived = s.arrived) (hpos : 0 < s.arrived)
    (hhits : t.counter.cacheHits = s.counter.cacheHits) (htoReport : t.toReport + 1 = s.toReport)
    (hsum : t.counter.increments.sum = s.counter.increments.sum + s.counter.cacheHits)
  | other (hphase : ∀ isFirst, s.phases[i]? ≠ some (.storesBody isFirst))
    (harrived : t.arrived = s.arrived) (hhits : t.counter.cacheHits = s.counter.cacheHits)
    (htoReport : t.toReport = s.toReport)
    (hsum : t.counter.increments.sum = s.counter.increments.sum)

/-- Going on without a report to make. -/
theorem firstEntry_spec (isFirst : Bool) (counter : GuestCounter) :
    (firstEntry isFirst counter).1.hasArrived = true ∧
      (firstEntry isFirst counter).1.isToReport = false ∧
      (firstEntry isFirst counter).2.cacheHits = counter.cacheHits ∧
      (firstEntry isFirst counter).2.increments.sum = counter.increments.sum := by
  cases isFirst <;> simp [firstEntry, GuestCounter.zIncrementRemote, GuestPhase.hasArrived,
    GuestPhase.isToReport]

/-- Requests that have been counted, and have no report to make, go on in the
same way. -/
theorem use_quiet (middleware : GuestCachingMiddleware) {phase : GuestPhase}
    (harrived : phase.hasArrived = true)
    (htoReport : phase.isToReport = false) (counter : GuestCounter) :
    (middleware.use phase counter).1.hasArrived = true ∧
      (middleware.use phase counter).1.isToReport = false ∧
      (middleware.use phase counter).2.cacheHits = counter.cacheHits ∧
      (middleware.use phase counter).2.increments.sum = counter.increments.sum := by
  cases phase with
  | arriving => exact absurd harrived (by decide)
  | storesBody isFirst => exact absurd htoReport (by simp [GuestPhase.isToReport])
  | reports isFirst => exact firstEntry_spec isFirst counter
  | reportsFirstEntry => exact ⟨rfl, rfl, rfl, rfl⟩
  | setsTtl => exact ⟨rfl, rfl, rfl, rfl⟩
  | readsResponse => exact ⟨rfl, rfl, rfl, rfl⟩
  | done => exact ⟨rfl, rfl, rfl, rfl⟩

/-- A request that comes is counted, and may have to report. -/
theorem use_arriving (middleware : GuestCachingMiddleware) (counter : GuestCounter) :
    (middleware.use .arriving counter).1.hasArrived = true ∧
      (middleware.use .arriving counter).2.cacheHits =
        (if counter.cacheHits < middleware.batchSize then counter.cacheHits + 1 else 1) ∧
      (middleware.use .arriving counter).1.isToReport =
        decide (middleware.batchSize ≤ (middleware.use .arriving counter).2.cacheHits) ∧
      (middleware.use .arriving counter).2.increments.sum = counter.increments.sum := by
  obtain ⟨hits, hhits⟩ : ∃ hits, hits =
      if counter.cacheHits < middleware.batchSize then counter.cacheHits + 1 else 1 := ⟨_, rfl⟩
  have huse : middleware.use .arriving counter =
      let counted : GuestCounter :=
        { counter with
          minuteEntry := true
          cacheHits := hits }
      if middleware.batchSize ≤ hits then (.storesBody !counter.minuteEntry, counted)
      else firstEntry (!counter.minuteEntry) counted := by
    rw [hhits]
    rfl
  rw [huse, ← hhits]
  -- a full batch goes straight to the report, whoever has made the minute's entry
  by_cases hfull : middleware.batchSize ≤ hits
  · rw [if_pos hfull]
    exact ⟨rfl, rfl, (decide_eq_true hfull).symm, rfl⟩
  · rw [if_neg hfull]
    obtain ⟨harrived, htoReport, hcount, hsum⟩ := firstEntry_spec (!counter.minuteEntry)
      { counter with
        minuteEntry := true
        cacheHits := hits }
    refine ⟨harrived, hcount, ?_, hsum⟩
    rw [htoReport, hcount]
    exact (decide_eq_false hfull).symm

theorem step_cases (h : middleware.step s i = some t) : Effect middleware s t i := by
  obtain ⟨phase, hphase, hcounter, -, hcount⟩ := step_effect h
  have harrived := hcount GuestPhase.hasArrived
  have htoReport := hcount GuestPhase.isToReport
  change t.arrived + _ = s.arrived + _ at harrived
  change t.toReport + _ = s.toReport + _ at htoReport
  -- a phase that has not counted yet arrives, one that is to report reports, and no
  -- other one touches a counter
  cases hcounted : phase.hasArrived with
  | false =>
    obtain rfl : phase = .arriving := by
      cases phase <;> simp [GuestPhase.hasArrived] at hcounted ⊢
    obtain ⟨h₁, h₂, h₃, h₄⟩ := use_arriving middleware s.counter
    rw [← hcounter] at h₂ h₃ h₄
    rw [h₁, hcounted] at harrived
    rw [h₃, show GuestPhase.arriving.isToReport = false from rfl] at htoReport
    refine .arrives hphase (by simpa using harrived) h₂ (by simpa using htoReport) h₄
  | true =>
    cases hstores : phase.isToReport with
    | true =>
      obtain ⟨isFirst, rfl⟩ : ∃ isFirst, phase = .storesBody isFirst := by
        cases phase <;> simp [GuestPhase.isToReport] at hstores ⊢
      have hpos : 0 < s.arrived :=
        List.countP_pos_iff.mpr ⟨_, List.mem_of_getElem? hphase, rfl⟩
      have hnext : middleware.use (.storesBody isFirst) s.counter =
          (.reports isFirst, s.counter.zIncrementRemote s.counter.cacheHits) := rfl
      rw [hnext] at hcounter harrived htoReport
      refine .reports isFirst hphase (Nat.add_right_cancel harrived) hpos (by rw [hcounter]; rfl)
        htoReport ?_
      rw [hcounter]
      simp [GuestCounter.zIncrementRemote]
    | false =>
      obtain ⟨h₁, h₂, h₃, h₄⟩ := use_quiet middleware hcounted hstores s.counter
      rw [← hcounter] at h₃ h₄
      rw [h₁, hcounted] at harrived
      rw [h₂, hstores] at htoReport
      refine .other ?_ (Nat.add_right_cancel harrived) h₃ (Nat.add_right_cancel htoReport) h₄
      rintro isFirst heq
      rw [hphase] at heq
      obtain rfl := Option.some.inj heq
      exact absurd hstores (by simp [GuestPhase.isToReport])

/-! ## What is reported -/

/-- What was reported, and would be if the reports to come were full batches. -/
def GuestState.accounted (b : ℕ) (s : GuestState) : ℕ := s.counter.increments.sum + b * s.toReport

/-- The full batches of the requests that have come. -/
def GuestState.due (b : ℕ) (s : GuestState) : ℕ := b * (s.arrived / b)

/-- The counter stands where so many requests leave it, and no more is
reported than was due. -/
structure Counts (middleware : GuestCachingMiddleware) (s : GuestState) : Prop where
  hits : s.counter.cacheHits = hitsAfter middleware.batchSize s.arrived
  accounted_le : s.accounted middleware.batchSize ≤ s.due middleware.batchSize

/-- A report that is not in time is lost in part, for good. -/
theorem step_counts (hs : Counts middleware s) (h : middleware.step s i = some t) :
    Counts middleware t ∧
      (t.accounted middleware.batchSize = t.due middleware.batchSize ↔
        s.accounted middleware.batchSize = s.due middleware.batchSize ∧ InTime middleware s i) := by
  obtain ⟨hhits, hle⟩ := hs
  have hb := middleware.batchSize_pos
  cases step_cases h with
  | arrives hphase harrived hhits' htoReport hsum =>
    have hin : InTime middleware s i := fun isFirst hstores =>
      absurd (hphase.symm.trans hstores) (by simp)
    rw [hhits, hitsAfter_next hb, ← harrived] at hhits'
    have hfull : middleware.batchSize ≤ t.counter.cacheHits ↔ middleware.batchSize ∣ t.arrived := by
      rw [hhits', ← hitsAfter_eq_iff hb (by omega : 0 < t.arrived)]
      have := hitsAfter_le hb t.arrived
      omega
    -- a batch that has become full is due, and accounted for
    obtain ⟨batch, hdue, haccounted⟩ : ∃ batch,
        t.due middleware.batchSize = s.due middleware.batchSize + batch ∧
          t.accounted middleware.batchSize = s.accounted middleware.batchSize + batch := by
      refine ⟨middleware.batchSize * if middleware.batchSize ∣ t.arrived then 1 else 0, ?_, ?_⟩
      · unfold GuestState.due
        rw [harrived, Nat.succ_div, Nat.mul_add]
      · unfold GuestState.accounted
        rw [hsum, htoReport, Nat.mul_add, Nat.add_assoc]
        simp only [hfull]
    refine ⟨⟨hhits', by omega⟩, ?_⟩
    rw [haccounted, hdue, Nat.add_right_cancel_iff]
    exact (and_iff_left hin).symm
  | reports isFirst hphase harrived hpos hhits' htoReport hsum =>
    have hin : InTime middleware s i ↔ s.counter.cacheHits = middleware.batchSize := by
      rw [hhits, hitsAfter_eq_iff hb hpos]
      exact ⟨fun hdvd => hdvd isFirst hphase, fun hdvd _ _ => hdvd⟩
    have hhits_le : s.counter.cacheHits ≤ middleware.batchSize := hhits ▸ hitsAfter_le hb s.arrived
    have hdue : t.due middleware.batchSize = s.due middleware.batchSize := by
      unfold GuestState.due
      rw [harrived]
    have haccounted : t.accounted middleware.batchSize + middleware.batchSize =
        s.accounted middleware.batchSize + s.counter.cacheHits := by
      unfold GuestState.accounted
      rw [hsum, ← htoReport, Nat.mul_add]
      omega
    rw [hin]
    refine ⟨⟨by rw [hhits', harrived, hhits], by omega⟩, ?_⟩
    omega
  | other hphase harrived hhits' htoReport hsum =>
    have hin : InTime middleware s i := fun isFirst hstores => absurd hstores (hphase isFirst)
    have hdue : t.due middleware.batchSize = s.due middleware.batchSize := by
      unfold GuestState.due
      rw [harrived]
    have haccounted : t.accounted middleware.batchSize = s.accounted middleware.batchSize := by
      unfold GuestState.accounted
      rw [hsum, htoReport]
    refine ⟨⟨by rw [hhits', harrived, hhits], by omega⟩, ?_⟩
    rw [haccounted, hdue]
    exact (and_iff_left hin).symm

end Steps

/-! ## Runs -/

section Runs

variable {middleware : GuestCachingMiddleware} {s t : GuestState} {schedule : List ℕ}

theorem run_counts (hs : Counts middleware s) (h : run middleware.step s schedule = some t) :
    t.accounted middleware.batchSize = t.due middleware.batchSize ↔
      s.accounted middleware.batchSize = s.due middleware.batchSize ∧
        Meets middleware.step (InTime middleware) s schedule := by
  induction schedule generalizing s with
  | nil =>
    obtain rfl : s = t := Option.some.inj h
    exact (and_iff_left trivial).symm
  | cons i schedule ih =>
    obtain ⟨u, hu, hrest⟩ := run_cons_eq_some.mp h
    obtain ⟨hcounts, hstep⟩ := step_counts hs hu
    rw [ih hcounts hrest, hstep, and_assoc]
    refine and_congr_right fun _ => and_congr_right fun _ => ?_
    constructor
    · intro hmeets u' hu'
      obtain rfl := Option.some.inj (hu.symm.trans hu')
      exact hmeets
    · exact fun hmeets => hmeets u hu

theorem run_length (h : run middleware.step s schedule = some t) :
    t.phases.length = s.phases.length :=
  run_invariant_all (fun u => u.phases.length = s.phases.length)
    (fun u i u' hu hstep => by
      obtain ⟨-, -, -, hlength, -⟩ := step_effect hstep
      rw [hlength, hu]) rfl h

end Runs

theorem counts_start (middleware : GuestCachingMiddleware) (n : ℕ) (minuteEntry : Bool) :
    Counts middleware ⟨⟨minuteEntry, 0, []⟩, List.replicate n .arriving⟩ ∧
      GuestState.arrived ⟨⟨minuteEntry, 0, []⟩, List.replicate n .arriving⟩ = 0 ∧
      GuestState.toReport ⟨⟨minuteEntry, 0, []⟩, List.replicate n .arriving⟩ = 0 := by
  have harrived : (List.replicate n GuestPhase.arriving).countP GuestPhase.hasArrived = 0 := by
    rw [List.countP_replicate]
    rfl
  have htoReport : (List.replicate n GuestPhase.arriving).countP GuestPhase.isToReport = 0 := by
    rw [List.countP_replicate]
    rfl
  refine ⟨⟨?_, ?_⟩, harrived, htoReport⟩
  · show 0 = hitsAfter _ (GuestState.arrived _)
    rw [GuestState.arrived, harrived]
    rfl
  · unfold GuestState.accounted GuestState.toReport
    rw [htoReport]
    exact Nat.zero_le _

/-- The increments of a minute add up to the full batches if every report is
in time, and only then. -/
theorem sum_increments_iff (middleware : GuestCachingMiddleware) (n : ℕ)
    (guests : GuestRun middleware n) :
    guests.final.counter.increments.sum = middleware.batchSize * (n / middleware.batchSize) ↔
      Meets middleware.step (InTime middleware)
        ⟨⟨guests.minuteEntry, 0, []⟩, List.replicate n .arriving⟩ guests.schedule := by
  obtain ⟨hstart, harrived, htoReport⟩ := counts_start middleware n guests.minuteEntry
  have hrun := run_counts hstart guests.ran
  have hlength : guests.final.phases.length = n := by
    rw [run_length guests.ran, List.length_replicate]
  -- at the end all have come, and no report is left to make
  have hall : guests.final.arrived = n := by
    refine Eq.trans (List.countP_eq_length.mpr fun phase hphase => ?_) hlength
    rw [guests.finished phase hphase]
    rfl
  have hnone : guests.final.toReport = 0 := by
    refine List.countP_eq_zero.mpr fun phase hphase => ?_
    rw [guests.finished phase hphase]
    decide
  unfold GuestState.accounted GuestState.due at hrun
  rw [hall, hnone, harrived, htoReport] at hrun
  simpa using hrun

/-- The default batch size, and four requests of which the fourth comes
while the third one's query is being stored. -/
def lateReport : GuestRun ⟨3, by decide⟩ 4 where
  minuteEntry := false
  schedule := [0, 1, 2, 3, 2, 0, 0, 0, 1, 2, 2, 3]
  final := ⟨⟨true, 1, [0, 1]⟩, List.replicate 4 .done⟩
  ran := by decide
  finished := by decide

/-- A batch of three is reported as one. -/
theorem sum_lateReport :
    ¬∀ (middleware : GuestCachingMiddleware) (n : ℕ) (guests : GuestRun middleware n),
      guests.final.counter.increments.sum =
        middleware.batchSize * (n / middleware.batchSize) := by
  intro h
  have hsum := h ⟨3, by decide⟩ 4 lateReport
  exact absurd hsum (by decide)

end MxExchange.Utils.GuestCaching
