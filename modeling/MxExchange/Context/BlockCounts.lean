import Mathlib.Logic.Function.Basic
import Mathlib.Order.Nat
import MxExchange.Collections.Runs

/-!
# `context.getter.service.ts`: block counts and how long they are kept

The count of an epoch's blocks is kept for a month, except for the current
epoch, whose count still grows and is kept for a minute. Which epoch is the
current one is read from the cache, where it is kept by itself: by the getter
that does not find it, and every six seconds by `cacheCurrentEpoch`, which
fetches it and writes it a moment later. Blocks of a week are counted for the
epochs up to a current epoch that was read before.

So an epoch that is asked for has begun, but it may not be over although the
cache has another current epoch: an older one, written by a refresh that had
fetched it in time. As long as no count is asked for while the cache has an
epoch before it, what is kept for a month is final (`kept_counts_final`).
-/

namespace MxExchange.Context

open MxExchange.Collections

inductive Lifetime where
  | oneMinute
  | oneMonth
  deriving DecidableEq

/-- Where `getCurrentEpoch` is: it looks the epoch up, fetches it, or has
fetched it and is to store it. -/
inductive EpochRead where
  | lookUp
  | fetch
  | store (epoch : ℕ)
  deriving DecidableEq

/-- Where `getBlocksCountInEpoch` is. -/
inductive CountPhase where
  | currentEpoch (read : EpochRead)
  | lookUp (ttl : Lifetime)
  | fetch (ttl : Lifetime)
  | store (ttl : Lifetime) (count : ℕ)
  deriving DecidableEq

/-- What the processes are doing, each from one await to the next. -/
inductive Task where
  | cacheCurrentEpoch (fetched : Option ℕ)
  | computeBlocksInWeek (startEpoch : ℕ) (read : EpochRead)
  | getBlocksCountInEpoch (epoch : ℕ) (phase : CountPhase)
  deriving DecidableEq

/-- The chain's epoch and the blocks of each epoch, what is cached, and the
tasks of all processes. -/
structure State where
  epoch : ℕ
  blocks : ℕ → ℕ
  currentEpoch : Option ℕ
  blocksCountInEpoch : ℕ → Option (ℕ × Lifetime)
  tasks : List Task

/-- What can happen next, on the chain or in a process. -/
inductive Event where
  | block
  | nextEpoch
  | expireCurrentEpoch
  | expireBlocksCount (epoch : ℕ)
  | cron
  | call (startEpoch : ℕ)
  | resume (i : ℕ)
  deriving DecidableEq

/-- `getCurrentEpoch` up to its next await or its answer, and the entry. -/
def getCurrentEpoch (s : State) : EpochRead → (EpochRead ⊕ ℕ) × Option ℕ
  | .lookUp =>
    match s.currentEpoch with
    | some epoch => (.inr epoch, some epoch)
    | none => (.inl .fetch, none)
  | .fetch => (.inl (.store s.epoch), s.currentEpoch)
  | .store epoch => (.inr epoch, some epoch)

/-- The tasks up to their next await: what they do to the cache, and what is
left of them. -/
def cacheCurrentEpoch (s : State) : Option ℕ → State × List Task
  | none => (s, [.cacheCurrentEpoch (some s.epoch)])
  | some epoch => ({ s with currentEpoch := some epoch }, [])

def computeBlocksInWeek (s : State) (startEpoch : ℕ) (read : EpochRead) : State × List Task :=
  match getCurrentEpoch s read with
  | (.inl read, cached) =>
    ({ s with currentEpoch := cached }, [.computeBlocksInWeek startEpoch read])
  | (.inr currentEpoch, cached) =>
    ({ s with currentEpoch := cached },
      (List.range' startEpoch (currentEpoch + 1 - startEpoch)).map fun epoch =>
        .getBlocksCountInEpoch epoch (.currentEpoch .lookUp))

/-- The segments of a count: the epoch is looked up, then the cache, then the
blocks. -/
def getBlocksCountInEpoch (s : State) (epoch : ℕ) : CountPhase → State × List Task
  | .currentEpoch read =>
    match getCurrentEpoch s read with
    | (.inl read, cached) =>
      ({ s with currentEpoch := cached }, [.getBlocksCountInEpoch epoch (.currentEpoch read)])
    | (.inr currentEpoch, cached) =>
      let ttl := if currentEpoch = epoch then .oneMinute else .oneMonth
      ({ s with currentEpoch := cached }, [.getBlocksCountInEpoch epoch (.lookUp ttl)])
  | .lookUp ttl =>
    match s.blocksCountInEpoch epoch with
    | some _ => (s, [])
    | none => (s, [.getBlocksCountInEpoch epoch (.fetch ttl)])
  | .fetch ttl => (s, [.getBlocksCountInEpoch epoch (.store ttl (s.blocks epoch))])
  | .store ttl count =>
    ({ s with
      blocksCountInEpoch := Function.update s.blocksCountInEpoch epoch (some (count, ttl)) }, [])

/-- The next segment of a task. -/
def Task.run (s : State) : Task → State × List Task
  | .cacheCurrentEpoch fetched => Context.cacheCurrentEpoch s fetched
  | .computeBlocksInWeek startEpoch read => Context.computeBlocksInWeek s startEpoch read
  | .getBlocksCountInEpoch epoch phase => Context.getBlocksCountInEpoch s epoch phase

/-- A task goes on. -/
def resume (s : State) (i : ℕ) : Option State :=
  match s.tasks[i]? with
  | none => none
  | some task => some { (task.run s).1 with tasks := s.tasks.eraseIdx i ++ (task.run s).2 }

/-- A block, an epoch, a segment of a task, or an entry that expires. -/
def step (s : State) : Event → Option State
  | .block => some { s with blocks := Function.update s.blocks s.epoch (s.blocks s.epoch + 1) }
  | .nextEpoch => some { s with epoch := s.epoch + 1 }
  | .expireCurrentEpoch => some { s with currentEpoch := none }
  | .expireBlocksCount epoch =>
    some { s with blocksCountInEpoch := Function.update s.blocksCountInEpoch epoch none }
  | .cron => some { s with tasks := s.tasks ++ [.cacheCurrentEpoch none] }
  | .call startEpoch =>
    some { s with tasks := s.tasks ++ [.computeBlocksInWeek startEpoch .lookUp] }
  | .resume i => resume s i

/-- The chain at any epoch, nothing cached and no task begun. -/
def start (epoch : ℕ) (blocks : ℕ → ℕ) : State :=
  { epoch := epoch
    blocks := blocks
    currentEpoch := none
    blocksCountInEpoch := fun _ => none
    tasks := [] }

/-- The epoch is over, and has so many blocks. -/
def Final (s : State) (epoch count : ℕ) : Prop := epoch < s.epoch ∧ s.blocks epoch = count

/-- What is kept for a month is final. -/
def KeepsFinal (s : State) : Prop :=
  ∀ epoch count, s.blocksCountInEpoch epoch = some (count, .oneMonth) → Final s epoch count

/-- No count is asked for while the cache has an epoch before it as the
current one. -/
def NotSetBack (s : State) : Event → Prop
  | .resume i =>
    match s.tasks[i]?, s.currentEpoch with
    | some (.getBlocksCountInEpoch epoch (.currentEpoch .lookUp)), some cached => epoch ≤ cached
    | _, _ => True
  | _ => True

/-! ## What the chain keeps -/

/-- Epochs only advance, and the counts of those that are over are fixed. -/
structure Later (s s' : State) : Prop where
  epoch : s.epoch ≤ s'.epoch
  blocks : ∀ epoch < s.epoch, s'.blocks epoch = s.blocks epoch

/-- A final count stays final. -/
theorem Later.final {s s' : State} (h : Later s s') {epoch count : ℕ}
    (hfinal : Final s epoch count) : Final s' epoch count :=
  ⟨hfinal.1.trans_le h.epoch, (h.blocks epoch hfinal.1).trans hfinal.2⟩

theorem later_of_eq {s s' : State} (hepoch : s'.epoch = s.epoch) (hblocks : s'.blocks = s.blocks) :
    Later s s' := ⟨hepoch.ge, fun _ _ => by rw [hblocks]⟩

/-! ## What holds in every state -/

/-- A month is right for the epoch. -/
def MonthOk (s : State) (epoch : ℕ) (ttl : Lifetime) : Prop := ttl = .oneMonth → epoch < s.epoch

/-- What a task has read is of the chain, and a month was chosen for an epoch
that is over. -/
def Task.Ok (s : State) : Task → Prop
  | cacheCurrentEpoch none => True
  | cacheCurrentEpoch (some fetched) => fetched ≤ s.epoch
  | computeBlocksInWeek _ (.store fetched) => fetched ≤ s.epoch
  | computeBlocksInWeek _ _ => True
  | getBlocksCountInEpoch epoch (.currentEpoch (.store fetched)) =>
    epoch ≤ fetched ∧ fetched ≤ s.epoch
  | getBlocksCountInEpoch epoch (.currentEpoch _) => epoch ≤ s.epoch
  | getBlocksCountInEpoch epoch (.lookUp ttl) => MonthOk s epoch ttl
  | getBlocksCountInEpoch epoch (.fetch ttl) => MonthOk s epoch ttl
  | getBlocksCountInEpoch epoch (.store ttl count) => ttl = .oneMonth → Final s epoch count

theorem Task.Ok.later {s s' : State} (h : Later s s') {task : Task} (htask : task.Ok s) :
    task.Ok s' := by
  have hepoch := h.epoch
  cases task with
  | cacheCurrentEpoch fetched =>
    cases fetched with
    | none => exact trivial
    | some fetched => exact Nat.le_trans htask hepoch
  | computeBlocksInWeek startEpoch read =>
    cases read with
    | lookUp => exact trivial
    | fetch => exact trivial
    | store fetched => exact Nat.le_trans htask hepoch
  | getBlocksCountInEpoch epoch phase =>
    cases phase with
    | currentEpoch read =>
      cases read with
      | lookUp => exact Nat.le_trans htask hepoch
      | fetch => exact Nat.le_trans htask hepoch
      | store fetched => exact ⟨htask.1, htask.2.trans hepoch⟩
    | lookUp ttl => exact fun hmonth => (htask hmonth).trans_le hepoch
    | fetch ttl => exact fun hmonth => (htask hmonth).trans_le hepoch
    | store ttl count => exact fun hmonth => h.final (htask hmonth)

/-- The cache and the tasks are behind the chain, and what is kept for a
month is final. -/
structure Inv (s : State) : Prop where
  cached : ∀ epoch, s.currentEpoch = some epoch → epoch ≤ s.epoch
  tasks : ∀ task ∈ s.tasks, task.Ok s
  keepsFinal : KeepsFinal s

/-- The answer of `getCurrentEpoch`, or what it goes on with, is of the chain,
and so is what it leaves in the cache. -/
theorem getCurrentEpoch_le {s : State}
    (hcached : ∀ epoch, s.currentEpoch = some epoch → epoch ≤ s.epoch)
    {read : EpochRead} (hread : ∀ epoch, read = .store epoch → epoch ≤ s.epoch) :
    (∀ epoch, (getCurrentEpoch s read).2 = some epoch → epoch ≤ s.epoch) ∧
      (∀ epoch, (getCurrentEpoch s read).1 = .inr epoch → epoch ≤ s.epoch) ∧
      ∀ epoch, (getCurrentEpoch s read).1 = .inl (.store epoch) → epoch = s.epoch := by
  cases read with
  | lookUp =>
    unfold getCurrentEpoch
    cases hc : s.currentEpoch with
    | none => simp
    | some cached =>
      have hle := hcached cached hc
      refine ⟨?_, ?_, by simp⟩
      · rintro epoch ⟨rfl⟩
        exact hle
      · rintro epoch ⟨rfl⟩
        exact hle
  | fetch =>
    refine ⟨hcached, by simp [getCurrentEpoch], ?_⟩
    rintro epoch ⟨rfl⟩
    rfl
  | store fetched =>
    have hle := hread fetched rfl
    refine ⟨?_, ?_, by simp [getCurrentEpoch]⟩
    · rintro epoch ⟨rfl⟩
      exact hle
    · rintro epoch ⟨rfl⟩
      exact hle

/-- Tasks leave the chain alone. -/
theorem run_chain (s : State) (task : Task) :
    (task.run s).1.epoch = s.epoch ∧ (task.run s).1.blocks = s.blocks := by
  cases task with
  | cacheCurrentEpoch fetched => cases fetched <;> exact ⟨rfl, rfl⟩
  | computeBlocksInWeek startEpoch read =>
    show (computeBlocksInWeek s startEpoch read).1.epoch = _ ∧
      (computeBlocksInWeek s startEpoch read).1.blocks = _
    unfold computeBlocksInWeek
    split <;> exact ⟨rfl, rfl⟩
  | getBlocksCountInEpoch epoch phase =>
    show (getBlocksCountInEpoch s epoch phase).1.epoch = _ ∧
      (getBlocksCountInEpoch s epoch phase).1.blocks = _
    unfold getBlocksCountInEpoch
    split
    · split <;> exact ⟨rfl, rfl⟩
    · split <;> exact ⟨rfl, rfl⟩
    · exact ⟨rfl, rfl⟩
    · exact ⟨rfl, rfl⟩

/-- What a task leaves in the cache and goes on with, from a state in which
all is well. -/
structure GoesOn (s s' : State) (next : List Task) : Prop where
  cached : ∀ epoch, s'.currentEpoch = some epoch → epoch ≤ s.epoch
  next : ∀ task ∈ next, task.Ok s
  keepsFinal : ∀ epoch count, s'.blocksCountInEpoch epoch = some (count, .oneMonth) →
    Final s epoch count

section Step

variable {s s' : State}

theorem Inv.goesOn_self (h : Inv s) {next : List Task} (hnext : ∀ task ∈ next, task.Ok s) :
    GoesOn s s next := ⟨h.cached, hnext, h.keepsFinal⟩

theorem Inv.goesOn_cached (h : Inv s) {cached : Option ℕ} {next : List Task}
    (hcached : ∀ epoch, cached = some epoch → epoch ≤ s.epoch) (hnext : ∀ task ∈ next, task.Ok s) :
    GoesOn s { s with currentEpoch := cached } next := ⟨hcached, hnext, h.keepsFinal⟩

/-- An answer of `getCurrentEpoch` is not before the epoch that is asked for. -/
theorem le_of_getCurrentEpoch {epoch fetched : ℕ} {read : EpochRead}
    (htask : (Task.getBlocksCountInEpoch epoch (.currentEpoch read)).Ok s)
    (hset : read = .lookUp → ∀ cached, s.currentEpoch = some cached → epoch ≤ cached)
    (h : (getCurrentEpoch s read).1 = .inr fetched) : epoch ≤ fetched := by
  cases read with
  | lookUp =>
    unfold getCurrentEpoch at h
    cases hc : s.currentEpoch with
    | none =>
      rw [hc] at h
      exact absurd h (by simp)
    | some cached =>
      rw [hc] at h
      obtain rfl := Sum.inr.inj h
      exact hset rfl _ hc
  | fetch => exact absurd h (by simp [getCurrentEpoch])
  | store stored =>
    obtain rfl := Sum.inr.inj h
    exact htask.1

/-- The epoch that is asked for has begun. -/
theorem Task.Ok.begun {epoch : ℕ} {read : EpochRead}
    (h : (Task.getBlocksCountInEpoch epoch (.currentEpoch read)).Ok s) : epoch ≤ s.epoch := by
  cases read with
  | lookUp => exact h
  | fetch => exact h
  | store fetched => exact h.1.trans h.2

/-- `getBlocksCountInEpoch` reads the current epoch. -/
theorem Inv.run_currentEpoch (h : Inv s) {epoch : ℕ} {read : EpochRead}
    (htask : (Task.getBlocksCountInEpoch epoch (.currentEpoch read)).Ok s)
    (hset : read = .lookUp → ∀ cached, s.currentEpoch = some cached → epoch ≤ cached) :
    GoesOn s (getBlocksCountInEpoch s epoch (.currentEpoch read)).1
      (getBlocksCountInEpoch s epoch (.currentEpoch read)).2 := by
  have hread : ∀ fetched, read = .store fetched → fetched ≤ s.epoch := by
    rintro fetched rfl
    exact htask.2
  obtain ⟨hcached, hanswer, hgoes⟩ := getCurrentEpoch_le h.cached hread
  have hbegun := htask.begun
  unfold getBlocksCountInEpoch
  cases hresult : getCurrentEpoch s read with
  | mk outcome cached =>
    rw [hresult] at hcached hanswer hgoes
    simp only [hresult]
    -- either the read goes on, and what it has fetched is of the chain, or it answers,
    -- and the count is kept for a month only if the answer is another epoch
    cases outcome with
    | inl read' =>
      refine h.goesOn_cached hcached fun task hmem => ?_
      obtain rfl := List.mem_singleton.mp hmem
      cases read' with
      | lookUp => exact hbegun
      | fetch => exact hbegun
      | store fetched =>
        have heq := hgoes fetched rfl
        exact ⟨by omega, heq.le⟩
    | inr fetched =>
      refine h.goesOn_cached hcached fun task hmem => ?_
      obtain rfl := List.mem_singleton.mp hmem
      have hle := hanswer fetched rfl
      -- the answer is not below the epoch, so another one is above it and the epoch is
      -- over
      have hge := le_of_getCurrentEpoch htask hset (congrArg Prod.fst hresult)
      show MonthOk s epoch (if fetched = epoch then .oneMinute else .oneMonth)
      intro hmonth
      split at hmonth
      next => exact absurd hmonth (by decide)
      next hne => omega

/-- `computeBlocksInWeek` reads the current epoch, and asks for epochs that
have begun. -/
theorem Inv.run_computeBlocksInWeek (h : Inv s) {startEpoch : ℕ} {read : EpochRead}
    (htask : (Task.computeBlocksInWeek startEpoch read).Ok s) :
    GoesOn s (computeBlocksInWeek s startEpoch read).1
      (computeBlocksInWeek s startEpoch read).2 := by
  have hread : ∀ fetched, read = .store fetched → fetched ≤ s.epoch := by
    rintro fetched rfl
    exact htask
  obtain ⟨hcached, hanswer, hgoes⟩ := getCurrentEpoch_le h.cached hread
  unfold computeBlocksInWeek
  cases hresult : getCurrentEpoch s read with
  | mk outcome cached =>
    rw [hresult] at hcached hanswer hgoes
    cases outcome with
    | inl read' =>
      refine h.goesOn_cached hcached fun task hmem => ?_
      obtain rfl := List.mem_singleton.mp hmem
      cases read' with
      | lookUp => exact trivial
      | fetch => exact trivial
      | store fetched => exact (hgoes fetched rfl).le
    | inr fetched =>
      refine h.goesOn_cached hcached fun task hmem => ?_
      obtain ⟨epoch, hepoch, rfl⟩ := List.mem_map.mp hmem
      have hle := hanswer fetched rfl
      -- only epochs up to the answer are asked for
      have hrange := List.mem_range'_1.mp hepoch
      show epoch ≤ s.epoch
      omega

theorem Inv.run_task (h : Inv s) {task : Task} (htask : task.Ok s)
    (hset : ∀ epoch cached, task = .getBlocksCountInEpoch epoch (.currentEpoch .lookUp) →
      s.currentEpoch = some cached → epoch ≤ cached) :
    GoesOn s (task.run s).1 (task.run s).2 := by
  cases task with
  | cacheCurrentEpoch fetched =>
    cases fetched with
    | none =>
      refine h.goesOn_self fun task hmem => ?_
      obtain rfl := List.mem_singleton.mp hmem
      exact le_refl s.epoch
    | some fetched =>
      refine h.goesOn_cached ?_ fun task hmem => absurd hmem List.not_mem_nil
      rintro epoch ⟨rfl⟩
      exact htask
  | computeBlocksInWeek startEpoch read => exact h.run_computeBlocksInWeek htask
  | getBlocksCountInEpoch epoch phase =>
    cases phase with
    | currentEpoch read =>
      refine h.run_currentEpoch htask ?_
      rintro rfl cached hc
      exact hset epoch cached rfl hc
    | lookUp ttl =>
      show GoesOn s (getBlocksCountInEpoch s epoch (.lookUp ttl)).1
        (getBlocksCountInEpoch s epoch (.lookUp ttl)).2
      unfold getBlocksCountInEpoch
      cases s.blocksCountInEpoch epoch with
      | some entry => exact h.goesOn_self fun task hmem => absurd hmem List.not_mem_nil
      | none =>
        refine h.goesOn_self fun task hmem => ?_
        obtain rfl := List.mem_singleton.mp hmem
        exact htask
    | fetch ttl =>
      refine h.goesOn_self fun task hmem => ?_
      obtain rfl := List.mem_singleton.mp hmem
      exact fun hmonth => ⟨htask hmonth, rfl⟩
    | store ttl count =>
      refine ⟨h.cached, fun task hmem => absurd hmem List.not_mem_nil, ?_⟩
      intro epoch' count' hentry
      have hentry' : Function.update s.blocksCountInEpoch epoch (some (count, ttl)) epoch' =
          some (count', .oneMonth) := hentry
      -- a count that is kept for a month is one the task vouches for
      by_cases heq : epoch' = epoch
      · rw [heq, Function.update_self, Option.some.injEq, Prod.mk.injEq] at hentry'
        obtain ⟨rfl, hmonth⟩ := hentry'
        exact heq ▸ htask hmonth
      · rw [Function.update_of_ne heq] at hentry'
        exact h.keepsFinal epoch' count' hentry'

/-- What holds of a state holds of a later one with the same cache and tasks. -/
theorem Inv.later (h : Inv s) (hlater : Later s s') (hcached : s'.currentEpoch = s.currentEpoch)
    (htasks : s'.tasks = s.tasks) (hcounts : s'.blocksCountInEpoch = s.blocksCountInEpoch) :
    Inv s' := by
  refine ⟨fun epoch hepoch => ?_, fun task hmem => ?_, fun epoch count hentry => ?_⟩
  · exact (h.cached epoch (hcached ▸ hepoch)).trans hlater.epoch
  · exact (h.tasks task (htasks ▸ hmem)).later hlater
  · exact hlater.final (h.keepsFinal epoch count (hcounts ▸ hentry))

theorem Inv.call (h : Inv s) {task : Task} (htask : task.Ok s) :
    Inv { s with tasks := s.tasks ++ [task] } := by
  have hlater : Later s { s with tasks := s.tasks ++ [task] } := later_of_eq rfl rfl
  refine ⟨h.cached, fun task' hmem => ?_, h.keepsFinal⟩
  rcases List.mem_append.mp hmem with hold | hnew
  · exact (h.tasks task' hold).later hlater
  · rw [List.mem_singleton.mp hnew]
    exact htask.later hlater

/-- Every step keeps the invariant, unless it sets the epoch back. -/
theorem inv_step {event : Event} (h : Inv s) (hset : NotSetBack s event)
    (hstep : step s event = some s') : Inv s' := by
  cases event with
  | block =>
    obtain rfl := Option.some.inj hstep
    -- a block changes the count of the current epoch only, and final ones are of epochs
    -- before
    refine h.later ⟨le_rfl, fun epoch hepoch => ?_⟩ rfl rfl rfl
    exact Function.update_of_ne hepoch.ne _ _
  | nextEpoch =>
    obtain rfl := Option.some.inj hstep
    exact h.later ⟨Nat.le_succ _, fun _ _ => rfl⟩ rfl rfl rfl
  | expireCurrentEpoch =>
    obtain rfl := Option.some.inj hstep
    have hlater : Later s { s with currentEpoch := none } := later_of_eq rfl rfl
    exact ⟨fun epoch hepoch => absurd hepoch (by simp),
      fun task hmem => (h.tasks task hmem).later hlater, h.keepsFinal⟩
  | expireBlocksCount epoch =>
    obtain rfl := Option.some.inj hstep
    refine ⟨h.cached, fun task hmem => (h.tasks task hmem).later (later_of_eq rfl rfl), ?_⟩
    intro epoch' count hentry
    have hentry' : Function.update s.blocksCountInEpoch epoch none epoch' =
        some (count, .oneMonth) := hentry
    by_cases heq : epoch' = epoch
    · rw [heq, Function.update_self] at hentry'
      exact absurd hentry' (by simp)
    · rw [Function.update_of_ne heq] at hentry'
      exact h.keepsFinal epoch' count hentry'
  | cron =>
    obtain rfl := Option.some.inj hstep
    exact h.call trivial
  | call startEpoch =>
    obtain rfl := Option.some.inj hstep
    exact h.call trivial
  | resume i =>
    change resume s i = some s' at hstep
    unfold resume at hstep
    cases htask : s.tasks[i]? with
    | none =>
      rw [htask] at hstep
      exact absurd hstep (by simp)
    | some task =>
      rw [htask] at hstep
      obtain rfl := Option.some.inj hstep
      -- a task reads the cache and writes to it, and the chain is the same before and
      -- after
      obtain ⟨hepoch, hblocks⟩ := run_chain s task
      have hgoes := h.run_task (h.tasks task (List.mem_of_getElem? htask))
        (fun epoch cached heq hc => by simpa only [NotSetBack, htask, heq, hc] using hset)
      have hlater : Later s
          { (task.run s).1 with tasks := s.tasks.eraseIdx i ++ (task.run s).2 } :=
        later_of_eq hepoch hblocks
      refine ⟨fun epoch hc => (hgoes.cached epoch hc).trans hlater.epoch, fun task' hmem => ?_,
        fun epoch count hentry => hlater.final (hgoes.keepsFinal epoch count hentry)⟩
      rcases List.mem_append.mp hmem with hold | hnew
      · exact (h.tasks task' (List.mem_of_mem_eraseIdx hold)).later hlater
      · exact (hgoes.next task' hnew).later hlater

end Step

theorem inv_start (epoch : ℕ) (blocks : ℕ → ℕ) : Inv (start epoch blocks) :=
  ⟨fun _ h => absurd h (by simp [start]), fun _ h => absurd h List.not_mem_nil,
    fun _ _ h => absurd h (by simp [start])⟩

/-- What is kept for a month is final in every state of a run in which no
count is asked for while the cache has an epoch before it. -/
theorem kept_counts_final (epoch : ℕ) (blocks : ℕ → ℕ) (events : List Event) (s : State)
    (hmeets : Meets step NotSetBack (start epoch blocks) events)
    (hrun : run step (start epoch blocks) events = some s) : KeepsFinal s :=
  run_invariant Inv (fun _ _ _ => inv_step) (inv_start epoch blocks) hmeets hrun |>.keepsFinal

/-- The blocks of epoch 10 are counted in epoch 11. -/
def lastEpochCounted : List Event :=
  [.block, .nextEpoch, .call 10, .resume 0, .resume 0, .resume 0, .resume 0, .resume 1, .resume 1,
    .resume 1]

theorem kept_counts_final_sample :
    ((run step (start 10 fun _ => 0) lastEpochCounted).map fun s => s.blocksCountInEpoch 10) =
        some (some (1, .oneMonth)) ∧
      ∀ s, run step (start 10 fun _ => 0) lastEpochCounted = some s → KeepsFinal s := by
  refine ⟨by decide, fun s hrun => kept_counts_final 10 (fun _ => 0) lastEpochCounted s ?_ hrun⟩
  refine ⟨trivial, fun s₁ h₁ => ?_⟩
  obtain rfl := Option.some.inj h₁
  refine ⟨trivial, fun s₂ h₂ => ?_⟩
  obtain rfl := Option.some.inj h₂
  refine ⟨trivial, fun s₃ h₃ => ?_⟩
  obtain rfl := Option.some.inj h₃
  refine ⟨trivial, fun s₄ h₄ => ?_⟩
  obtain rfl := Option.some.inj h₄
  refine ⟨trivial, fun s₅ h₅ => ?_⟩
  obtain rfl := Option.some.inj h₅
  refine ⟨trivial, fun s₆ h₆ => ?_⟩
  obtain rfl := Option.some.inj h₆
  refine ⟨show 10 ≤ 11 by omega, fun s₇ h₇ => ?_⟩
  obtain rfl := Option.some.inj h₇
  refine ⟨trivial, fun s₈ h₈ => ?_⟩
  obtain rfl := Option.some.inj h₈
  refine ⟨trivial, fun s₉ h₉ => ?_⟩
  obtain rfl := Option.some.inj h₉
  exact ⟨trivial, fun _ _ => trivial⟩

/-- A refresh has fetched epoch 10 and writes it after epoch 11 was cached,
just before the blocks of epoch 11 are counted. -/
def setBack : List Event :=
  [.cron, .resume 0, .nextEpoch, .block, .call 11, .resume 1, .resume 1, .resume 1, .resume 0,
    .resume 0, .resume 0, .resume 0, .resume 0, .block, .nextEpoch]

/-- One block of epoch 11 is kept for a month. It has two when it is over. -/
theorem not_kept_counts_final :
    ¬∀ (epoch : ℕ) (blocks : ℕ → ℕ) (events : List Event) (s : State),
      run step (start epoch blocks) events = some s → KeepsFinal s := by
  intro h
  have hentry : ((run step (start 10 fun _ => 0) setBack).map fun s =>
      (s.blocksCountInEpoch 11, s.blocks 11)) = some (some (1, .oneMonth), 2) := by decide
  obtain ⟨s, hrun, hs⟩ := Option.map_eq_some_iff.mp hentry
  obtain ⟨hcount, hblocks⟩ := Prod.mk.inj hs
  have hfinal := (h 10 (fun _ => 0) setBack s hrun 11 1 hcount).2
  rw [hblocks] at hfinal
  exact absurd hfinal (by decide)

end MxExchange.Context
