import MxExchange.WeeklyRewards.Payments
import Mathlib.Algebra.BigOperators.Intervals

/-!
# `week-timekeeping.compute.service.ts`: weeks and epochs

Weeks are seven epochs long and are counted from one, from an epoch of the
contract on. Three formulas go back and forth: the week of an epoch, and the
first and the last epoch of a week. They describe one partition of the epochs
(`weeks_partition`), so each of them can stand for the other two.

The blocks of a week are counted by the services that pay rewards, epoch by
epoch from the first one of the week until now. That is right while the week
runs (`countsBlocks_iff`): no end of the week is ever looked up, and a week
that has not begun leaves nothing to reduce.

Epochs and weeks are whole numbers, so the floor of their quotient is the
quotient of integers.
-/

namespace MxExchange.WeeklyRewards

/-- The errors of the service. -/
def ErrInvalidWeek : String := "invalid week"

def ErrInvalidEpochLowerThanFirstWeekStartEpoch : String :=
  "invalid epoch lower than firstWeekStartEpoch"

/-- The service, with what the contract answers. -/
structure WeekTimekeepingComputeService where
  firstWeekStartEpoch : String → ℕ

namespace WeekTimekeepingComputeService

/-- Seven. -/
def epochsInWeek : ℤ := EPOCHS_IN_WEEK

variable (service : WeekTimekeepingComputeService) (scAddress : String)

/-- Weeks count from one. -/
def computeWeekForEpoch (epoch : ℤ) : Except String ℤ :=
  if epoch < service.firstWeekStartEpoch scAddress then
    .error ErrInvalidEpochLowerThanFirstWeekStartEpoch
  else .ok ((epoch - service.firstWeekStartEpoch scAddress) / epochsInWeek + 1)

/-- The first epoch of a week. -/
def computeStartEpochForWeek (week : ℤ) : Except String ℤ :=
  if week ≤ 0 then .error ErrInvalidWeek
  else .ok (service.firstWeekStartEpoch scAddress + (week - 1) * epochsInWeek)

/-- The week is checked once here, and once more where its first epoch is
computed. -/
def computeEndEpochForWeek (week : ℤ) : Except String ℤ := do
  if week ≤ 0 then throw ErrInvalidWeek
  let startEpochForWeek ← service.computeStartEpochForWeek scAddress week
  return startEpochForWeek + epochsInWeek - 1

/-! ## One partition -/

/-- The epochs of a week, as the two ends of it are computed. -/
def InWeek (epoch week : ℤ) : Prop :=
  ∃ first last, service.computeStartEpochForWeek scAddress week = .ok first ∧
    service.computeEndEpochForWeek scAddress week = .ok last ∧ first ≤ epoch ∧ epoch ≤ last

/-- What is asked of the three formulas: an epoch lies in the week that is
computed for it and in no other one, a week begins where the one before it
has ended, and nothing is rejected but weeks below the first one and epochs
before it. -/
structure Partition : Prop where
  inWeek_iff : ∀ epoch week : ℤ, service.firstWeekStartEpoch scAddress ≤ epoch → 1 ≤ week →
    (service.InWeek scAddress epoch week ↔
      service.computeWeekForEpoch scAddress epoch = .ok week)
  consecutive : ∀ week : ℤ, 1 ≤ week → ∃ last first,
    service.computeEndEpochForWeek scAddress week = .ok last ∧
      service.computeStartEpochForWeek scAddress (week + 1) = .ok first ∧ first = last + 1
  disjoint : ∀ epoch week week' : ℤ, service.InWeek scAddress epoch week →
    service.InWeek scAddress epoch week' → week = week'
  covered : ∀ epoch : ℤ, service.firstWeekStartEpoch scAddress ≤ epoch →
    ∃ week : ℤ, 1 ≤ week ∧ service.InWeek scAddress epoch week
  rejected_week : ∀ week : ℤ,
    (service.computeStartEpochForWeek scAddress week = .error ErrInvalidWeek ↔ week ≤ 0) ∧
    (service.computeEndEpochForWeek scAddress week = .error ErrInvalidWeek ↔ week ≤ 0) ∧
    (1 ≤ week → (∃ first, service.computeStartEpochForWeek scAddress week = .ok first) ∧
      ∃ last, service.computeEndEpochForWeek scAddress week = .ok last)
  rejected_epoch : ∀ epoch : ℤ,
    (service.computeWeekForEpoch scAddress epoch =
      .error ErrInvalidEpochLowerThanFirstWeekStartEpoch ↔
        epoch < service.firstWeekStartEpoch scAddress) ∧
    (service.firstWeekStartEpoch scAddress ≤ epoch →
      ∃ week, service.computeWeekForEpoch scAddress epoch = .ok week)

variable {service scAddress} {epoch week : ℤ}

/-- From week one on there is a first epoch. -/
theorem computeStartEpochForWeek_of_pos (h : 1 ≤ week) :
    service.computeStartEpochForWeek scAddress week =
      .ok (service.firstWeekStartEpoch scAddress + (week - 1) * 7) := by
  rw [computeStartEpochForWeek, if_neg (by omega)]
  rfl

/-- From week one on there is a last epoch. -/
theorem computeEndEpochForWeek_of_pos (h : 1 ≤ week) :
    service.computeEndEpochForWeek scAddress week =
      .ok (service.firstWeekStartEpoch scAddress + (week - 1) * 7 + 7 - 1) := by
  rw [computeEndEpochForWeek, if_neg (by omega), computeStartEpochForWeek_of_pos h]
  rfl

theorem computeStartEpochForWeek_of_le (h : week ≤ 0) :
    service.computeStartEpochForWeek scAddress week = .error ErrInvalidWeek := if_pos h

theorem computeEndEpochForWeek_of_le (h : week ≤ 0) :
    service.computeEndEpochForWeek scAddress week = .error ErrInvalidWeek := by
  rw [computeEndEpochForWeek, if_pos h]
  rfl

/-- From the first week on every epoch has a week. -/
theorem computeWeekForEpoch_of_le (h : service.firstWeekStartEpoch scAddress ≤ epoch) :
    service.computeWeekForEpoch scAddress epoch =
      .ok ((epoch - service.firstWeekStartEpoch scAddress) / 7 + 1) := by
  rw [computeWeekForEpoch, if_neg (not_lt.mpr h)]
  rfl

/-- Weeks below the first one have no epochs. -/
theorem inWeek_iff_le : service.InWeek scAddress epoch week ↔
    1 ≤ week ∧ service.firstWeekStartEpoch scAddress + (week - 1) * 7 ≤ epoch ∧
      epoch ≤ service.firstWeekStartEpoch scAddress + (week - 1) * 7 + 7 - 1 := by
  rcases le_or_gt week 0 with hle | hpos
  · refine iff_of_false ?_ (fun h => absurd h.1 (by omega))
    rintro ⟨first, last, hfirst, -⟩
    rw [computeStartEpochForWeek_of_le hle] at hfirst
    cases hfirst
  · constructor
    · rintro ⟨first, last, hfirst, hlast, hle⟩
      rw [computeStartEpochForWeek_of_pos hpos] at hfirst
      rw [computeEndEpochForWeek_of_pos hpos] at hlast
      cases hfirst
      cases hlast
      exact ⟨hpos, hle⟩
    · intro h
      exact ⟨_, _, computeStartEpochForWeek_of_pos hpos, computeEndEpochForWeek_of_pos hpos, h.2⟩

/-- **Weeks partition the epochs**, whatever epoch the first one starts at. -/
theorem weeks_partition (service : WeekTimekeepingComputeService) (scAddress : String) :
    service.Partition scAddress where
  inWeek_iff epoch week hepoch hweek := by
    rw [inWeek_iff_le, computeWeekForEpoch_of_le hepoch, Except.ok.injEq]
    omega
  consecutive week hweek := by
    refine ⟨_, _, computeEndEpochForWeek_of_pos hweek,
      computeStartEpochForWeek_of_pos (by omega), ?_⟩
    omega
  disjoint epoch week week' h h' := by
    rw [inWeek_iff_le] at h h'
    omega
  covered epoch hepoch := by
    refine ⟨(epoch - service.firstWeekStartEpoch scAddress) / 7 + 1, by omega, ?_⟩
    rw [inWeek_iff_le]
    omega
  rejected_week week := by
    rcases le_or_gt week 0 with hle | hpos
    · rw [computeStartEpochForWeek_of_le hle, computeEndEpochForWeek_of_le hle]
      refine ⟨iff_of_true rfl hle, iff_of_true rfl hle, fun h => ?_⟩
      omega
    · rw [computeStartEpochForWeek_of_pos hpos, computeEndEpochForWeek_of_pos hpos]
      refine ⟨iff_of_false (fun h => ?_) (by omega), iff_of_false (fun h => ?_) (by omega),
        fun _ => ⟨⟨_, rfl⟩, _, rfl⟩⟩
      · cases h
      · cases h
  rejected_epoch epoch := by
    refine ⟨⟨fun h => ?_, fun h => if_pos h⟩, fun h => ⟨_, computeWeekForEpoch_of_le h⟩⟩
    by_contra hle
    rw [computeWeekForEpoch_of_le (not_lt.mp hle)] at h
    cases h

end WeekTimekeepingComputeService

/-! ## The blocks of a week -/

section Blocks

open WeekTimekeepingComputeService (computeEndEpochForWeek)

variable (context : ContextGetterService) (scAddress : String) (week : ℕ)

/-- The timekeeping of the same contract. -/
def ContextGetterService.timekeeping : WeekTimekeepingComputeService where
  firstWeekStartEpoch := context.firstWeekStartEpoch

/-- The first epoch of a week, as a number of epochs. -/
def ContextGetterService.weekStart : ℕ :=
  context.firstWeekStartEpoch scAddress + (week - 1) * EPOCHS_IN_WEEK

/-- The last epoch of a week, as a number of epochs. -/
def ContextGetterService.weekEnd : ℕ :=
  context.weekStart scAddress week + EPOCHS_IN_WEEK - 1

/-- What is asked of the count: the blocks of the epochs from the first one of
the week to the last one, or to the current one if that is earlier. -/
def CountsBlocks : Prop :=
  ∃ first last : ℕ,
    context.timekeeping.computeStartEpochForWeek scAddress week = .ok first ∧
    context.timekeeping.computeEndEpochForWeek scAddress week = .ok last ∧
    computeBlocksInWeek context scAddress week =
      .ok (∑ epoch ∈ Finset.Icc first (min last context.currentEpoch),
        context.getBlocksCountInEpoch epoch 1)

variable {context scAddress week}

/-- The two forms of the formula: weeks of a request, and weeks that count
something. -/
theorem computeStartEpochForWeek_natCast :
    context.timekeeping.computeStartEpochForWeek scAddress week =
      (computeStartEpochForWeek context scAddress week).map Nat.cast := by
  rcases Nat.eq_zero_or_pos week with rfl | hpos
  · rfl
  · rw [WeekTimekeepingComputeService.computeStartEpochForWeek_of_pos (by omega),
      computeStartEpochForWeek, if_neg (by omega)]
    show _ = Except.ok (((context.firstWeekStartEpoch scAddress + (week - 1) * 7 : ℕ) : ℤ))
    push_cast [Nat.cast_sub hpos]
    rfl

theorem startEpoch_eq (h : 1 ≤ week) : computeStartEpochForWeek context scAddress week =
    .ok (context.weekStart scAddress week) := by
  rw [computeStartEpochForWeek, if_neg (by omega)]
  rfl

theorem computeStartEpochForWeek_eq (h : 1 ≤ week) :
    context.timekeeping.computeStartEpochForWeek scAddress week =
      .ok (context.weekStart scAddress week : ℕ) := by
  rw [computeStartEpochForWeek_natCast, startEpoch_eq h]
  rfl

theorem computeEndEpochForWeek_eq (h : 1 ≤ week) :
    context.timekeeping.computeEndEpochForWeek scAddress week =
      .ok (context.weekEnd scAddress week : ℕ) := by
  rw [WeekTimekeepingComputeService.computeEndEpochForWeek_of_pos (by omega)]
  show Except.ok _ = Except.ok
    (((context.firstWeekStartEpoch scAddress + (week - 1) * 7 + 7 - 1 : ℕ) : ℤ))
  congr 1
  show (context.firstWeekStartEpoch scAddress : ℤ) + ((week : ℤ) - 1) * 7 + 7 - 1 = _
  omega

/-- What is asked of the count is one sum over the epochs of the week so far. -/
theorem countsBlocks_iff_eq (h : 1 ≤ week) : CountsBlocks context scAddress week ↔
    computeBlocksInWeek context scAddress week =
      .ok (∑ epoch ∈ Finset.Icc (context.weekStart scAddress week)
        (min (context.weekEnd scAddress week) context.currentEpoch),
          context.getBlocksCountInEpoch epoch 1) := by
  constructor
  · rintro ⟨first, last, hfirst, hlast, hblocks⟩
    rw [computeStartEpochForWeek_eq h] at hfirst
    rw [computeEndEpochForWeek_eq h] at hlast
    obtain rfl : context.weekStart scAddress week = first := by
      exact_mod_cast Except.ok.inj hfirst
    obtain rfl : context.weekEnd scAddress week = last := by
      exact_mod_cast Except.ok.inj hlast
    exact hblocks
  · intro hblocks
    exact ⟨_, _, computeStartEpochForWeek_eq h, computeEndEpochForWeek_eq h, hblocks⟩

/-- `reduce` without an initial value. -/
theorem reduce_eq_sum (first : ℕ) (rest : List ℕ) :
    rest.foldl (· + ·) first = (first :: rest).sum := by
  rw [List.sum_eq_foldl, List.foldl_cons, Nat.zero_add]

/-- The epochs are counted from the first one until now, also after the week has
ended. -/
theorem computeBlocksInWeek_of_le (hweek : 1 ≤ week)
    (h : context.weekStart scAddress week ≤ context.currentEpoch) :
    computeBlocksInWeek context scAddress week =
      .ok (∑ epoch ∈ Finset.Icc (context.weekStart scAddress week) context.currentEpoch,
        context.getBlocksCountInEpoch epoch 1) := by
  have hsum : ∑ epoch ∈ Finset.Icc (context.weekStart scAddress week) context.currentEpoch,
      context.getBlocksCountInEpoch epoch 1 =
      ((List.range' (context.weekStart scAddress week)
        (context.currentEpoch + 1 - context.weekStart scAddress week)).map fun epoch =>
          context.getBlocksCountInEpoch epoch 1).sum := rfl
  rw [hsum]
  unfold computeBlocksInWeek
  rw [startEpoch_eq hweek]
  dsimp only [bind, Except.bind]
  rw [Nat.sub_add_comm h, List.range'_succ, List.map_cons, ← reduce_eq_sum]

/-- There is no epoch to count, and `reduce` has no initial value. -/
theorem computeBlocksInWeek_of_lt (hweek : 1 ≤ week)
    (h : context.currentEpoch < context.weekStart scAddress week) :
    computeBlocksInWeek context scAddress week =
      .error "Reduce of empty array with no initial value" := by
  unfold computeBlocksInWeek
  rw [startEpoch_eq hweek]
  dsimp only [bind, Except.bind]
  rw [Nat.sub_eq_zero_of_le h]
  rfl

/-- Epochs after the end of the week do no harm as long as they have no blocks. -/
theorem sum_blocks_eq_iff {first last : ℕ} :
    ∑ epoch ∈ Finset.Icc first context.currentEpoch, context.getBlocksCountInEpoch epoch 1 =
        ∑ epoch ∈ Finset.Icc first (min last context.currentEpoch),
          context.getBlocksCountInEpoch epoch 1 ↔
      ∀ epoch, first ≤ epoch → last < epoch → epoch ≤ context.currentEpoch →
        context.getBlocksCountInEpoch epoch 1 = 0 := by
  have hsubset : Finset.Icc first (min last context.currentEpoch) ⊆
      Finset.Icc first context.currentEpoch :=
    Finset.Icc_subset_Icc le_rfl (min_le_right _ _)
  rw [← Finset.sum_sdiff hsubset, Nat.add_eq_right, Finset.sum_eq_zero_iff]
  simp only [Finset.mem_sdiff, Finset.mem_Icc, le_min_iff]
  constructor
  · intro h epoch hfirst hlast hcurrent
    exact h epoch ⟨⟨hfirst, hcurrent⟩, fun hle => absurd hle.2.1 (not_le.mpr hlast)⟩
  · intro h epoch hmem
    refine h epoch hmem.1.1 (not_le.mp fun hle => hmem.2 ?_) hmem.1.2
    exact ⟨hmem.1.1, hle, hmem.1.2⟩

/-- **The blocks of a week** are counted right if, and only if, it is a week
that has begun, and no epoch between its end and now has any blocks. -/
theorem countsBlocks_iff (context : ContextGetterService) (scAddress : String) (week : ℕ) :
    CountsBlocks context scAddress week ↔
      1 ≤ week ∧ context.weekStart scAddress week ≤ context.currentEpoch ∧
        ∀ epoch, context.weekEnd scAddress week < epoch → epoch ≤ context.currentEpoch →
          context.getBlocksCountInEpoch epoch 1 = 0 := by
  rcases Nat.eq_zero_or_pos week with rfl | hweek
  · refine iff_of_false ?_ (fun h => absurd h.1 (by omega))
    rintro ⟨first, last, hfirst, -⟩
    cases hfirst
  · rw [countsBlocks_iff_eq hweek]
    rcases le_or_gt (context.weekStart scAddress week) context.currentEpoch with hle | hlt
    · rw [computeBlocksInWeek_of_le hweek hle, Except.ok.injEq, sum_blocks_eq_iff]
      have hbounds : context.weekStart scAddress week ≤ context.weekEnd scAddress week := by
        simp only [ContextGetterService.weekEnd, EPOCHS_IN_WEEK]
        omega
      refine ⟨fun h => ⟨hweek, hle, fun epoch hlast => h epoch (by omega) hlast⟩,
        fun h epoch _ => h.2.2 epoch⟩
    · rw [computeBlocksInWeek_of_lt hweek hlt]
      exact iff_of_false (fun h => by cases h) (fun h => absurd h.2.1 (not_le.mpr hlt))

end Blocks

section Sample

/-- Epoch seven, with a block in each epoch. -/
def sampleContext : ContextGetterService where
  firstWeekStartEpoch := fun _ => 0
  currentEpoch := 7
  getBlocksCountInEpoch := fun _ _ => 1

/-- The first week, which is over, gets the eighth block too; the third one
has not begun. -/
theorem not_countsBlocks_sample :
    computeBlocksInWeek sampleContext "farm" 1 = .ok 8 ∧
    ¬CountsBlocks sampleContext "farm" 1 ∧
    computeBlocksInWeek sampleContext "farm" 3 =
      .error "Reduce of empty array with no initial value" := by
  refine ⟨rfl, ?_, rfl⟩
  rw [countsBlocks_iff_eq le_rfl]
  decide

end Sample

end MxExchange.WeeklyRewards
