import MxExchange.Farm.BatchRewards

/-!
# Which weeks can still be claimed

The fees collector and the farms pay for past weeks, four at most, and none
that a user has already claimed. Each of them loops over the weeks on its own:
`fees-collector.service.ts` works out the first and the last week for its
model, and the resolver asks for the weeks between them;
`farm.v2.service.ts` does both at once, and has another way to treat a user
who has never claimed.

Both loops are put in the form of one run of weeks (`claimableFrom`), and
`claimableWeeks_agree` is then about that run only.
-/

namespace MxExchange.FeesCollector

open MxExchange.Num WeeklyRewards Collections Farm

/-- The views that decide about the weeks. -/
structure FeesCollectorService where
  currentWeek : String → ℕ
  lastActiveWeekForUser : String → String → ℕ

/-- The weeks that are shown to a user. -/
structure UserEntryFeesCollectorModel where
  address : String
  userAddress : String
  startWeek : ℤ
  endWeek : ℤ
  currentWeek : ℕ

/-- What the split is asked for: one entry a week. -/
structure WeeklySplitModel where
  scAddress : String
  userAddress : String
  week : ℤ
  deriving DecidableEq

/-- `for (let week = startWeek; week <= endWeek; week++)` -/
def weeksBetween (startWeek endWeek : ℤ) : List ℤ :=
  (List.range (endWeek + 1 - startWeek).toNat).map fun i : ℕ => startWeek + i

/-- The weeks of the range, but for those before the first week. -/
def getUserWeeklyRewardsSplit (scAddress userAddress : String) (startWeek endWeek : ℤ) :
    List WeeklySplitModel :=
  (weeksBetween startWeek endWeek).filterMap fun week =>
    if week < 1 then none
    else
      some
        { scAddress := scAddress
          userAddress := userAddress
          week := week }

namespace FeesCollectorService

variable (service : FeesCollectorService) (scAddress userAddress : String)

/-- The weeks from the last active one, or the last few. -/
def userFeesCollector : UserEntryFeesCollectorModel :=
  let lastActiveWeekForUser := service.lastActiveWeekForUser scAddress userAddress
  let currentWeek := service.currentWeek scAddress
  { address := scAddress
    userAddress := userAddress
    startWeek :=
      if lastActiveWeekForUser = 0 then currentWeek
      else max ((currentWeek : ℤ) - USER_MAX_CLAIM_WEEKS) lastActiveWeekForUser
    endWeek := (currentWeek : ℤ) - 1
    currentWeek := currentWeek }

/-- The resolver's field of the same name. -/
def undistributedRewards : List WeeklySplitModel :=
  let parent := service.userFeesCollector scAddress userAddress
  getUserWeeklyRewardsSplit parent.address parent.userAddress parent.startWeek parent.endWeek

end FeesCollectorService

/-! ## One run of weeks -/

/-- The weeks from the later of two, the last active one and four weeks ago,
to the one before the current one. -/
def claimableFrom (currentWeek lastActiveWeek : ℕ) : List ℕ :=
  if lastActiveWeek = 0 then []
  else
    let startWeek := max (currentWeek - USER_MAX_CLAIM_WEEKS) lastActiveWeek
    List.range' startWeek (currentWeek - startWeek)

/-- What is asked of the weeks: a run without gaps or repetitions, no longer
than a user may claim at once, of weeks that exist, that are over, and that
the user has not claimed before the last active one. -/
structure ClaimWindow (weeks : List ℤ) (currentWeek lastActiveWeek : ℕ) : Prop where
  contiguous : ∃ (first : ℤ) (n : ℕ), n ≤ USER_MAX_CLAIM_WEEKS ∧
    weeks = (List.range n).map fun i : ℕ => first + i
  nodup : weeks.Nodup
  bounds : ∀ week ∈ weeks, 1 ≤ week ∧ week < currentWeek ∧ (lastActiveWeek : ℤ) ≤ week
  never : lastActiveWeek = 0 → weeks = []

section Run

variable {currentWeek lastActiveWeek : ℕ}

theorem nodup_range_map (first : ℤ) (n : ℕ) :
    ((List.range n).map fun i : ℕ => first + i).Nodup :=
  List.nodup_range.map fun i j h => by omega

theorem map_range'_natCast (s n : ℕ) : (List.range' s n).map (Nat.cast : ℕ → ℤ) =
    (List.range n).map fun i : ℕ => (s : ℤ) + i := by
  rw [List.range'_eq_map_range, List.map_map]
  exact List.map_congr_left fun i _ => Nat.cast_add s i

/-- The weeks that the farms look at. -/
theorem claimWindow_claimableFrom (currentWeek lastActiveWeek : ℕ) :
    ClaimWindow ((claimableFrom currentWeek lastActiveWeek).map Nat.cast) currentWeek
      lastActiveWeek := by
  rcases Nat.eq_zero_or_pos lastActiveWeek with rfl | hactive
  · exact
      { contiguous := ⟨0, 0, Nat.zero_le _, rfl⟩
        nodup := List.nodup_nil
        bounds := fun week hweek => by cases hweek
        never := fun _ => rfl }
  · rw [claimableFrom, if_neg hactive.ne', map_range'_natCast]
    refine
      { contiguous := ⟨_, _, ?_, rfl⟩
        nodup := nodup_range_map _ _
        bounds := ?_
        never := fun h => absurd h hactive.ne' }
    · rw [USER_MAX_CLAIM_WEEKS]
      omega
    · intro week hweek
      obtain ⟨i, hi, rfl⟩ := List.mem_map.mp hweek
      rw [List.mem_range] at hi
      omega

end Run

/-! ## The two loops -/

section Loops

/-- Weeks below the first one are skipped. -/
theorem getUserWeeklyRewardsSplit_weeks (scAddress userAddress : String)
    (startWeek endWeek : ℤ) :
    (getUserWeeklyRewardsSplit scAddress userAddress startWeek endWeek).map (·.week) =
      (weeksBetween startWeek endWeek).filter fun week => 1 ≤ week := by
  rw [getUserWeeklyRewardsSplit, List.map_filterMap, ← List.filterMap_eq_filter]
  apply List.filterMap_congr
  intro week _
  by_cases hweek : week < 1
  · rw [if_pos hweek, Option.map_none, Option.guard, if_neg (by simpa using hweek)]
  · rw [if_neg hweek, Option.map_some, Option.guard, if_pos (by simpa using hweek)]

/-- The weeks that the fees collector shows a user. -/
theorem undistributedRewards_weeks (service : FeesCollectorService)
    (scAddress userAddress : String) :
    (service.undistributedRewards scAddress userAddress).map (·.week) =
      (claimableFrom (service.currentWeek scAddress)
        (service.lastActiveWeekForUser scAddress userAddress)).map Nat.cast := by
  rw [FeesCollectorService.undistributedRewards, getUserWeeklyRewardsSplit_weeks, claimableFrom]
  unfold FeesCollectorService.userFeesCollector weeksBetween
  dsimp only
  split
  next hnever =>
    have hempty : ((service.currentWeek scAddress : ℤ) - 1 + 1 -
        service.currentWeek scAddress).toNat = 0 := by omega
    rw [hempty]
    rfl
  next hactive =>
    have hlength : ((service.currentWeek scAddress : ℤ) - 1 + 1 -
        max ((service.currentWeek scAddress : ℤ) - USER_MAX_CLAIM_WEEKS)
          (service.lastActiveWeekForUser scAddress userAddress)).toNat =
        service.currentWeek scAddress - max (service.currentWeek scAddress - USER_MAX_CLAIM_WEEKS)
          (service.lastActiveWeekForUser scAddress userAddress) := by
      omega
    have hstart : max ((service.currentWeek scAddress : ℤ) - USER_MAX_CLAIM_WEEKS)
          (service.lastActiveWeekForUser scAddress userAddress) =
        (max (service.currentWeek scAddress - USER_MAX_CLAIM_WEEKS)
          (service.lastActiveWeekForUser scAddress userAddress) : ℕ) := by
      omega
    rw [hlength, hstart, map_range'_natCast, List.filter_eq_self]
    intro week hweek
    obtain ⟨i, -, rfl⟩ := List.mem_map.mp hweek
    rw [decide_eq_true_eq]
    omega

theorem boostedWeeks_eq (service : FarmServiceV2) (positon : CalculateRewardsArgs) :
    service.boostedWeeks positon =
      claimableFrom (service.currentWeek positon.farmAddress)
        (service.lastActiveWeekForUser positon.farmAddress positon.user) := by
  unfold FarmServiceV2.boostedWeeks claimableFrom
  dsimp only
  split
  next hnever =>
    rw [Nat.sub_eq_zero_of_le (le_max_right _ _)]
    rfl
  next hactive =>
    rw [List.filter_eq_self]
    intro week hweek
    rw [List.mem_range'_1] at hweek
    rw [decide_eq_true_eq]
    omega

/-- The weeks that a farm's boosted rewards are for. -/
theorem boostedRewards_weeks {service : FarmServiceV2} {positon : CalculateRewardsArgs}
    {model : RewardsModel} (h : service.getRewardsForPosition positon true = .ok model) :
    ∃ infos, model.boostedRewardsWeeklyInfo = some infos ∧
      infos.map (·.week) = service.boostedWeeks positon := by
  obtain ⟨attributes, -, hrest⟩ := bind_eq_ok.mp h
  obtain ⟨rewards, -, hrest⟩ := bind_eq_ok.mp hrest
  obtain ⟨accumulated, -, hmodel⟩ := bind_eq_ok.mp hrest
  rw [← pure_eq_ok.mp hmodel]
  refine ⟨_, rfl, ?_⟩
  rw [List.map_map]
  exact List.map_id _

/-- **The claimable weeks** of a user are the same ones in the fees collector
and in a farm that agree about the current week and the last active one, and
they are a window of claimable weeks. -/
theorem claimableWeeks_agree (fees : FeesCollectorService) (farm : FarmServiceV2)
    {scAddress userAddress : String} {positon : CalculateRewardsArgs}
    (hcurrent : farm.currentWeek positon.farmAddress = fees.currentWeek scAddress)
    (hactive : farm.lastActiveWeekForUser positon.farmAddress positon.user =
      fees.lastActiveWeekForUser scAddress userAddress) :
    ClaimWindow ((fees.undistributedRewards scAddress userAddress).map (·.week))
      (fees.currentWeek scAddress) (fees.lastActiveWeekForUser scAddress userAddress) ∧
    ∀ model, farm.getRewardsForPosition positon true = .ok model →
      ∃ infos, model.boostedRewardsWeeklyInfo = some infos ∧
        infos.map (fun info => (info.week : ℤ)) =
          (fees.undistributedRewards scAddress userAddress).map (·.week) := by
  rw [undistributedRewards_weeks]
  refine ⟨claimWindow_claimableFrom _ _, fun model hmodel => ?_⟩
  obtain ⟨infos, hinfos, hweeks⟩ := boostedRewards_weeks hmodel
  refine ⟨infos, hinfos, ?_⟩
  rw [boostedWeeks_eq, hcurrent, hactive] at hweeks
  rw [← hweeks, List.map_map]
  rfl

end Loops

section Sample

/-- Week seven; the user was last active in week five. -/
def sampleFees : FeesCollectorService where
  currentWeek := fun _ => 7
  lastActiveWeekForUser := fun _ _ => 5

example : (sampleFees.undistributedRewards "fees" "user").map (·.week) = [5, 6] := by decide

theorem claimableWeeks_agree_sample :
    ClaimWindow ((sampleFees.undistributedRewards "fees" "user").map (·.week)) 7 5 ∧
    ∀ model, Farm.sampleService.getRewardsForPosition (samplePositions 0) true = .ok model →
      ∃ infos, model.boostedRewardsWeeklyInfo = some infos ∧
        infos.map (fun info => (info.week : ℤ)) =
          (sampleFees.undistributedRewards "fees" "user").map (·.week) :=
  claimableWeeks_agree sampleFees Farm.sampleService rfl rfl

end Sample

end MxExchange.FeesCollector
