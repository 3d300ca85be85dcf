import MxExchange.WeeklyRewards.WeekTimekeeping

/-!
# `weekly-rewards-splitting.abi.service.ts`: a user's energy by week

Where the contract has no energy of a user for a week, `userEnergyForWeek`
takes the energy of the claim progress and depletes it to the end of the
week. It does so in the object that `currentClaimProgress` has handed out, to
everyone who asked while the query was pending or the answer cached, so the
epoch of that object moves on and the amount goes down for all of them.

What a read does to the object is one step, between two awaits, and reads of
several weeks take their steps in some order. Each step brings the energy to
the later of its own epoch and the end of the week (`depletedTo_depletedTo`),
so a read is right if no week read before it ended later (`returns_iff`), and
reads leave the claim progress as it was only if nothing was to be depleted
(`independent_iff`).

A read returns the energy of the shared object, not a copy of it. What a read
returns is taken here as it is when the read returns it; a caller who keeps
it sees it change with every later read that depletes further.
-/

namespace MxExchange.WeeklyRewards

open Energy (EnergyType)

/-- What the contract answers to `getUserEnergyForWeek`. -/
structure UserEnergyResponse where
  userError : Bool
  returnMessage : String
  firstValue : Option EnergyType

/-- The energy the contract has stored for the week, if any. -/
def UserEnergyResponse.stored (response : UserEnergyResponse) : Option EnergyType :=
  if response.userError ∧ response.returnMessage = INPUT_TOO_SHORT then none
  else response.firstValue

/-- The reads of one user's energy at one contract: its weeks, and what it
answers for each. -/
structure EnergyReader where
  timekeeping : WeekTimekeepingComputeService
  scAddress : String
  getUserEnergyForWeek : ℤ → UserEnergyResponse

namespace EnergyReader

variable (reader : EnergyReader)

def endEpochForWeek (week : ℤ) : Except String ℤ :=
  reader.timekeeping.computeEndEpochForWeek reader.scAddress week

/-- A read, and the claim progress as it leaves the object it was handed. The
energy is a snapshot of what is returned. -/
def userEnergyForWeekRaw (week : ℤ) (claimProgress : ClaimProgress) :
    Except String EnergyType × ClaimProgress :=
  match reader.endEpochForWeek week with
  | .error message => (.error message, claimProgress)
  | .ok endEpochForWeek =>
    match (reader.getUserEnergyForWeek week).stored with
    | some energy => (.ok energy, claimProgress)
    | none =>
      if claimProgress.week = 0 then (.ok noProgress.energy, claimProgress)
      else if claimProgress.energy.lastUpdateEpoch < endEpochForWeek then
        -- the amount and the epoch are assigned to in the shared object
        let energy : EnergyType :=
          { claimProgress.energy with
            amount := claimProgress.energy.amount -
              claimProgress.energy.totalLockedTokens *
                (endEpochForWeek - claimProgress.energy.lastUpdateEpoch)
            lastUpdateEpoch := endEpochForWeek }
        (.ok energy, { claimProgress with energy := energy })
      else (.ok claimProgress.energy, claimProgress)

/-- Reads that share one object, in the order of their steps: what each
returns when it returns, and the object after the last. -/
def readAll : List ℤ → ClaimProgress → List (ℤ × Except String EnergyType) × ClaimProgress
  | [], claimProgress => ([], claimProgress)
  | week :: weeks, claimProgress =>
    let (energy, claimProgress) := reader.userEnergyForWeekRaw week claimProgress
    let (reads, claimProgress) := readAll weeks claimProgress
    ((week, energy) :: reads, claimProgress)

/-! ## What a read is to return -/

end EnergyReader

/-- The claim progress with its energy at a later epoch. -/
def ClaimProgress.depletedTo (claimProgress : ClaimProgress) (epoch : ℤ) : ClaimProgress :=
  if claimProgress.energy.lastUpdateEpoch < epoch then
    { claimProgress with
      energy :=
        { claimProgress.energy with
          amount := claimProgress.energy.amount -
            claimProgress.energy.totalLockedTokens *
              (epoch - claimProgress.energy.lastUpdateEpoch)
          lastUpdateEpoch := epoch } }
  else claimProgress

namespace ClaimProgress

variable {progress : ClaimProgress} {s t : ℤ}

@[simp] theorem depletedTo_week : (progress.depletedTo t).week = progress.week := by
  unfold depletedTo
  split <;> rfl

@[simp] theorem depletedTo_lastUpdateEpoch : (progress.depletedTo t).energy.lastUpdateEpoch =
    max progress.energy.lastUpdateEpoch t := by
  unfold depletedTo
  split
  next h => exact (max_eq_right h.le).symm
  next h => exact (max_eq_left (by omega)).symm

theorem depletedTo_of_le (h : t ≤ progress.energy.lastUpdateEpoch) :
    progress.depletedTo t = progress := if_neg (by omega)

/-- Depleting twice is depleting to the later epoch. -/
theorem depletedTo_depletedTo :
    (progress.depletedTo s).depletedTo t = progress.depletedTo (max s t) := by
  rcases le_total t s with hts | hst
  · rw [max_eq_left hts]
    refine depletedTo_of_le ?_
    rw [depletedTo_lastUpdateEpoch]
    exact le_max_of_le_right hts
  · rw [max_eq_right hst]
    by_cases hs : progress.energy.lastUpdateEpoch < s
    · unfold depletedTo
      rw [if_pos hs]
      dsimp only
      rcases hst.eq_or_lt with rfl | hlt
      · rw [if_neg (lt_irrefl _), if_pos hs]
      · rw [if_pos hlt, if_pos (hs.trans hlt)]
        congr 2
        ring
    · have hself : progress.depletedTo s = progress := depletedTo_of_le (by omega)
      rw [hself]

/-- The epoch says how far the energy was depleted. -/
theorem depletedTo_energy_eq_iff :
    (progress.depletedTo s).energy = (progress.depletedTo t).energy ↔
      max progress.energy.lastUpdateEpoch s = max progress.energy.lastUpdateEpoch t := by
  constructor
  · intro h
    have hepoch := congrArg EnergyType.lastUpdateEpoch h
    rwa [depletedTo_lastUpdateEpoch, depletedTo_lastUpdateEpoch] at hepoch
  · intro h
    have hmax : ∀ r, progress.depletedTo r =
        progress.depletedTo (max progress.energy.lastUpdateEpoch r) := by
      intro r
      have hself : progress.depletedTo progress.energy.lastUpdateEpoch = progress :=
        depletedTo_of_le le_rfl
      rw [← depletedTo_depletedTo, hself]
    rw [hmax s, hmax t, h]

end ClaimProgress

namespace EnergyReader

variable (reader : EnergyReader)

/-- The energy of the claim progress at the end of the week, unless the
contract has one for the week, or the user has made no progress. -/
def energyAt (claimProgress : ClaimProgress) (week : ℤ) : Except String EnergyType :=
  (reader.endEpochForWeek week).map fun endEpochForWeek =>
    match (reader.getUserEnergyForWeek week).stored with
    | some energy => energy
    | none =>
      if claimProgress.week = 0 then noProgress.energy
      else (claimProgress.depletedTo endEpochForWeek).energy

/-- The end of a week that a read depletes to. -/
def depletes (week : ℤ) : Option ℤ :=
  if (reader.getUserEnergyForWeek week).stored = none then (reader.endEpochForWeek week).toOption
  else none

/-- Reads do not disturb each other: each returns the energy at the end of
its own week, as it would on a copy, and the claim progress stays as it was. -/
structure Independent (claimProgress : ClaimProgress) (weeks : List ℤ) : Prop where
  returns : ∀ read ∈ (reader.readAll weeks claimProgress).1,
    read.2 = reader.energyAt claimProgress read.1
  onCopy : ∀ read ∈ (reader.readAll weeks claimProgress).1,
    read.2 = (reader.userEnergyForWeekRaw read.1 claimProgress).1
  kept : (reader.readAll weeks claimProgress).2 = claimProgress

/-! ## One read -/

variable {reader} {progress : ClaimProgress} {week : ℤ} {weeks : List ℤ}

theorem userEnergyForWeekRaw_fst :
    (reader.userEnergyForWeekRaw week progress).1 = reader.energyAt progress week := by
  unfold userEnergyForWeekRaw energyAt ClaimProgress.depletedTo
  cases reader.endEpochForWeek week with
  | error message => rfl
  | ok endEpoch =>
    cases (reader.getUserEnergyForWeek week).stored with
    | some energy => rfl
    | none =>
      show _ = Except.ok _
      dsimp only
      split
      next => rfl
      next => split <;> rfl

theorem userEnergyForWeekRaw_snd (reader : EnergyReader) (week : ℤ) (progress : ClaimProgress) :
    (reader.userEnergyForWeekRaw week progress).2 =
      match reader.depletes week with
      | some endEpoch => if progress.week = 0 then progress else progress.depletedTo endEpoch
      | none => progress := by
  unfold userEnergyForWeekRaw depletes ClaimProgress.depletedTo
  cases reader.endEpochForWeek week with
  | error message => cases (reader.getUserEnergyForWeek week).stored <;> rfl
  | ok endEpoch =>
    cases (reader.getUserEnergyForWeek week).stored with
    | some energy => rfl
    | none =>
      show _ = if progress.week = 0 then progress else _
      dsimp only
      split
      next => rfl
      next => split <;> rfl

theorem depletes_eq_some_iff {endEpoch : ℤ} : reader.depletes week = some endEpoch ↔
    (reader.getUserEnergyForWeek week).stored = none ∧
      reader.endEpochForWeek week = .ok endEpoch := by
  unfold depletes
  cases reader.endEpochForWeek week <;> simp [Except.toOption]

theorem energyAt_of_depletes {endEpoch : ℤ} (h : reader.depletes week = some endEpoch)
    (hweek : progress.week ≠ 0) :
    reader.energyAt progress week = .ok (progress.depletedTo endEpoch).energy := by
  obtain ⟨hstored, hend⟩ := depletes_eq_some_iff.mp h
  unfold energyAt
  rw [hend, hstored]
  show Except.ok (if progress.week = 0 then _ else _) = _
  rw [if_neg hweek]

/-- Where nothing is depleted the claim progress is not looked at. -/
theorem energyAt_of_not_depletes (h : reader.depletes week = none)
    (progress progress' : ClaimProgress) :
    reader.energyAt progress week = reader.energyAt progress' week := by
  unfold depletes at h
  unfold energyAt
  cases hend : reader.endEpochForWeek week with
  | error message => rfl
  | ok endEpoch =>
    cases hstored : (reader.getUserEnergyForWeek week).stored with
    | some energy => rfl
    | none =>
      rw [if_pos hstored, hend] at h
      exact absurd h (by simp [Except.toOption])

/-! ## Reads in a row -/

theorem readAll_cons : reader.readAll (week :: weeks) progress =
    ((week, (reader.userEnergyForWeekRaw week progress).1) ::
        (reader.readAll weeks (reader.userEnergyForWeekRaw week progress).2).1,
      (reader.readAll weeks (reader.userEnergyForWeekRaw week progress).2).2) := rfl

/-- Nothing is depleted that is to stay as it is. -/
theorem readAll_of_fixed
    (h : ∀ week ∈ weeks, (reader.userEnergyForWeekRaw week progress).2 = progress) :
    (reader.readAll weeks progress).2 = progress ∧
      ∀ read ∈ (reader.readAll weeks progress).1, read.2 = reader.energyAt progress read.1 := by
  induction weeks with
  | nil => exact ⟨rfl, fun read hread => absurd hread List.not_mem_nil⟩
  | cons week weeks ih =>
    obtain ⟨hkept, hreads⟩ := ih fun w hw => h w (List.mem_cons_of_mem _ hw)
    rw [readAll_cons, h week List.mem_cons_self]
    refine ⟨hkept, fun read hread => ?_⟩
    rcases List.mem_cons.mp hread with rfl | hrest
    · exact userEnergyForWeekRaw_fst
    · exact hreads read hrest

/-- The object ends up at the latest of the epochs it was depleted to. -/
theorem readAll_lastUpdateEpoch (reader : EnergyReader) (weeks : List ℤ)
    (hweek : progress.week ≠ 0) :
    (reader.readAll weeks progress).2.energy.lastUpdateEpoch =
      (weeks.filterMap reader.depletes).foldl max progress.energy.lastUpdateEpoch := by
  induction weeks generalizing progress with
  | nil => rfl
  | cons week weeks ih =>
    have hstep := userEnergyForWeekRaw_snd reader week progress
    rw [readAll_cons]
    cases hdepletes : reader.depletes week with
    | none =>
      rw [hdepletes] at hstep
      rw [List.filterMap_cons_none hdepletes, hstep]
      exact ih hweek
    | some endEpoch =>
      rw [hdepletes] at hstep
      dsimp only at hstep
      rw [if_neg hweek] at hstep
      rw [List.filterMap_cons_some hdepletes, hstep, List.foldl_cons]
      show (reader.readAll weeks (progress.depletedTo endEpoch)).2.energy.lastUpdateEpoch = _
      rw [ih (by simpa using hweek), ClaimProgress.depletedTo_lastUpdateEpoch]

theorem le_foldl_max (epochs : List ℤ) (t : ℤ) :
    t ≤ epochs.foldl max t ∧ ∀ epoch ∈ epochs, epoch ≤ epochs.foldl max t := by
  induction epochs generalizing t with
  | nil => exact ⟨le_rfl, fun epoch h => absurd h List.not_mem_nil⟩
  | cons e epochs ih =>
    obtain ⟨hle, hall⟩ := ih (max t e)
    rw [List.foldl_cons]
    refine ⟨(le_max_left t e).trans hle, fun epoch hepoch => ?_⟩
    rcases List.mem_cons.mp hepoch with rfl | hepoch
    · exact (le_max_right t epoch).trans hle
    · exact hall epoch hepoch

/-- Reads from an object that was depleted already: none of their weeks may
have ended before, nor before a week that is read earlier. -/
theorem returns_iff_from (reader : EnergyReader) (weeks : List ℤ) (hweek : progress.week ≠ 0)
    (t : ℤ) :
    (∀ read ∈ (reader.readAll weeks (progress.depletedTo t)).1,
        read.2 = reader.energyAt progress read.1) ↔
      (∀ e ∈ weeks.filterMap reader.depletes,
        max progress.energy.lastUpdateEpoch t ≤ max progress.energy.lastUpdateEpoch e) ∧
      (weeks.filterMap reader.depletes).Pairwise fun e e' =>
        e ≤ max progress.energy.lastUpdateEpoch e' := by
  induction weeks generalizing t with
  | nil => simp [readAll]
  | cons week weeks ih =>
    have hstep := userEnergyForWeekRaw_snd reader week (progress.depletedTo t)
    rw [readAll_cons, List.forall_mem_cons, userEnergyForWeekRaw_fst]
    cases hdepletes : reader.depletes week with
    | none =>
      rw [hdepletes] at hstep
      rw [List.filterMap_cons_none hdepletes, hstep, ih t]
      exact and_iff_right (energyAt_of_not_depletes hdepletes _ _)
    -- the read moves the entry to the end of its week, and the rest is read from there
    | some endEpoch =>
      rw [hdepletes] at hstep
      dsimp only at hstep
      rw [if_neg (by simpa using hweek), ClaimProgress.depletedTo_depletedTo] at hstep
      rw [List.filterMap_cons_some hdepletes, hstep, ih, List.forall_mem_cons,
        List.pairwise_cons, energyAt_of_depletes hdepletes hweek,
        energyAt_of_depletes hdepletes (by simpa using hweek),
        ClaimProgress.depletedTo_depletedTo, Except.ok.injEq,
        ClaimProgress.depletedTo_energy_eq_iff]
      constructor
      · rintro ⟨hread, hrest, hpairwise⟩
        refine ⟨⟨by omega, fun e he => ?_⟩, fun e he => ?_, hpairwise⟩
        · have := hrest e he
          omega
        · have := hrest e he
          omega
      · rintro ⟨⟨hread, hrest⟩, hlater, hpairwise⟩
        refine ⟨by omega, fun e he => ?_, hpairwise⟩
        have := hrest e he
        have := hlater e he
        omega

/-- The reads alone are right if no week is read after one that ended later,
unless neither is later than the claim progress. -/
theorem returns_iff (hweek : progress.week ≠ 0) :
    (∀ read ∈ (reader.readAll weeks progress).1, read.2 = reader.energyAt progress read.1) ↔
      (weeks.filterMap reader.depletes).Pairwise fun e e' =>
        e ≤ max progress.energy.lastUpdateEpoch e' := by
  have hself : progress.depletedTo progress.energy.lastUpdateEpoch = progress :=
    ClaimProgress.depletedTo_of_le le_rfl
  have h := returns_iff_from reader weeks hweek progress.energy.lastUpdateEpoch
  rw [hself, max_self] at h
  rw [h]
  exact and_iff_right fun e _ => le_max_left _ e

/-- Reads are independent if the user has made no progress, or no week that
they deplete to ends after the epoch of the claim progress. -/
theorem independent_iff (reader : EnergyReader) (progress : ClaimProgress) (weeks : List ℤ) :
    reader.Independent progress weeks ↔
      progress.week = 0 ∨
        ∀ week ∈ weeks, (reader.getUserEnergyForWeek week).stored = none →
          ∀ endEpoch, reader.endEpochForWeek week = .ok endEpoch →
            endEpoch ≤ progress.energy.lastUpdateEpoch := by
  constructor
  · intro h
    by_cases hweek : progress.week = 0
    · exact Or.inl hweek
    -- an entry that stays where it is has not been read past its epoch
    · refine Or.inr fun week hmem hstored endEpoch hend => ?_
      have hlast := readAll_lastUpdateEpoch reader weeks hweek
      rw [h.kept] at hlast
      have hin : endEpoch ∈ weeks.filterMap reader.depletes :=
        List.mem_filterMap.mpr ⟨week, hmem, depletes_eq_some_iff.mpr ⟨hstored, hend⟩⟩
      rw [hlast]
      exact (le_foldl_max _ _).2 endEpoch hin
  · intro h
    have hfixed : ∀ week ∈ weeks, (reader.userEnergyForWeekRaw week progress).2 = progress := by
      intro week hmem
      rw [userEnergyForWeekRaw_snd]
      cases hdepletes : reader.depletes week with
      | none => rfl
      | some endEpoch =>
        obtain ⟨hstored, hend⟩ := depletes_eq_some_iff.mp hdepletes
        dsimp only
        split
        next => rfl
        next hweek =>
          exact ClaimProgress.depletedTo_of_le (h.resolve_left hweek week hmem hstored _ hend)
    obtain ⟨hkept, hreads⟩ := readAll_of_fixed hfixed
    exact {
      returns := hreads
      onCopy := fun read hread => (hreads read hread).trans userEnergyForWeekRaw_fst.symm
      kept := hkept }

end EnergyReader

/-- A contract whose first week began in epoch 1, and that has no energy of
the user for any week. -/
def noStoredEnergy : EnergyReader where
  timekeeping := ⟨fun _ => 1⟩
  scAddress := "erd1qqqqqqqqqqqqqpgqjhn0rrta3hceyguqlmkqgklxc0eh0r5rl3tsv6a9k0"
  getUserEnergyForWeek := fun _ => ⟨true, INPUT_TOO_SHORT, none⟩

/-- Energy of 1000 with 10 tokens locked, as of the end of week 1. -/
def afterFirstWeek : ClaimProgress := ⟨⟨1000, 7, 10⟩, 2⟩

/-- Week 3 is read before week 2, which gets the energy of week 3. -/
theorem not_independent_sample : ¬noStoredEnergy.Independent afterFirstWeek [3, 2] := by
  intro h
  have hread := h.returns (2, .ok ⟨860, 21, 10⟩) (by decide +kernel)
  exact absurd hread (by decide +kernel)

end MxExchange.WeeklyRewards
