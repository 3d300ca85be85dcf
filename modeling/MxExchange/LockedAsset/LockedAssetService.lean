import MxExchange.Collections.Outcome
import MxExchange.Num.BigNumber
import MxExchange.Text.Buffer

/-!
# `locked-asset.service.ts`: how many epochs until locked assets unlock

A locked asset unlocks part by part, each part at the first start of a month
that is not before the epoch of its milestone; months are thirty epochs long
and are counted from the epoch the contract was set up in. The service decodes
the schedule of a token and reports, in place of the epochs, how many are left.

A report is a countdown if it goes down by one with every epoch and is zero
from the unlock on (`isCountdown_iff`: it is then the distance to the unlock).
Within a month the service reports just that, as it takes the start of the
month and adds a month. It does so for a milestone at the start of a month too,
although one of its own branches lets such a milestone unlock at once when its
epoch comes; `countsDown_iff` says which schedules this leaves. A batch of
tokens with such schedules is decoded later with that much less to wait
(`decodeLockedAssetAttributes_after`).

Epochs are whole numbers, far from those that a double does not have.
-/

namespace MxExchange.LockedAsset

open MxExchange.Num MxExchange.Text MxExchange.Collections

def PRECISION_EX_INCREASE : ℕ := 1000

/-- A milestone as the attributes of a token have it. -/
structure UnlockMilestone where
  epoch : ℕ
  percent : BigNumber

/-- The schedule of a token, as it is decoded. -/
structure LockedAssetAttributes where
  unlockSchedule : List UnlockMilestone
  isMerged : Bool

/-- A milestone as it is reported: a percentage and the epochs until then. -/
structure UnlockMileStoneModel where
  percent : Number
  epochs : ℤ

structure LockedAssetAttributesModel where
  attributes : String
  identifier : List Char
  unlockSchedule : List UnlockMileStoneModel
  isMerged : Bool

structure DecodeAttributesModel where
  attributes : String
  identifier : List Char

/-- `NaN` as none; a missing part is read as the word `undefined`. -/
def tokenNonce (tokenID : List Char) : Option ℤ :=
  parseInt16 ((tokenID.splitOn '-')[2]?.getD "undefined".toList)

/-- What the service asks others, apart from the current epoch. -/
structure LockedAssetService where
  fromAttributes : Bool → String → Except String LockedAssetAttributes
  extendedAttributesActivationNonce : ℕ
  initEpoch : ℕ

namespace LockedAssetService

variable (service : LockedAssetService)

/-- The remainder has the sign of what is divided. -/
def getMonthStartEpoch (unlockEpoch : ℤ) : ℤ :=
  unlockEpoch - (unlockEpoch - service.initEpoch).tmod 30

/-- Zero for the start of a month already reached, else the epochs until the
month after the unlock begins, which may be negative. -/
def getRemainingEpochs (currentEpoch unlockEpoch : ℤ) : ℤ :=
  let unlockStartEpoch := service.getMonthStartEpoch unlockEpoch
  if unlockEpoch ≤ unlockStartEpoch ∧ unlockEpoch ≤ currentEpoch then 0
  else unlockStartEpoch + 30 - currentEpoch

/-- Each milestone with its percentage and the epochs left, not below zero. -/
def getUnlockMilestones (currentEpoch : ℕ) (unlockSchedule : List UnlockMilestone)
    (withActivationNonce : Bool) : List UnlockMileStoneModel :=
  unlockSchedule.map fun unlockMilestone =>
    let unlockPercent :=
      if withActivationNonce then
        unlockMilestone.percent.dividedBy (.ofNat PRECISION_EX_INCREASE)
      else unlockMilestone.percent
    let remainingEpochs := service.getRemainingEpochs currentEpoch unlockMilestone.epoch
    { percent := unlockPercent.toNumber
      epochs := if 0 < remainingEpochs then remainingEpochs else 0 }

/-- `NaN` is not at least anything. -/
def withActivationNonce (identifier : List Char) : Bool :=
  match tokenNonce identifier with
  | some nonce => service.extendedAttributesActivationNonce ≤ nonce
  | none => false

/-- A batch fails if one of its attributes cannot be decoded. -/
def decodeLockedAssetAttributes (currentEpoch : ℕ) (batchAttributes : List DecodeAttributesModel) :
    Except String (List LockedAssetAttributesModel) :=
  batchAttributes.mapM fun lockedAsset => do
    let withActivationNonce := service.withActivationNonce lockedAsset.identifier
    let lockedAssetAttributes ←
      service.fromAttributes withActivationNonce lockedAsset.attributes
    return { attributes := lockedAsset.attributes
             identifier := lockedAsset.identifier
             unlockSchedule := service.getUnlockMilestones currentEpoch
               lockedAssetAttributes.unlockSchedule withActivationNonce
             isMerged := lockedAssetAttributes.isMerged }

end LockedAssetService

/-! ## Countdowns -/

/-- A report, epoch by epoch, that goes down by one until it is zero, which
it is from `last` on. -/
structure IsCountdown (report : ℕ → ℤ) (last : ℤ) : Prop where
  step : ∀ c, report (c + 1) = max 0 (report c - 1)
  zero_iff : ∀ c : ℕ, report c = 0 ↔ last ≤ c

section Countdown

variable {report : ℕ → ℤ} {last : ℤ}

/-- Only the first report is free. -/
theorem report_eq (hstep : ∀ c, report (c + 1) = max 0 (report c - 1)) (hpos : 0 ≤ report 0) :
    ∀ c : ℕ, report c = max 0 (report 0 - c) := by
  intro c
  induction c with
  | zero =>
    show report 0 = max 0 (report 0 - (0 : ℕ))
    omega
  | succ c ih =>
    rw [hstep c, ih]
    push_cast
    omega

/-- A countdown is the distance to its end. -/
theorem isCountdown_iff (hpos : 0 ≤ report 0) :
    IsCountdown report last ↔ ∀ c : ℕ, report c = max 0 (last - c) := by
  constructor
  · intro h
    have hreport := report_eq h.step hpos
    have hzero : report 0 = max 0 last := by
      have hnow := h.zero_iff 0
      have hthen := h.zero_iff (report 0).toNat
      have hlast := h.zero_iff last.toNat
      rw [hreport] at hthen hlast
      omega
    intro c
    rw [hreport c, hzero]
    omega
  · intro h
    refine ⟨fun c => ?_, fun c => ?_⟩
    · rw [h (c + 1), h c]
      push_cast
      omega
    · rw [h c]
      omega

end Countdown

/-! ## The unlock -/

namespace LockedAssetService

variable (service : LockedAssetService)

/-- The first start of a month that is not before the milestone. -/
def unlockableEpoch (unlockEpoch : ℕ) : ℤ :=
  unlockEpoch + (service.initEpoch - unlockEpoch : ℤ) % 30

/-- The epoch of an unlock is the first start of a month from there on. -/
theorem unlockableEpoch_isLeast (unlockEpoch : ℕ) :
    IsLeast {epoch : ℤ | (unlockEpoch : ℤ) ≤ epoch ∧ (30 : ℤ) ∣ epoch - service.initEpoch}
      (service.unlockableEpoch unlockEpoch) := by
  unfold unlockableEpoch
  constructor
  · constructor <;> omega
  · intro epoch hepoch
    obtain ⟨hle, hmonth⟩ := hepoch
    omega

/-- Not at the start of a month, and not before the months are counted. Epoch
zero has no epoch before it to count from. -/
def WithinMonth (unlockEpoch : ℕ) : Prop :=
  (service.initEpoch < unlockEpoch ∧ ¬30 ∣ unlockEpoch - service.initEpoch) ∨
    (unlockEpoch = 0 ∧ 30 ∣ service.initEpoch)

/-- What is reported for one milestone. -/
def reported (unlockEpoch currentEpoch : ℕ) : ℤ :=
  max 0 (service.getRemainingEpochs currentEpoch unlockEpoch)

variable {service} {unlockEpoch : ℕ}

theorem ite_pos_eq_reported (unlockEpoch currentEpoch : ℕ) :
    (if 0 < service.getRemainingEpochs currentEpoch unlockEpoch then
      service.getRemainingEpochs currentEpoch unlockEpoch else 0) =
    service.reported unlockEpoch currentEpoch := by
  rw [reported]
  split
  next hpos => exact (max_eq_right hpos.le).symm
  next hpos => exact (max_eq_left (not_lt.mp hpos)).symm

theorem getUnlockMilestones_epochs {α : Type} (f : ℤ → α) (currentEpoch : ℕ)
    (unlockSchedule : List UnlockMilestone) (withActivationNonce : Bool) :
    ((service.getUnlockMilestones currentEpoch unlockSchedule withActivationNonce).map fun model =>
      f model.epochs) =
    unlockSchedule.map fun milestone => f (service.reported milestone.epoch currentEpoch) := by
  rw [getUnlockMilestones, List.map_map]
  apply List.map_congr_left
  intro milestone _
  exact congrArg f (ite_pos_eq_reported milestone.epoch currentEpoch)

/-- The start of the month that the epoch is in. -/
theorem getMonthStartEpoch_of_le (h : service.initEpoch ≤ unlockEpoch) :
    service.getMonthStartEpoch unlockEpoch =
      unlockEpoch - ((unlockEpoch : ℤ) - service.initEpoch) % 30 := by
  rw [getMonthStartEpoch, Int.tmod_eq_emod_of_nonneg (by omega)]

/-- Before the months are counted the start of a month is the one ahead. -/
theorem le_getMonthStartEpoch (h : unlockEpoch ≤ service.initEpoch) :
    (unlockEpoch : ℤ) ≤ service.getMonthStartEpoch unlockEpoch := by
  have hsign : ((unlockEpoch : ℤ) - service.initEpoch).tmod 30 ≤ 0 := by
    rw [← neg_sub, Int.neg_tmod, Int.tmod_eq_emod_of_nonneg (by omega)]
    omega
  rw [getMonthStartEpoch]
  omega

/-- A milestone at the start of a month, or before the months are counted, is
reported as over when its epoch comes. -/
theorem reported_of_le (hstart : (unlockEpoch : ℤ) ≤ service.getMonthStartEpoch unlockEpoch)
    (currentEpoch : ℕ) :
    service.reported unlockEpoch currentEpoch =
      if unlockEpoch ≤ currentEpoch then 0
      else service.getMonthStartEpoch unlockEpoch + 30 - currentEpoch := by
  have hcast : ((unlockEpoch : ℤ) ≤ currentEpoch) ↔ unlockEpoch ≤ currentEpoch := Nat.cast_le
  simp only [reported, getRemainingEpochs, hstart, true_and, hcast]
  split
  next => rfl
  next hlater => omega

/-- Any other one is over a month after the start of its month. -/
theorem reported_of_lt (hstart : service.getMonthStartEpoch unlockEpoch < unlockEpoch)
    (currentEpoch : ℕ) :
    service.reported unlockEpoch currentEpoch =
      max 0 (service.getMonthStartEpoch unlockEpoch + 30 - currentEpoch) := by
  rw [reported, getRemainingEpochs, if_neg fun h => not_le.mpr hstart h.1]

theorem initEpoch_lt (hstart : service.getMonthStartEpoch unlockEpoch < unlockEpoch) :
    service.initEpoch < unlockEpoch := by
  by_contra hbefore
  exact absurd (le_getMonthStartEpoch (not_lt.mp hbefore)) (not_le.mpr hstart)

theorem withinMonth_of_lt (hstart : service.getMonthStartEpoch unlockEpoch < unlockEpoch) :
    service.WithinMonth unlockEpoch := by
  have hinit := initEpoch_lt hstart
  rw [getMonthStartEpoch_of_le hinit.le] at hstart
  refine .inl ⟨hinit, ?_⟩
  omega

theorem withinMonth_iff_of_le
    (hstart : (unlockEpoch : ℤ) ≤ service.getMonthStartEpoch unlockEpoch) :
    service.WithinMonth unlockEpoch ↔ unlockEpoch = 0 ∧ 30 ∣ service.initEpoch := by
  refine or_iff_right fun h => ?_
  obtain ⟨hinit, hmonth⟩ := h
  rw [getMonthStartEpoch_of_le hinit.le] at hstart
  omega

/-- For one milestone the report is the distance to the unlock if, and only
if, the milestone lies within a month. -/
theorem reported_eq_iff :
    (∀ currentEpoch : ℕ, service.reported unlockEpoch currentEpoch =
      max 0 (service.unlockableEpoch unlockEpoch - currentEpoch)) ↔
    service.WithinMonth unlockEpoch := by
  rcases lt_or_ge (service.getMonthStartEpoch unlockEpoch) unlockEpoch with hstart | hstart
  · refine iff_of_true (fun currentEpoch => ?_) (withinMonth_of_lt hstart)
    have hinit := initEpoch_lt hstart
    rw [reported_of_lt hstart, unlockableEpoch]
    rw [getMonthStartEpoch_of_le hinit.le] at hstart ⊢
    omega
  · rw [withinMonth_iff_of_le hstart]
    simp only [reported_of_le hstart, unlockableEpoch]
    rcases Nat.eq_zero_or_pos unlockEpoch with rfl | hpos
    · -- nothing is ever left of epoch zero
      constructor
      · intro h
        have hnow := h 0
        rw [if_pos le_rfl] at hnow
        omega
      · intro h currentEpoch
        rw [if_pos (Nat.zero_le _)]
        omega
    · -- the epoch before the milestone still has more than a month to go
      refine iff_of_false (fun h => ?_) (fun h => hpos.ne' h.1)
      have hbefore := h (unlockEpoch - 1)
      rw [if_neg (by omega)] at hbefore
      omega

/-! ## A whole schedule -/

/-- What is asked of the reports on a schedule, for all epochs. -/
structure CountsDown (service : LockedAssetService) (unlockSchedule : List UnlockMilestone)
    (withActivationNonce : Bool) : Prop where
  step : ∀ currentEpoch : ℕ,
    (service.getUnlockMilestones (currentEpoch + 1) unlockSchedule withActivationNonce).map
      (·.epochs) =
    (service.getUnlockMilestones currentEpoch unlockSchedule withActivationNonce).map
      fun milestone => max 0 (milestone.epochs - 1)
  zero_iff : ∀ currentEpoch : ℕ,
    List.Forall₂ (fun milestone model =>
        model.epochs = 0 ↔ service.unlockableEpoch milestone.epoch ≤ currentEpoch)
      unlockSchedule
      (service.getUnlockMilestones currentEpoch unlockSchedule withActivationNonce)

variable {unlockSchedule : List UnlockMilestone} {withActivationNonce : Bool}

/-- A step of all reports is a step of each. -/
theorem epochs_succ_iff (currentEpoch : ℕ) :
    (service.getUnlockMilestones (currentEpoch + 1) unlockSchedule withActivationNonce).map
      (·.epochs) =
    (service.getUnlockMilestones currentEpoch unlockSchedule withActivationNonce).map
      (fun milestone => max 0 (milestone.epochs - 1)) ↔
    ∀ milestone ∈ unlockSchedule, service.reported milestone.epoch (currentEpoch + 1) =
      max 0 (service.reported milestone.epoch currentEpoch - 1) := by
  rw [getUnlockMilestones_epochs fun epochs => epochs,
    getUnlockMilestones_epochs fun epochs => max 0 (epochs - 1)]
  exact List.map_inj_left

/-- A milestone is reported with zero epochs once it can be unlocked. -/
theorem epochs_zero_iff (currentEpoch : ℕ) :
    List.Forall₂ (fun milestone model =>
        model.epochs = 0 ↔ service.unlockableEpoch milestone.epoch ≤ currentEpoch)
      unlockSchedule
      (service.getUnlockMilestones currentEpoch unlockSchedule withActivationNonce) ↔
    ∀ milestone ∈ unlockSchedule, (service.reported milestone.epoch currentEpoch = 0 ↔
      service.unlockableEpoch milestone.epoch ≤ currentEpoch) := by
  rw [getUnlockMilestones, List.forall₂_map_right_iff, List.forall₂_same]
  simp only [ite_pos_eq_reported]

theorem countsDown_iff_isCountdown :
    CountsDown service unlockSchedule withActivationNonce ↔
      ∀ milestone ∈ unlockSchedule, IsCountdown (service.reported milestone.epoch)
        (service.unlockableEpoch milestone.epoch) := by
  constructor
  · intro h milestone hmem
    refine ⟨fun currentEpoch => ?_, fun currentEpoch => ?_⟩
    · exact (epochs_succ_iff currentEpoch).mp (h.step currentEpoch) milestone hmem
    · exact (epochs_zero_iff currentEpoch).mp (h.zero_iff currentEpoch) milestone hmem
  · intro h
    refine ⟨fun currentEpoch => ?_, fun currentEpoch => ?_⟩
    · exact (epochs_succ_iff currentEpoch).mpr fun milestone hmem =>
        (h milestone hmem).step currentEpoch
    · exact (epochs_zero_iff currentEpoch).mpr fun milestone hmem =>
        (h milestone hmem).zero_iff currentEpoch

/-- **The countdown of a schedule.** The epochs left go down by one with
every epoch and are zero from the unlock on if, and only if, all milestones
lie within a month. -/
theorem countsDown_iff (service : LockedAssetService) (unlockSchedule : List UnlockMilestone)
    (withActivationNonce : Bool) :
    CountsDown service unlockSchedule withActivationNonce ↔
      ∀ milestone ∈ unlockSchedule, service.WithinMonth milestone.epoch := by
  rw [countsDown_iff_isCountdown]
  apply forall₂_congr
  intro milestone _
  rw [isCountdown_iff (le_max_left 0 _), reported_eq_iff]

end LockedAssetService

/-! ## Decoded tokens -/

/-- With `elapsed` epochs less to wait. -/
def UnlockMileStoneModel.after (elapsed : ℕ) (model : UnlockMileStoneModel) :
    UnlockMileStoneModel :=
  { model with epochs := max 0 (model.epochs - elapsed) }

def LockedAssetAttributesModel.after (elapsed : ℕ) (model : LockedAssetAttributesModel) :
    LockedAssetAttributesModel :=
  { model with unlockSchedule := model.unlockSchedule.map (·.after elapsed) }

namespace LockedAssetService

variable {service : LockedAssetService} {unlockEpoch : ℕ} {unlockSchedule : List UnlockMilestone}
  {withActivationNonce : Bool}

/-- Each epoch that passes takes one off, down to zero. -/
theorem reported_add (h : service.WithinMonth unlockEpoch) (currentEpoch elapsed : ℕ) :
    service.reported unlockEpoch (currentEpoch + elapsed) =
      max 0 (service.reported unlockEpoch currentEpoch - elapsed) := by
  have hreported := reported_eq_iff.mpr h
  rw [hreported, hreported]
  push_cast
  omega

/-- So it does for every milestone of a schedule. -/
theorem getUnlockMilestones_add
    (h : ∀ milestone ∈ unlockSchedule, service.WithinMonth milestone.epoch)
    (currentEpoch elapsed : ℕ) :
    service.getUnlockMilestones (currentEpoch + elapsed) unlockSchedule withActivationNonce =
      (service.getUnlockMilestones currentEpoch unlockSchedule withActivationNonce).map
        (·.after elapsed) := by
  rw [getUnlockMilestones, getUnlockMilestones, List.map_map]
  apply List.map_congr_left
  intro milestone hmem
  have hadd := reported_add (h milestone hmem) currentEpoch elapsed
  simp only [ite_pos_eq_reported, Function.comp_apply, UnlockMileStoneModel.after, hadd]

/-- **The countdown of a batch.** Decoded some epochs later, a batch has that much
less to wait for every part of every token, if the milestones lie within a
month; one that cannot be decoded still cannot, for the same reason. -/
theorem decodeLockedAssetAttributes_after (service : LockedAssetService)
    (batchAttributes : List DecodeAttributesModel) (currentEpoch elapsed : ℕ)
    (h : ∀ lockedAsset ∈ batchAttributes, ∀ attributes, service.fromAttributes
      (service.withActivationNonce lockedAsset.identifier) lockedAsset.attributes =
        .ok attributes → ∀ milestone ∈ attributes.unlockSchedule,
          service.WithinMonth milestone.epoch) :
    service.decodeLockedAssetAttributes (currentEpoch + elapsed) batchAttributes =
      (service.decodeLockedAssetAttributes currentEpoch batchAttributes).map
        (List.map (·.after elapsed)) := by
  unfold decodeLockedAssetAttributes
  refine mapM_map_of_forall_mem fun lockedAsset hmem => ?_
  dsimp only
  cases hattributes : service.fromAttributes (service.withActivationNonce lockedAsset.identifier)
      lockedAsset.attributes with
  | error e => rfl
  | ok attributes =>
    have hwithin := h lockedAsset hmem attributes hattributes
    show Except.ok _ = Except.ok _
    rw [getUnlockMilestones_add hwithin]
    rfl

end LockedAssetService

/-! ## Month starts -/

section Sample

def sampleSchedule : List UnlockMilestone :=
  [{ epoch := 31, percent := .ofNat 90 }]

/-- Set up in epoch one. -/
def sampleService : LockedAssetService where
  fromAttributes := fun _ _ => .ok { unlockSchedule := sampleSchedule, isMerged := false }
  extendedAttributesActivationNonce := 2
  initEpoch := 1

example : sampleService.reported 2 10 = 21 ∧ sampleService.reported 31 10 = 51 := by
  decide +kernel

/-- A milestone at the start of the second month: thirty-one epochs are left
an epoch before, and none when it comes. -/
theorem not_countsDown_sample :
    (sampleService.getUnlockMilestones 30 sampleSchedule false).map (·.epochs) = [31] ∧
    (sampleService.getUnlockMilestones 31 sampleSchedule false).map (·.epochs) = [0] ∧
    ¬sampleService.CountsDown sampleSchedule false := by
  have hbefore :
      (sampleService.getUnlockMilestones 30 sampleSchedule false).map (·.epochs) = [31] := by
    decide +kernel
  have hthen :
      (sampleService.getUnlockMilestones 31 sampleSchedule false).map (·.epochs) = [0] := by
    decide +kernel
  refine ⟨hbefore, hthen, fun h => ?_⟩
  have hstep := h.step 30
  rw [hthen] at hstep
  revert hstep
  decide +kernel

/-- Two parts of half each in the extended attributes, one part in the others. -/
def countedAttributes (withActivationNonce : Bool) : LockedAssetAttributes :=
  if withActivationNonce then
    { unlockSchedule := [⟨40, .ofNat 50000⟩, ⟨100, .ofNat 50000⟩], isMerged := true }
  else { unlockSchedule := [⟨20, .ofNat 100⟩], isMerged := false }

def countedService : LockedAssetService where
  fromAttributes := fun withActivationNonce _ => .ok (countedAttributes withActivationNonce)
  extendedAttributesActivationNonce := 2
  initEpoch := 1

def countedBatch : List DecodeAttributesModel :=
  [⟨"", "LKMEX-aab910-01".toList⟩, ⟨"", "LKMEX-aab910-0a".toList⟩]

/-- Twenty epochs after epoch fifteen the first token is unlocked, and the parts of
the second one have as much less to wait. -/
theorem decodeLockedAssetAttributes_after_sample :
    (countedService.decodeLockedAssetAttributes 15 countedBatch).toOption.map
        (List.map fun model => model.unlockSchedule.map (·.epochs)) = some [[16], [46, 106]] ∧
      (countedService.decodeLockedAssetAttributes 35 countedBatch).toOption.map
        (List.map fun model => model.unlockSchedule.map (·.epochs)) = some [[0], [26, 86]] ∧
      countedService.decodeLockedAssetAttributes (15 + 20) countedBatch =
        (countedService.decodeLockedAssetAttributes 15 countedBatch).map
          (List.map (·.after 20)) := by
  have hwithin : ∀ withActivationNonce,
      ∀ milestone ∈ (countedAttributes withActivationNonce).unlockSchedule,
        countedService.WithinMonth milestone.epoch := by
    unfold LockedAssetService.WithinMonth
    decide +kernel
  refine ⟨by decide +kernel, by decide +kernel, ?_⟩
  refine countedService.decodeLockedAssetAttributes_after countedBatch 15 20 ?_
  intro lockedAsset _ attributes hattributes
  rw [← Except.ok.inj hattributes]
  exact hwithin _

end Sample

end MxExchange.LockedAsset
