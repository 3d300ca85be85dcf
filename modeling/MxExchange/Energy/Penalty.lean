import MxExchange.Energy.EnergyCompute
import MxExchange.Num.Interpolation
import MxExchange.Num.Shares
import MxExchange.Num.Truncation
import MxExchange.Collections.Outcome

/-!
# `energy.service.ts`: the penalty of an early unlock

Locked tokens can be unlocked at once, or locked anew for less time, against
a part of them. The part for unlocking at once is a curve through the lock
options, straight between two of them and truncated; the service looks for
the two options around the remaining length and interpolates between them.
The part for a shorter lock is what makes it come to the same: first the
shorter lock, then unlocking at once.

The numbers are whole and small, so the double quotients of the program are
the integer ones (`linearInterpolation_double`, `partialPercentage_double`); a
division by zero would be an infinity or `NaN`. For options that are in order
there is none: the search is the curve of the library
(`computePenaltyPercentageFullUnlock_eq`), whose segments are never empty, and
both results about the penalty are results about that curve.
-/

namespace MxExchange.Energy

open MxExchange.Num MxExchange.Collections

def MAX_PENALTY_PERCENT : ℕ := 10000

def EPOCHS_IN_MONTH : ℕ := 30

/-- Tokens locked for so long are penalised by so much if they are unlocked at
once. -/
structure LockOption where
  lockEpochs : ℕ
  penaltyStartPercentage : ℕ
  deriving DecidableEq

/-- What the search starts from. -/
def noOption : LockOption where
  lockEpochs := 0
  penaltyStartPercentage := 0

/-! ## `energy.compute.service.ts` -/

/-- The percentage between two options; a fraction is cut off. -/
def linearInterpolation (minIn maxIn currentIn minOut maxOut : ℤ) : Except String BigNumber :=
  if currentIn < minIn ∨ maxIn < currentIn then .error "Invalid values"
  else
    let minOutWeighted := (maxIn - currentIn) * minOut
    let maxOutWeighted := (currentIn - minIn) * maxOut
    let inDiff := maxIn - minIn
    .ok (truncQuotient (.fin (minOutWeighted + maxOutWeighted : ℤ)) (.fin inDiff))

/-- The loop over neighbouring options. -/
def enclosingOptions (lockOptions : List LockOption) (lockEpochsRemaining : ℤ) :
    LockOption × LockOption :=
  ((lockOptions.zip lockOptions.tail).find? fun options =>
    options.1.lockEpochs ≤ lockEpochsRemaining ∧
      lockEpochsRemaining ≤ options.2.lockEpochs).getD (noOption, noOption)

/-- Without any options there is no last one to read. -/
def computePenaltyPercentageFullUnlock (lockOptions : List LockOption)
    (lockEpochsRemaining : ℤ) : Except String BigNumber :=
  match lockOptions.head?, lockOptions.getLast? with
  | some firstLockOption, some lastLockOption =>
    if lastLockOption.lockEpochs < lockEpochsRemaining then .error "Invalid lock epochs"
    else
      let options :=
        if firstLockOption.lockEpochs < lockEpochsRemaining then
          enclosingOptions lockOptions lockEpochsRemaining
        else (noOption, firstLockOption)
      linearInterpolation options.1.lockEpochs options.2.lockEpochs lockEpochsRemaining
        options.1.penaltyStartPercentage options.2.penaltyStartPercentage
  | _, _ => .error "TypeError"

/-- The percentage for a shorter lock, as a part of what is left of the tokens.
-/
def computePenaltyPercentagePartialUnlock (lockOptions : List LockOption)
    (prevLockEpochsRemaining newLockEpochsRemaining : ℤ) : Except String BigNumber := do
  let prevPenaltyPercentageFull ←
    computePenaltyPercentageFullUnlock lockOptions prevLockEpochsRemaining
  let newPenaltyPercentage ←
    computePenaltyPercentageFullUnlock lockOptions newLockEpochsRemaining
  return truncQuotient
    ((prevPenaltyPercentageFull.minus newPenaltyPercentage).multipliedBy
      (.ofNat MAX_PENALTY_PERCENT))
    ((BigNumber.ofNat MAX_PENALTY_PERCENT).minus newPenaltyPercentage)

/-- Which of the two percentages is taken. -/
def penaltyPercentageUnlock (lockOptions : List LockOption)
    (prevLockEpochs newLockEpochs : ℤ) : Except String BigNumber :=
  if newLockEpochs = 0 then computePenaltyPercentageFullUnlock lockOptions prevLockEpochs
  else computePenaltyPercentagePartialUnlock lockOptions prevLockEpochs newLockEpochs

/-- The percentage of the amount. -/
def computePenaltyAmount (lockOptions : List LockOption) (tokenAmount : BigNumber)
    (prevLockEpochs newLockEpochs : ℤ) : Except String BigNumber := do
  let penaltyPercentageUnlock ← penaltyPercentageUnlock lockOptions prevLockEpochs newLockEpochs
  return (tokenAmount.multipliedBy penaltyPercentageUnlock).dividedBy (.ofNat MAX_PENALTY_PERCENT)

/-! ## `energy.service.ts` -/

/-- What the service reads of a locked token. -/
structure LockedTokenAttributes where
  unlockEpoch : ℤ

/-- The tokens a client asks about. -/
structure InputTokenModel where
  amount : BigNumber
  attributes : String

/-- What the service asks others. -/
structure EnergyService where
  fromAttributes : String → Except String LockedTokenAttributes
  lockOptions : List LockOption
  getPenaltyAmountQuery : BigNumber → ℤ → ℤ → Except String BigNumber
  currentEpoch : ℕ

namespace EnergyService

variable (service : EnergyService)

/-- Unlocks happen at the start of months. -/
def unlockEpochToStartOfMonth (unlockEpoch : ℤ) : ℤ :=
  let extraDays := unlockEpoch.tmod EPOCHS_IN_MONTH
  unlockEpoch - extraDays

/-- The new lock ends with a month. -/
def alignLockPeriod (newLockPeriod : ℤ) : Except String ℤ :=
  if newLockPeriod = 0 then .ok newLockPeriod
  else if (service.lockOptions.find? fun lockOption =>
      (lockOption.lockEpochs : ℤ) = newLockPeriod).isNone then
    .error "Invalid new lock epochs"
  else
    let tentativeNewUnlockEpoch := service.currentEpoch + newLockPeriod
    let startOfMonthEpoch := unlockEpochToStartOfMonth tentativeNewUnlockEpoch
    let epochsDiffFromMonthStart := tentativeNewUnlockEpoch - startOfMonthEpoch
    .ok (newLockPeriod - epochsDiffFromMonthStart)

/-- The penalty of a token at the current epoch, or an error where the lock
cannot be changed so. -/
def getPenaltyAmount (inputToken : InputTokenModel) (newLockPeriod : ℤ) (vmQuery : Bool) :
    Except String BigNumber := do
  let decodedAttributes ← service.fromAttributes inputToken.attributes
  let newLockPeriod ← service.alignLockPeriod newLockPeriod
  let prevLockEpochs := decodedAttributes.unlockEpoch - service.currentEpoch
  if prevLockEpochs ≤ 0 then .ok (.ofNat 0)
  else if prevLockEpochs < newLockPeriod then .error "Invalid new lock epoch"
  else if vmQuery then
    service.getPenaltyAmountQuery inputToken.amount prevLockEpochs newLockPeriod
  else computePenaltyAmount service.lockOptions inputToken.amount prevLockEpochs newLockPeriod

end EnergyService

/-! ## Options in order -/

/-- The length of the longest option. -/
def lastEpochs (lockOptions : List LockOption) : ℕ :=
  (lockOptions.getLast?.getD noOption).lockEpochs

/-- The penalty of the longest lock. -/
def lastPercentage (lockOptions : List LockOption) : ℕ :=
  (lockOptions.getLast?.getD noOption).penaltyStartPercentage

/-- Options by length, longer ones with a higher penalty, none as high as
the whole amount. -/
structure SortedOptions (lockOptions : List LockOption) : Prop where
  nonempty : lockOptions ≠ []
  positive : ∀ lockOption ∈ lockOptions, 0 < lockOption.lockEpochs
  sorted : List.IsChain (fun prev next => prev.lockEpochs ≤ next.lockEpochs ∧
    prev.penaltyStartPercentage < next.penaltyStartPercentage) lockOptions
  percentages : ∀ lockOption ∈ lockOptions,
    lockOption.penaltyStartPercentage < MAX_PENALTY_PERCENT

/-- The same, with no two options of one length and none shorter than a
month. -/
structure StrictOptions (lockOptions : List LockOption) : Prop where
  nonempty : lockOptions ≠ []
  months : ∀ lockOption ∈ lockOptions, EPOCHS_IN_MONTH ≤ lockOption.lockEpochs
  sorted : List.IsChain (fun prev next => prev.lockEpochs < next.lockEpochs ∧
    prev.penaltyStartPercentage < next.penaltyStartPercentage) lockOptions
  percentages : ∀ lockOption ∈ lockOptions,
    lockOption.penaltyStartPercentage < MAX_PENALTY_PERCENT

/-- Strictly sorted options are sorted. -/
theorem StrictOptions.sortedOptions {lockOptions : List LockOption}
    (h : StrictOptions lockOptions) : SortedOptions lockOptions where
  nonempty := h.nonempty
  positive lockOption hmem := by
    have := h.months lockOption hmem
    rw [EPOCHS_IN_MONTH] at this
    omega
  sorted := h.sorted.imp fun _ _ hlt => ⟨hlt.1.le, hlt.2⟩
  percentages := h.percentages

/-! ## The curve -/

/-- An option as a point of the curve. -/
def knotOf (lockOption : LockOption) : Knot where
  x := lockOption.lockEpochs
  y := lockOption.penaltyStartPercentage

@[simp] theorem knotOf_x (lockOption : LockOption) :
    (knotOf lockOption).x = lockOption.lockEpochs := rfl

@[simp] theorem knotOf_y (lockOption : LockOption) :
    (knotOf lockOption).y = lockOption.penaltyStartPercentage := rfl

/-- The curve of the library through the options, from nothing for nothing. -/
def fullPercentage (lockOptions : List LockOption) (lockEpochs : ℕ) : ℕ :=
  (interpolate (knotOf noOption) (lockOptions.map knotOf) lockEpochs).getD 0

/-- Between two options the function is the interpolation of the library. -/
theorem linearInterpolation_eq {prev next : LockOption} {lockEpochs : ℕ}
    (hlt : prev.lockEpochs < next.lockEpochs) (hprev : prev.lockEpochs ≤ lockEpochs)
    (hnext : lockEpochs ≤ next.lockEpochs) :
    linearInterpolation prev.lockEpochs next.lockEpochs lockEpochs prev.penaltyStartPercentage
      next.penaltyStartPercentage = .ok (.ofNat (lerp (knotOf prev) (knotOf next) lockEpochs)) := by
  have hrange : ¬((lockEpochs : ℤ) < prev.lockEpochs ∨ (next.lockEpochs : ℤ) < lockEpochs) := by
    omega
  have hnumerator : ((next.lockEpochs : ℤ) - lockEpochs) * prev.penaltyStartPercentage +
      ((lockEpochs : ℤ) - prev.lockEpochs) * next.penaltyStartPercentage =
        (((next.lockEpochs - lockEpochs) * prev.penaltyStartPercentage +
          (lockEpochs - prev.lockEpochs) * next.penaltyStartPercentage : ℕ) : ℤ) := by
    push_cast [Nat.cast_sub hprev, Nat.cast_sub hnext]
    rfl
  have hdenominator : ((next.lockEpochs : ℤ) : ℚ) - ((prev.lockEpochs : ℤ) : ℚ) =
      ((next.lockEpochs - prev.lockEpochs : ℕ) : ℚ) := by
    push_cast [Nat.cast_sub hlt.le]
    rfl
  rw [linearInterpolation, if_neg hrange]
  dsimp only
  rw [hnumerator, Int.cast_sub, hdenominator, Int.cast_natCast,
    truncQuotient_natCast _ (Nat.sub_pos_of_lt hlt)]
  rfl

/-- The quotient of the source is one of doubles. For lengths below `2 ^ 39` epochs it
makes no difference. -/
theorem linearInterpolation_double {prev next : LockOption} {lockEpochs : ℕ}
    (hlt : prev.lockEpochs < next.lockEpochs) (hprev : prev.lockEpochs ≤ lockEpochs)
    (hnext : lockEpochs ≤ next.lockEpochs) (hlength : next.lockEpochs < 2 ^ 39)
    (hprevPercentage : prev.penaltyStartPercentage ≤ MAX_PENALTY_PERCENT)
    (hnextPercentage : next.penaltyStartPercentage ≤ MAX_PENALTY_PERCENT) :
    linearInterpolation prev.lockEpochs next.lockEpochs lockEpochs prev.penaltyStartPercentage
      next.penaltyStartPercentage =
        .ok (.fin (truncate (roundDouble
          ((((next.lockEpochs - lockEpochs) * prev.penaltyStartPercentage +
            (lockEpochs - prev.lockEpochs) * next.penaltyStartPercentage : ℕ) : ℚ) /
              ((next.lockEpochs - prev.lockEpochs : ℕ) : ℚ))))) := by
  have hdenominator : 0 < next.lockEpochs - prev.lockEpochs := by omega
  have hprevPart : (next.lockEpochs - lockEpochs) * prev.penaltyStartPercentage ≤
      (next.lockEpochs - lockEpochs) * 10000 := Nat.mul_le_mul_left _ hprevPercentage
  have hnextPart : (lockEpochs - prev.lockEpochs) * next.penaltyStartPercentage ≤
      (lockEpochs - prev.lockEpochs) * 10000 := Nat.mul_le_mul_left _ hnextPercentage
  rw [linearInterpolation_eq hlt hprev hnext, ← truncQuotient_eq_double hdenominator (by omega),
    truncQuotient_natCast _ hdenominator]
  rfl

/-- The loop finds the segment of the curve. -/
theorem enclosingOptions_eq {first : LockOption} {rest : List LockOption} {lockEpochs v : ℕ}
    (hfirst : first.lockEpochs < lockEpochs)
    (hv : interpolate (knotOf first) (rest.map knotOf) lockEpochs = some v) :
    ∃ prev next, enclosingOptions (first :: rest) lockEpochs = (prev, next) ∧
      prev.lockEpochs < next.lockEpochs ∧ prev.lockEpochs ≤ lockEpochs ∧
      lockEpochs ≤ next.lockEpochs ∧ v = lerp (knotOf prev) (knotOf next) lockEpochs := by
  induction rest generalizing first with
  | nil => cases hv
  | cons next rest ih =>
    rw [List.map_cons, interpolate, knotOf_x] at hv
    have hloop : enclosingOptions (first :: next :: rest) lockEpochs =
        if lockEpochs ≤ next.lockEpochs then (first, next)
        else enclosingOptions (next :: rest) lockEpochs := by
      unfold enclosingOptions
      rw [List.tail_cons, List.zip_cons_cons, List.find?_cons]
      by_cases hle : lockEpochs ≤ next.lockEpochs
      · have hfound : ((first.lockEpochs : ℤ) ≤ lockEpochs ∧
            (lockEpochs : ℤ) ≤ next.lockEpochs) := by omega
        simp only [hfound, hle, and_self, decide_true, if_true, Option.getD_some]
      · have hnot : ¬((first.lockEpochs : ℤ) ≤ lockEpochs ∧
            (lockEpochs : ℤ) ≤ next.lockEpochs) := by omega
        simp only [hnot, hle, decide_false, if_false, List.tail_cons]
    rw [hloop]
    split at hv
    next hle =>
      rw [if_pos hle]
      exact ⟨first, next, rfl, by omega, hfirst.le, hle, (Option.some.inj hv).symm⟩
    next hlt =>
      rw [if_neg hlt]
      exact ih (not_le.mp hlt) hv

section Curve

variable {lockOptions : List LockOption} {lockEpochs lockEpochs' : ℕ}

/-- Sorted options make an ascending curve, from no lock and no penalty. -/
theorem SortedOptions.ascending (h : SortedOptions lockOptions) :
    Ascending (knotOf noOption) (lockOptions.map knotOf) := by
  unfold Ascending
  rw [← List.map_cons, List.isChain_map, List.isChain_cons]
  refine ⟨fun first _ => ⟨Nat.zero_le _, Nat.zero_le _⟩, ?_⟩
  exact h.sorted.imp fun _ _ hstep => ⟨hstep.1, hstep.2.le⟩

/-- The curve ends at the longest lock. -/
theorem lastKnot_options (hne : lockOptions ≠ []) :
    lastKnot (knotOf noOption) (lockOptions.map knotOf) =
      { x := lastEpochs lockOptions
        y := lastPercentage lockOptions } := by
  have hlast : lockOptions.getLast?.getD noOption = lockOptions.getLast hne := by
    rw [List.getLast?_eq_some_getLast hne, Option.getD_some]
  unfold lastKnot lastEpochs lastPercentage
  rw [hlast, List.getLast_cons (by simpa using hne), List.getLast_map]
  rfl

/-- The percentage is the curve at the epochs that are left. -/
theorem interpolate_fullPercentage (hne : lockOptions ≠ []) (hpos : 0 < lockEpochs)
    (hlast : lockEpochs ≤ lastEpochs lockOptions) :
    interpolate (knotOf noOption) (lockOptions.map knotOf) lockEpochs =
      some (fullPercentage lockOptions lockEpochs) := by
  have hknot : lockEpochs ≤ (lastKnot (knotOf noOption) (lockOptions.map knotOf)).x := by
    rwa [lastKnot_options hne]
  have hstart : (knotOf noOption).x < lockEpochs := hpos
  obtain ⟨v, hv⟩ := interpolate_isSome hstart hknot
  rw [fullPercentage, hv, Option.getD_some]

/-- Up to the first option the curve comes from nothing. -/
theorem fullPercentage_first {first : LockOption} {rest : List LockOption}
    (hle : lockEpochs ≤ first.lockEpochs) :
    fullPercentage (first :: rest) lockEpochs =
      lerp (knotOf noOption) (knotOf first) lockEpochs := by
  rw [fullPercentage, List.map_cons, interpolate, knotOf_x, if_pos hle, Option.getD_some]

@[simp] theorem fullPercentage_zero : fullPercentage lockOptions 0 = 0 := by
  cases lockOptions with
  | nil => rfl
  | cons first rest =>
    rw [fullPercentage_first (Nat.zero_le _), lerp]
    simp [noOption]

/-- **The search is the curve.** It returns for every length up to the
longest option, and no segment it comes to is empty. -/
theorem computePenaltyPercentageFullUnlock_eq (h : SortedOptions lockOptions)
    (hlast : lockEpochs ≤ lastEpochs lockOptions) :
    computePenaltyPercentageFullUnlock lockOptions lockEpochs =
      .ok (.ofNat (fullPercentage lockOptions lockEpochs)) := by
  cases hoptions : lockOptions with
  | nil => exact absurd hoptions h.nonempty
  | cons first rest =>
    subst hoptions
    have hlt : ¬(((first :: rest).getLast (by simp)).lockEpochs : ℤ) < lockEpochs := by
      rw [lastEpochs, List.getLast?_eq_some_getLast (by simp), Option.getD_some] at hlast
      omega
    unfold computePenaltyPercentageFullUnlock
    rw [List.head?_cons, List.getLast?_eq_some_getLast (by simp)]
    dsimp only
    rw [if_neg hlt]
    by_cases hfirst : first.lockEpochs < lockEpochs
    · have hcurve := interpolate_fullPercentage h.nonempty (by omega) hlast
      rw [List.map_cons, interpolate, knotOf_x, if_neg (by omega)] at hcurve
      obtain ⟨prev, next, hfound, hsegment, hprev, hnext, hv⟩ := enclosingOptions_eq hfirst hcurve
      rw [if_pos (by omega), hfound, hv]
      exact linearInterpolation_eq hsegment hprev hnext
    · rw [if_neg (by omega), fullPercentage_first (by omega)]
      exact linearInterpolation_eq (h.positive first List.mem_cons_self) (Nat.zero_le _)
        (not_lt.mp hfirst)

/-- No option is longer than the last. -/
theorem le_lastEpochs (h : StrictOptions lockOptions) {lockOption : LockOption}
    (hmem : lockOption ∈ lockOptions) : lockOption.lockEpochs ≤ lastEpochs lockOptions := by
  have htrans : IsTrans LockOption fun prev next => prev.lockEpochs ≤ next.lockEpochs :=
    ⟨fun _ _ _ => le_trans⟩
  have hchain : List.IsChain (fun prev next => prev.lockEpochs ≤ next.lockEpochs) lockOptions :=
    h.sorted.imp fun _ _ hstep => hstep.1.le
  rw [lastEpochs, List.getLast?_eq_some_getLast h.nonempty, Option.getD_some]
  obtain ⟨front, last, rfl⟩ := (List.eq_nil_or_concat' lockOptions).resolve_left h.nonempty
  rw [List.getLast_append_singleton]
  rcases List.mem_append.mp hmem with hfront | hlast
  · exact (List.pairwise_append.mp hchain.pairwise).2.2 _ hfront _ List.mem_cons_self
  · rw [List.mem_singleton.mp hlast]

theorem ofNat_inj {m n : ℕ}
    (h : (Except.ok (BigNumber.ofNat m) : Except String BigNumber) = .ok (.ofNat n)) : m = n := by
  have hfin := BigNumber.fin.inj (Except.ok.inj h)
  exact_mod_cast hfin

/-- No penalty is greater than that of the longest lock. -/
theorem fullPercentage_le (h : SortedOptions lockOptions)
    (hlast : lockEpochs ≤ lastEpochs lockOptions) :
    fullPercentage lockOptions lockEpochs ≤ lastPercentage lockOptions := by
  rcases Nat.eq_zero_or_pos lockEpochs with rfl | hpos
  · rw [fullPercentage_zero]
    exact Nat.zero_le _
  · have hbounds := interpolate_bounds h.ascending hpos
      (interpolate_fullPercentage h.nonempty hpos hlast)
    rw [lastKnot_options h.nonempty] at hbounds
    exact hbounds.2

/-- The longest lock keeps something. -/
theorem lastPercentage_lt (h : SortedOptions lockOptions) :
    lastPercentage lockOptions < MAX_PENALTY_PERCENT := by
  rw [lastPercentage, List.getLast?_eq_some_getLast h.nonempty, Option.getD_some]
  exact h.percentages _ (List.getLast_mem h.nonempty)

/-- So does any other. -/
theorem fullPercentage_lt (h : SortedOptions lockOptions)
    (hlast : lockEpochs ≤ lastEpochs lockOptions) :
    fullPercentage lockOptions lockEpochs < MAX_PENALTY_PERCENT :=
  (fullPercentage_le h hlast).trans_lt (lastPercentage_lt h)

/-- A longer lock costs no less to unlock. -/
theorem fullPercentage_mono (h : SortedOptions lockOptions) (hle : lockEpochs ≤ lockEpochs')
    (hlast : lockEpochs' ≤ lastEpochs lockOptions) :
    fullPercentage lockOptions lockEpochs ≤ fullPercentage lockOptions lockEpochs' := by
  rcases Nat.eq_zero_or_pos lockEpochs with rfl | hpos
  · rw [fullPercentage_zero]
    exact Nat.zero_le _
  · exact interpolate_mono h.ascending hpos hle
      (interpolate_fullPercentage h.nonempty hpos (hle.trans hlast))
      (interpolate_fullPercentage h.nonempty (by omega) hlast)

/-- An option's own lock costs its percentage. -/
theorem fullPercentage_option (h : StrictOptions lockOptions) {lockOption : LockOption}
    (hmem : lockOption ∈ lockOptions) :
    fullPercentage lockOptions lockOption.lockEpochs = lockOption.penaltyStartPercentage := by
  have hchain : List.IsChain (fun p n : Knot => p.x < n.x)
      (knotOf noOption :: lockOptions.map knotOf) := by
    rw [← List.map_cons, List.isChain_map, List.isChain_cons]
    refine ⟨fun first hfirst => ?_, h.sorted.imp fun _ _ hstep => hstep.1⟩
    exact h.sortedOptions.positive first (List.mem_of_mem_head? hfirst)
  have hknot := interpolate_knot hchain (List.mem_map_of_mem hmem)
  rw [fullPercentage, ← knotOf_x, hknot, Option.getD_some, knotOf_y]

end Curve

/-! ## A shorter lock -/

/-- The part for going from one percentage to another. -/
def partialPercentage (prev new : ℕ) : ℕ :=
  (prev - new) * MAX_PENALTY_PERCENT / (MAX_PENALTY_PERCENT - new)

section Partial

variable {prev new new' : ℕ}

@[simp] theorem partialPercentage_zero : partialPercentage prev 0 = prev := by
  rw [partialPercentage, Nat.sub_zero, Nat.sub_zero,
    Nat.mul_div_cancel _ (by simp [MAX_PENALTY_PERCENT])]

/-- A change of lock keeps something. -/
theorem partialPercentage_lt (hprev : prev < MAX_PENALTY_PERCENT) (hle : new ≤ prev) :
    partialPercentage prev new < MAX_PENALTY_PERCENT := by
  rw [partialPercentage, Nat.div_lt_iff_lt_mul (by omega), mul_comm]
  exact Nat.mul_lt_mul_of_pos_left (by omega) (by omega)

/-- A longer new lock leaves a smaller part. -/
theorem partialPercentage_antitone (hprev : prev < MAX_PENALTY_PERCENT) (hle : new ≤ new')
    (hnew : new' ≤ prev) : partialPercentage prev new' ≤ partialPercentage prev new := by
  apply div_le_div_of_cross (by omega) (by omega)
  obtain ⟨d, rfl⟩ := Nat.exists_eq_add_of_le hle
  obtain ⟨e, rfl⟩ := Nat.exists_eq_add_of_le hnew
  obtain ⟨f, hf⟩ := Nat.exists_eq_add_of_le hprev.le
  rw [hf]
  have h₁ : new + d + e - (new + d) = e := by omega
  have h₂ : new + d + e - new = d + e := by omega
  have h₃ : new + d + e + f - new = d + e + f := by omega
  have h₄ : new + d + e + f - (new + d) = e + f := by omega
  rw [h₁, h₂, h₃, h₄]
  nlinarith [Nat.zero_le (d * f * (new + d + e + f))]

/-- What the two steps together keep of the whole, in units of the square of
the base, is what the one step keeps, up to a remainder. -/
theorem partialPercentage_compose (hprev : prev < MAX_PENALTY_PERCENT) (hle : new ≤ prev) :
    ((MAX_PENALTY_PERCENT : ℤ) - partialPercentage prev new) * (MAX_PENALTY_PERCENT - new) -
        MAX_PENALTY_PERCENT * (MAX_PENALTY_PERCENT - prev) =
      ((prev - new) * MAX_PENALTY_PERCENT % (MAX_PENALTY_PERCENT - new) : ℕ) := by
  have hdiv := Nat.div_add_mod ((prev - new) * MAX_PENALTY_PERCENT) (MAX_PENALTY_PERCENT - new)
  rw [← partialPercentage] at hdiv
  have hcast := congrArg (Nat.cast : ℕ → ℤ) hdiv
  push_cast [Nat.cast_sub hle, Nat.cast_sub (hle.trans hprev.le)] at hcast ⊢
  linarith

/-- The program's quotient is the percentage in whole numbers. -/
theorem truncQuotient_eq_partialPercentage (hprev : prev < MAX_PENALTY_PERCENT) (hle : new ≤ prev) :
    truncQuotient (((BigNumber.ofNat prev).minus (.ofNat new)).multipliedBy
        (.ofNat MAX_PENALTY_PERCENT)) ((BigNumber.ofNat MAX_PENALTY_PERCENT).minus (.ofNat new)) =
      .ofNat (partialPercentage prev new) := by
  have hpos : 0 < MAX_PENALTY_PERCENT - new := by omega
  rw [BigNumber.ofNat, BigNumber.ofNat, BigNumber.ofNat, BigNumber.minus_fin, BigNumber.minus_fin,
    BigNumber.multipliedBy_fin, ← Nat.cast_sub hle, ← Nat.cast_sub (hle.trans hprev.le),
    ← Nat.cast_mul, truncQuotient_natCast _ hpos]
  rfl

/-- The double quotient of percentages is the integer one. -/
theorem partialPercentage_double (hprev : prev < MAX_PENALTY_PERCENT) (hle : new ≤ prev) :
    BigNumber.ofNat (partialPercentage prev new) =
      .fin (truncate (roundDouble ((((prev - new) * MAX_PENALTY_PERCENT : ℕ) : ℚ) /
        ((MAX_PENALTY_PERCENT - new : ℕ) : ℚ)))) := by
  rw [MAX_PENALTY_PERCENT] at hprev
  have hpos : 0 < MAX_PENALTY_PERCENT - new := by
    rw [MAX_PENALTY_PERCENT]
    omega
  have hsmall : (prev - new) * MAX_PENALTY_PERCENT + (MAX_PENALTY_PERCENT - new) ≤ 2 ^ 53 := by
    rw [MAX_PENALTY_PERCENT]
    omega
  rw [← truncQuotient_eq_double hpos hsmall, truncQuotient_natCast _ hpos]
  rfl

end Partial

section Amount

variable {lockOptions : List LockOption} {prevLockEpochs newLockEpochs amount : ℕ}

/-- The part that a change of the lock costs; without a new lock it is the
whole curve. -/
def changePercentage (lockOptions : List LockOption) (prevLockEpochs newLockEpochs : ℕ) : ℕ :=
  partialPercentage (fullPercentage lockOptions prevLockEpochs)
    (fullPercentage lockOptions newLockEpochs)

/-- The percentage of a change, in whole numbers. -/
theorem computePenaltyPercentagePartialUnlock_eq (h : SortedOptions lockOptions)
    (hle : newLockEpochs ≤ prevLockEpochs) (hlast : prevLockEpochs ≤ lastEpochs lockOptions) :
    computePenaltyPercentagePartialUnlock lockOptions prevLockEpochs newLockEpochs =
      .ok (.ofNat (changePercentage lockOptions prevLockEpochs newLockEpochs)) := by
  unfold computePenaltyPercentagePartialUnlock
  rw [computePenaltyPercentageFullUnlock_eq h hlast,
    computePenaltyPercentageFullUnlock_eq h (hle.trans hlast)]
  exact congrArg Except.ok (truncQuotient_eq_partialPercentage
    (fullPercentage_lt h hlast) (fullPercentage_mono h hle hlast))

/-- Either percentage, in whole numbers. -/
theorem penaltyPercentageUnlock_eq (h : SortedOptions lockOptions)
    (hle : newLockEpochs ≤ prevLockEpochs) (hlast : prevLockEpochs ≤ lastEpochs lockOptions) :
    penaltyPercentageUnlock lockOptions prevLockEpochs newLockEpochs =
      .ok (.ofNat (changePercentage lockOptions prevLockEpochs newLockEpochs)) := by
  rw [penaltyPercentageUnlock]
  split
  next hfull =>
    obtain rfl : newLockEpochs = 0 := by omega
    rw [computePenaltyPercentageFullUnlock_eq h hlast, changePercentage, fullPercentage_zero,
      partialPercentage_zero]
  next => exact computePenaltyPercentagePartialUnlock_eq h hle hlast

/-- The penalty is an exact part of the amount. -/
theorem computePenaltyAmount_eq (h : SortedOptions lockOptions)
    (hle : newLockEpochs ≤ prevLockEpochs) (hlast : prevLockEpochs ≤ lastEpochs lockOptions) :
    computePenaltyAmount lockOptions (.ofNat amount) prevLockEpochs newLockEpochs =
      .ok (.fin (amount * changePercentage lockOptions prevLockEpochs newLockEpochs / 10000)) := by
  have hbase : ((MAX_PENALTY_PERCENT : ℕ) : ℚ) ≠ 0 := by simp [MAX_PENALTY_PERCENT]
  have hquotient : truncatePlaces 20 ((amount : ℚ) *
      changePercentage lockOptions prevLockEpochs newLockEpochs / (MAX_PENALTY_PERCENT : ℕ)) =
        amount * changePercentage lockOptions prevLockEpochs newLockEpochs / 10000 := by
    rw [← Nat.cast_mul]
    exact truncatePlaces_tenThousandth _
  unfold computePenaltyAmount
  rw [penaltyPercentageUnlock_eq h hle hlast]
  refine congrArg Except.ok ?_
  rw [BigNumber.ofNat, BigNumber.ofNat, BigNumber.ofNat, BigNumber.multipliedBy_fin,
    BigNumber.dividedBy_fin _ hbase, BigNumber.DECIMAL_PLACES, hquotient]

/-- Every change keeps something. -/
theorem changePercentage_lt (h : SortedOptions lockOptions)
    (hle : newLockEpochs ≤ prevLockEpochs) (hlast : prevLockEpochs ≤ lastEpochs lockOptions) :
    changePercentage lockOptions prevLockEpochs newLockEpochs < MAX_PENALTY_PERCENT :=
  partialPercentage_lt (fullPercentage_lt h hlast) (fullPercentage_mono h hle hlast)

/-- A part of an amount is one. -/
theorem part_le {percentage : ℕ} (h : percentage < MAX_PENALTY_PERCENT) :
    (amount : ℚ) * percentage / 10000 ≤ amount := by
  have hpart : (percentage : ℚ) ≤ 10000 := by
    rw [MAX_PENALTY_PERCENT] at h
    exact_mod_cast h.le
  rw [div_le_iff₀ (by norm_num)]
  exact mul_le_mul_of_nonneg_left hpart (Nat.cast_nonneg amount)

end Amount

/-! ## Two steps or one -/

/-- What is asked of a shorter lock: all percentages are there, the shorter
lock and then the unlock keep what the unlock keeps at once, up to the
truncation, and no penalty is more than the amount. -/
structure TwoSteps (lockOptions : List LockOption) (prevLockEpochs newLockEpochs : ℕ) : Prop where
  percentages : ∃ prev new part : ℕ,
    computePenaltyPercentageFullUnlock lockOptions prevLockEpochs = .ok (.ofNat prev) ∧
    computePenaltyPercentageFullUnlock lockOptions newLockEpochs = .ok (.ofNat new) ∧
    penaltyPercentageUnlock lockOptions prevLockEpochs newLockEpochs = .ok (.ofNat part) ∧
    part < MAX_PENALTY_PERCENT ∧
    0 ≤ ((MAX_PENALTY_PERCENT : ℤ) - part) * (MAX_PENALTY_PERCENT - new) -
      MAX_PENALTY_PERCENT * (MAX_PENALTY_PERCENT - prev) ∧
    ((MAX_PENALTY_PERCENT : ℤ) - part) * (MAX_PENALTY_PERCENT - new) -
      MAX_PENALTY_PERCENT * (MAX_PENALTY_PERCENT - prev) < MAX_PENALTY_PERCENT - new
  amount : ∀ amount : ℕ, ∃ penalty : ℚ,
    computePenaltyAmount lockOptions (.ofNat amount) prevLockEpochs newLockEpochs =
      .ok (.fin penalty) ∧ 0 ≤ penalty ∧ penalty ≤ amount

/-- **A shorter lock first.** It never pays, up to the truncation of its own
part. -/
theorem twoSteps {lockOptions : List LockOption} {prevLockEpochs newLockEpochs : ℕ}
    (h : SortedOptions lockOptions) (hle : newLockEpochs ≤ prevLockEpochs)
    (hlast : prevLockEpochs ≤ lastEpochs lockOptions) :
    TwoSteps lockOptions prevLockEpochs newLockEpochs where
  percentages := by
    have hlt := fullPercentage_lt h hlast
    have hfull := fullPercentage_mono h hle hlast
    have hrest := partialPercentage_compose hlt hfull
    refine ⟨_, _, _, computePenaltyPercentageFullUnlock_eq h hlast,
      computePenaltyPercentageFullUnlock_eq h (hle.trans hlast),
      penaltyPercentageUnlock_eq h hle hlast, changePercentage_lt h hle hlast, ?_, ?_⟩
    · rw [changePercentage, hrest]
      exact Int.natCast_nonneg _
    · have hmod := Nat.mod_lt ((fullPercentage lockOptions prevLockEpochs -
        fullPercentage lockOptions newLockEpochs) * MAX_PENALTY_PERCENT)
          (show 0 < MAX_PENALTY_PERCENT - fullPercentage lockOptions newLockEpochs by omega)
      rw [changePercentage, hrest]
      omega
  amount := by
    intro amount
    refine ⟨_, computePenaltyAmount_eq h hle hlast, by positivity, ?_⟩
    exact part_le (changePercentage_lt h hle hlast)

/-! ## The service -/

namespace EnergyService

/-- A request for a token that is locked for no longer than the longest
option from now on. -/
structure Request (service : EnergyService) where
  inputToken : InputTokenModel
  amount : ℕ
  unlockEpoch : ℤ
  amount_eq : inputToken.amount = .ofNat amount
  decoded : service.fromAttributes inputToken.attributes = .ok { unlockEpoch := unlockEpoch }
  within : unlockEpoch - service.currentEpoch ≤ lastEpochs service.lockOptions

/-- The length of a new lock that ends with a month. -/
def alignedEpochs (currentEpoch newLockPeriod : ℕ) : ℕ :=
  if newLockPeriod = 0 then 0
  else newLockPeriod - (currentEpoch + newLockPeriod) % EPOCHS_IN_MONTH

section Service

variable {service : EnergyService}

/-- What is left of the lock, in epochs from the start of a month. -/
def Request.remaining (request : Request service) : ℤ :=
  request.unlockEpoch - service.currentEpoch

/-- No new lock, or one of an option that is not longer than what is left. -/
structure Request.Admits (request : Request service) (newLockPeriod : ℕ) : Prop where
  option : newLockPeriod = 0 ∨
    ∃ lockOption ∈ service.lockOptions, lockOption.lockEpochs = newLockPeriod
  shorter : 0 < request.remaining →
    (alignedEpochs service.currentEpoch newLockPeriod : ℤ) ≤ request.remaining

variable {request : Request service} {newLockPeriod newLockPeriod' : ℕ}

/-- Options of at least a month stay what they are but for part of a month. -/
theorem alignLockPeriod_eq (h : StrictOptions service.lockOptions)
    (hoption : newLockPeriod = 0 ∨
      ∃ lockOption ∈ service.lockOptions, lockOption.lockEpochs = newLockPeriod) :
    service.alignLockPeriod newLockPeriod =
      .ok (alignedEpochs service.currentEpoch newLockPeriod : ℕ) := by
  rcases Nat.eq_zero_or_pos newLockPeriod with rfl | hpos
  · rfl
  · obtain ⟨lockOption, hmem, hlength⟩ := hoption.resolve_left hpos.ne'
    have hmonth := h.months lockOption hmem
    rw [hlength] at hmonth
    have hfound : (service.lockOptions.find? fun lockOption =>
        (lockOption.lockEpochs : ℤ) = newLockPeriod).isNone = false := by
      rw [Option.isNone_eq_false_iff, List.find?_isSome]
      exact ⟨lockOption, hmem, by simp [hlength]⟩
    have htentative : (0 : ℤ) ≤ (service.currentEpoch : ℤ) + newLockPeriod := by omega
    rw [alignLockPeriod, if_neg (by omega), hfound, if_neg Bool.false_ne_true, alignedEpochs,
      if_neg hpos.ne']
    unfold unlockEpochToStartOfMonth
    dsimp only
    rw [Int.tmod_eq_emod_of_nonneg htentative]
    simp only [EPOCHS_IN_MONTH] at hmonth ⊢
    congr 1
    omega

/-- Longer options stay longer. -/
theorem alignedEpochs_mono (currentEpoch : ℕ) (hle : newLockPeriod ≤ newLockPeriod') :
    alignedEpochs currentEpoch newLockPeriod ≤ alignedEpochs currentEpoch newLockPeriod' := by
  unfold alignedEpochs
  rw [EPOCHS_IN_MONTH]
  split
  next => exact Nat.zero_le _
  next =>
    rw [if_neg (by omega)]
    omega

/-- The part that a request costs; zero for a token that is unlocked. -/
def Request.percentage (request : Request service) (newLockPeriod : ℕ) : ℕ :=
  changePercentage service.lockOptions request.remaining.toNat
    (alignedEpochs service.currentEpoch newLockPeriod)

/-- Tokens that are unlocked are not penalised. -/
theorem Request.percentage_of_unlocked (hunlocked : request.remaining ≤ 0) :
    request.percentage newLockPeriod = 0 := by
  rw [Request.percentage, Int.toNat_of_nonpos hunlocked, changePercentage, fullPercentage_zero,
    partialPercentage, Nat.zero_sub, zero_mul, Nat.zero_div]

/-- The service answers with the percentage of the amount. -/
theorem getPenaltyAmount_eq (h : StrictOptions service.lockOptions)
    (hadmits : request.Admits newLockPeriod) :
    service.getPenaltyAmount request.inputToken newLockPeriod false =
      .ok (.fin (request.amount * request.percentage newLockPeriod / 10000)) := by
  have hremaining : request.unlockEpoch - service.currentEpoch = request.remaining := rfl
  have hwithin := request.within
  unfold getPenaltyAmount
  rw [request.decoded, alignLockPeriod_eq h hadmits.option]
  show (if request.unlockEpoch - (service.currentEpoch : ℤ) ≤ 0 then _ else _) = _
  rw [hremaining] at hwithin ⊢
  split
  next hunlocked =>
    rw [Request.percentage_of_unlocked hunlocked, Nat.cast_zero, mul_zero, zero_div]
    rfl
  next hlocked =>
    have hshorter := hadmits.shorter (not_le.mp hlocked)
    have hnat : request.remaining = (request.remaining.toNat : ℤ) :=
      (Int.toNat_of_nonneg (by omega)).symm
    rw [if_neg (not_lt.mpr hshorter), if_neg Bool.false_ne_true, request.amount_eq]
    rw [hnat] at hshorter hwithin ⊢
    exact computePenaltyAmount_eq h.sortedOptions (by omega) (by omega)

/-- No request loses everything. -/
theorem Request.percentage_lt (h : StrictOptions service.lockOptions)
    (hadmits : request.Admits newLockPeriod) :
    request.percentage newLockPeriod < MAX_PENALTY_PERCENT := by
  have hwithin : request.remaining ≤ lastEpochs service.lockOptions := request.within
  rcases le_or_gt request.remaining 0 with hunlocked | hlocked
  · rw [Request.percentage_of_unlocked hunlocked]
    show 0 < 10000
    norm_num
  · have hshorter := hadmits.shorter hlocked
    exact changePercentage_lt h.sortedOptions (by omega) (by omega)

/-- A longer new lock costs no more. -/
theorem Request.percentage_antitone (h : StrictOptions service.lockOptions)
    (hadmits : request.Admits newLockPeriod') (hle : newLockPeriod ≤ newLockPeriod') :
    request.percentage newLockPeriod' ≤ request.percentage newLockPeriod := by
  have hwithin : request.remaining ≤ lastEpochs service.lockOptions := request.within
  rcases le_or_gt request.remaining 0 with hunlocked | hlocked
  · rw [Request.percentage_of_unlocked hunlocked]
    exact Nat.zero_le _
  · have hshorter := hadmits.shorter hlocked
    have haligned := alignedEpochs_mono service.currentEpoch hle
    exact partialPercentage_antitone (fullPercentage_lt h.sortedOptions (by omega))
      (fullPercentage_mono h.sortedOptions haligned (by omega))
      (fullPercentage_mono h.sortedOptions (by omega) (by omega))

end Service

/-- What is asked of the penalty. The percentage of unlocking at once is
there for every length, between nothing and the last option's; it is the
option's own at an option, and does not go down. A request that is admitted
has a penalty, of no more than the amount, and a longer new lock has no
higher one. -/
structure PenaltyCurve (service : EnergyService) : Prop where
  inRange : ∀ lockEpochs ≤ lastEpochs service.lockOptions, ∃ percentage : ℕ,
    computePenaltyPercentageFullUnlock service.lockOptions lockEpochs =
      .ok (.ofNat percentage) ∧ percentage ≤ lastPercentage service.lockOptions
  atOptions : ∀ lockOption ∈ service.lockOptions,
    computePenaltyPercentageFullUnlock service.lockOptions lockOption.lockEpochs =
      .ok (.ofNat lockOption.penaltyStartPercentage)
  grows : ∀ lockEpochs lockEpochs' percentage percentage' : ℕ, lockEpochs ≤ lockEpochs' →
    lockEpochs' ≤ lastEpochs service.lockOptions →
    computePenaltyPercentageFullUnlock service.lockOptions lockEpochs =
      .ok (.ofNat percentage) →
    computePenaltyPercentageFullUnlock service.lockOptions lockEpochs' =
      .ok (.ofNat percentage') → percentage ≤ percentage'
  returns : ∀ (request : Request service) (newLockPeriod : ℕ), request.Admits newLockPeriod →
    ∃ penalty : ℚ, service.getPenaltyAmount request.inputToken newLockPeriod false =
      .ok (.fin penalty) ∧ 0 ≤ penalty ∧ penalty ≤ request.amount
  shrinks : ∀ (request : Request service) (newLockPeriod newLockPeriod' : ℕ)
    (penalty penalty' : ℚ), request.Admits newLockPeriod → request.Admits newLockPeriod' →
    newLockPeriod ≤ newLockPeriod' →
    service.getPenaltyAmount request.inputToken newLockPeriod false = .ok (.fin penalty) →
    service.getPenaltyAmount request.inputToken newLockPeriod' false = .ok (.fin penalty') →
    penalty' ≤ penalty

/-- **The penalty of an unlock**, for options of at least a month, no two of
one length, whose penalties grow. -/
theorem penaltyCurve (service : EnergyService) (h : StrictOptions service.lockOptions) :
    PenaltyCurve service where
  inRange lockEpochs hlast :=
    ⟨_, computePenaltyPercentageFullUnlock_eq h.sortedOptions hlast,
      fullPercentage_le h.sortedOptions hlast⟩
  atOptions lockOption hmem := by
    rw [computePenaltyPercentageFullUnlock_eq h.sortedOptions (le_lastEpochs h hmem),
      fullPercentage_option h hmem]
  grows := by
    intro lockEpochs lockEpochs' percentage percentage' hle hlast hfull hfull'
    rw [computePenaltyPercentageFullUnlock_eq h.sortedOptions (hle.trans hlast)] at hfull
    rw [computePenaltyPercentageFullUnlock_eq h.sortedOptions hlast] at hfull'
    rw [← ofNat_inj hfull, ← ofNat_inj hfull']
    exact fullPercentage_mono h.sortedOptions hle hlast
  returns := by
    intro request newLockPeriod hadmits
    exact ⟨_, getPenaltyAmount_eq h hadmits, by positivity,
      part_le (Request.percentage_lt h hadmits)⟩
  shrinks := by
    intro request newLockPeriod newLockPeriod' penalty penalty' hadmits hadmits' hle hget hget'
    rw [getPenaltyAmount_eq h hadmits] at hget
    rw [getPenaltyAmount_eq h hadmits'] at hget'
    rw [← BigNumber.fin.inj (Except.ok.inj hget), ← BigNumber.fin.inj (Except.ok.inj hget')]
    have hpercentage : (request.percentage newLockPeriod' : ℚ) ≤
        request.percentage newLockPeriod := by
      exact_mod_cast Request.percentage_antitone h hadmits' hle
    have hamount : (0 : ℚ) ≤ request.amount := Nat.cast_nonneg _
    exact div_le_div_of_nonneg_right (mul_le_mul_of_nonneg_left hpercentage hamount)
      (by norm_num)

end EnergyService

/-! ## A year, two and four -/

section Sample

/-- One, two and four years. -/
def sampleOptions : List LockOption :=
  [{ lockEpochs := 360, penaltyStartPercentage := 4000 },
    { lockEpochs := 720, penaltyStartPercentage := 6000 },
    { lockEpochs := 1440, penaltyStartPercentage := 8000 }]

theorem strictOptions_sampleOptions : StrictOptions sampleOptions where
  nonempty := by simp [sampleOptions]
  months := by simp [sampleOptions, EPOCHS_IN_MONTH]
  sorted := by simp [sampleOptions]
  percentages := by simp [sampleOptions, MAX_PENALTY_PERCENT]

def sampleEnergyService : EnergyService where
  fromAttributes := fun _ => .ok { unlockEpoch := 1500 }
  lockOptions := sampleOptions
  getPenaltyAmountQuery := fun _ _ _ => .ok (.ofNat 0)
  currentEpoch := 500

example : computePenaltyPercentagePartialUnlock sampleOptions 1000 350 = .ok (.ofNat 4726) := by
  decide +kernel

/-- A thousand tokens, for a thousand epochs more. -/
def sampleRequest : EnergyService.Request sampleEnergyService where
  inputToken := ⟨.ofNat 1000, "attributes"⟩
  amount := 1000
  unlockEpoch := 1500
  amount_eq := rfl
  decoded := rfl
  within := by decide

theorem sampleRequest_admits_zero : sampleRequest.Admits 0 where
  option := Or.inl rfl
  shorter := by decide

theorem sampleRequest_admits_year : sampleRequest.Admits 360 where
  option := Or.inr ⟨_, List.mem_cons_self, rfl⟩
  shorter := by decide

/-- To unlock them costs no less than to lock them for a year instead. -/
theorem penaltyCurve_sampleOptions : ∃ unlocked relocked : ℚ,
    sampleEnergyService.getPenaltyAmount sampleRequest.inputToken 0 false = .ok (.fin unlocked) ∧
      sampleEnergyService.getPenaltyAmount sampleRequest.inputToken 360 false =
        .ok (.fin relocked) ∧
      0 ≤ relocked ∧ relocked ≤ unlocked ∧ unlocked ≤ 1000 := by
  have hcurve := EnergyService.penaltyCurve sampleEnergyService strictOptions_sampleOptions
  obtain ⟨unlocked, hunlocked, -, hle⟩ := hcurve.returns sampleRequest 0 sampleRequest_admits_zero
  obtain ⟨relocked, hrelocked, hnonneg, -⟩ :=
    hcurve.returns sampleRequest 360 sampleRequest_admits_year
  have hshrinks := hcurve.shrinks sampleRequest 0 360 unlocked relocked sampleRequest_admits_zero
    sampleRequest_admits_year (by omega) hunlocked hrelocked
  refine ⟨unlocked, relocked, hunlocked, hrelocked, hnonneg, hshrinks, ?_⟩
  exact_mod_cast hle

theorem twoSteps_sampleOptions : TwoSteps sampleOptions 1000 350 :=
  twoSteps strictOptions_sampleOptions.sortedOptions (by decide) (by decide)

end Sample

end MxExchange.Energy
