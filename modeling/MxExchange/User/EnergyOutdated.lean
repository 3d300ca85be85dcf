import MxExchange.Energy.EnergyCompute

/-!
# `user.energy.compute.service.ts`: is a user's energy outdated?

A contract keeps the energy a user had when the user last claimed there, and
`isEnergyOutdated` compares it with the energy the user has now. The two
entries are of different epochs as a rule, so the older of them is first
brought to the epoch of the newer one, in two symmetric branches (`catchUp`).

The branch writes the amount into the entry it was given and leaves its epoch
as it is. A second comparison with the same entry takes the same epochs off
again, so comparisons that share an entry are only as good as the first of
them: `onlyLooks_iff` says when there is nothing to take off.
-/

namespace MxExchange.User

open MxExchange.Energy

/-- One branch of the comparison: an entry older than the other one loses
what it has lost by then. -/
def catchUp (energy other : Ref) (objects : Objects) : Objects :=
  let entry := objects energy
  if entry.lastUpdateEpoch < (objects other).lastUpdateEpoch then
    let epochsDiff := (objects other).lastUpdateEpoch - entry.lastUpdateEpoch
    Function.update objects energy
      { entry with amount := entry.amount - epochsDiff * entry.totalLockedTokens }
  else objects

/-- Both entries are brought to the later epoch, in place, and compared. -/
def isEnergyOutdated (currentUserEnergy : Ref) (currentClaimProgress : ClaimProgress)
    (objects : Objects) : Bool × Objects :=
  if currentClaimProgress.week = 0 then (false, objects)
  else
    let objects := catchUp currentClaimProgress.energy currentUserEnergy objects
    let objects := catchUp currentUserEnergy currentClaimProgress.energy objects
    ((objects currentUserEnergy).amount ≠ (objects currentClaimProgress.energy).amount, objects)

/-- A user's entry and the claim progress it is compared with. -/
structure Comparison where
  currentUserEnergy : Ref
  currentClaimProgress : ClaimProgress

/-- The comparison on the entries as they are. -/
def Comparison.run (c : Comparison) (objects : Objects) : Bool × Objects :=
  isEnergyOutdated c.currentUserEnergy c.currentClaimProgress objects

/-- Comparisons one after the other, each on the entries the one before it
has left. -/
def runAll : List Comparison → Objects → List Bool × Objects
  | [], objects => ([], objects)
  | c :: comparisons, objects =>
    let (answer, objects) := c.run objects
    let (answers, objects) := runAll comparisons objects
    (answer :: answers, objects)

/-! ## What the comparison is for -/

/-- The amount an entry has at an epoch. -/
def amountAt (e : EnergyType) (t : ℤ) : ℤ :=
  (returned (depleteUserEnergy 0 t fun _ => e)).amount

/-- The two entries differ once both are depleted to the later of their
epochs. -/
def differ (userEnergy claimEnergy : EnergyType) : Prop :=
  let t := max userEnergy.lastUpdateEpoch claimEnergy.lastUpdateEpoch
  amountAt userEnergy t ≠ amountAt claimEnergy t

instance (userEnergy claimEnergy : EnergyType) : Decidable (differ userEnergy claimEnergy) :=
  inferInstanceAs (Decidable (_ ≠ _))

/-- A user who has not claimed at the contract (week 0) has no entry there
that could be outdated. -/
def Comparison.answer (c : Comparison) (objects : Objects) : Bool :=
  c.currentClaimProgress.week ≠ 0 ∧
    differ (objects c.currentUserEnergy) (objects c.currentClaimProgress.energy)

/-- The comparisons only look: each gives its answer and leaves the entries
alone, and in any sequence of them, with repetitions, each gives the answer
it has on fresh entries. -/
structure OnlyLooks (comparisons : List Comparison) (objects : Objects) : Prop where
  answers : ∀ c ∈ comparisons, (c.run objects).1 = c.answer objects
  unchanged : ∀ c ∈ comparisons, (c.run objects).2 = objects
  sequences : ∀ sequence, (∀ c ∈ sequence, c ∈ comparisons) →
    runAll sequence objects = (sequence.map fun c => c.answer objects, objects)

/-- Until an epoch there is nothing to take off. -/
def LosesNothing (e : EnergyType) (t : ℤ) : Prop :=
  e.totalLockedTokens = 0 ∨ t ≤ e.lastUpdateEpoch

instance (e : EnergyType) (t : ℤ) : Decidable (LosesNothing e t) :=
  inferInstanceAs (Decidable (_ ∨ _))

/-- The older of the two entries loses nothing until the epoch of the newer
one. -/
def Comparison.Settled (c : Comparison) (objects : Objects) : Prop :=
  LosesNothing (objects c.currentUserEnergy)
      (objects c.currentClaimProgress.energy).lastUpdateEpoch ∧
    LosesNothing (objects c.currentClaimProgress.energy)
      (objects c.currentUserEnergy).lastUpdateEpoch

/-! ## One branch -/

section Branch

variable {objects : Objects} {r other : Ref} {e : EnergyType} {t : ℤ}

/-- The amount less the loss. -/
theorem amountAt_eq : amountAt e t = e.amount - e.loss t := by
  rw [amountAt, returned, depleteUserEnergy_fst, depleteUserEnergy_self]

/-- No tokens or no epochs, no loss. -/
theorem LosesNothing.loss_eq_zero (h : LosesNothing e t) : e.loss t = 0 := by
  unfold EnergyType.loss
  split
  next =>
    rcases h with hzero | hle
    · rw [hzero, zero_mul]
    · rw [max_eq_left (by omega), mul_zero]
  next => rfl

/-- The newer entry is left alone. -/
theorem catchUp_of_le (h : (objects other).lastUpdateEpoch ≤ (objects r).lastUpdateEpoch) :
    catchUp r other objects = objects := by
  rw [catchUp]
  exact if_neg (not_lt.mpr h)

/-- The older entry is written. -/
theorem catchUp_of_lt (h : (objects r).lastUpdateEpoch < (objects other).lastUpdateEpoch) :
    catchUp r other objects = Function.update objects r
      { objects r with
        amount := (objects r).amount - ((objects other).lastUpdateEpoch -
          (objects r).lastUpdateEpoch) * (objects r).totalLockedTokens } := by
  rw [catchUp]
  exact if_pos h

/-- The older entry stays as it is if it loses nothing. -/
theorem catchUp_eq_self_iff : catchUp r other objects = objects ↔
    LosesNothing (objects r) (objects other).lastUpdateEpoch := by
  rcases le_or_gt (objects other).lastUpdateEpoch (objects r).lastUpdateEpoch with hle | hlt
  · exact iff_of_true (catchUp_of_le hle) (Or.inr hle)
  · have hdiff : (objects other).lastUpdateEpoch - (objects r).lastUpdateEpoch ≠ 0 := by omega
    rw [catchUp_of_lt hlt, Function.update_eq_self_iff, LosesNothing, or_iff_left (not_le.mpr hlt)]
    constructor
    · intro h
      have hamount := congrArg EnergyType.amount h
      have hzero : ((objects other).lastUpdateEpoch - (objects r).lastUpdateEpoch) *
          (objects r).totalLockedTokens = 0 := by
        dsimp only at hamount
        omega
      exact (mul_eq_zero.mp hzero).resolve_left hdiff
    · intro h
      rw [h, mul_zero, sub_zero]

end Branch

/-! ## One comparison -/

section Comparison

variable {c : Comparison} {objects : Objects}

/-- Only the branch of the older entry does anything. -/
theorem run_of_week_ne_zero (hweek : c.currentClaimProgress.week ≠ 0) :
    (c.run objects).2 =
      if (objects c.currentUserEnergy).lastUpdateEpoch ≤
          (objects c.currentClaimProgress.energy).lastUpdateEpoch then
        catchUp c.currentUserEnergy c.currentClaimProgress.energy objects
      else catchUp c.currentClaimProgress.energy c.currentUserEnergy objects := by
  rw [Comparison.run, isEnergyOutdated, if_neg hweek]
  show catchUp _ _ (catchUp _ _ objects) = _
  split
  next hle => rw [catchUp_of_le (r := c.currentClaimProgress.energy) hle]
  next hlt =>
    apply catchUp_of_le
    -- the epochs are the same after the first branch
    have hne : c.currentUserEnergy ≠ c.currentClaimProgress.energy := by
      intro heq
      exact hlt (heq ▸ le_refl _)
    rw [catchUp_of_lt (not_le.mp hlt), Function.update_self, Function.update_of_ne hne]
    exact (not_le.mp hlt).le

/-- Without a claim nothing is looked at. -/
theorem run_week_zero (hweek : c.currentClaimProgress.week = 0) :
    c.run objects = (false, objects) := by
  rw [Comparison.run, isEnergyOutdated, if_pos hweek]

theorem run_fst (hweek : c.currentClaimProgress.week ≠ 0) :
    (c.run objects).1 = decide (((c.run objects).2 c.currentUserEnergy).amount ≠
      ((c.run objects).2 c.currentClaimProgress.energy).amount) := by
  rw [Comparison.run, isEnergyOutdated, if_neg hweek]

/-- The entries are left alone by the comparison exactly if it writes what is
there. -/
theorem unchanged_iff : (c.run objects).2 = objects ↔
    c.currentClaimProgress.week = 0 ∨ c.Settled objects := by
  by_cases hweek : c.currentClaimProgress.week = 0
  · exact iff_of_true (congrArg Prod.snd (run_week_zero hweek)) (Or.inl hweek)
  · rw [run_of_week_ne_zero hweek, or_iff_right hweek, Comparison.Settled]
    split
    next hle =>
      rw [catchUp_eq_self_iff]
      exact (and_iff_left (Or.inr hle)).symm
    next hlt =>
      rw [catchUp_eq_self_iff]
      exact (and_iff_right (Or.inr (not_le.mp hlt).le)).symm

/-- Where nothing is written, the answer is the one asked for. -/
theorem run_of_settled (h : c.currentClaimProgress.week = 0 ∨ c.Settled objects) :
    c.run objects = (c.answer objects, objects) := by
  have hunchanged := unchanged_iff.mpr h
  refine Prod.ext ?_ hunchanged
  by_cases hweek : c.currentClaimProgress.week = 0
  · rw [run_week_zero hweek, Comparison.answer]
    simp [hweek]
  · obtain ⟨huser, hclaim⟩ := h.resolve_left hweek
    rw [run_fst hweek, hunchanged, Comparison.answer]
    simp only [ne_eq, hweek, not_false_eq_true, true_and, differ, amountAt_eq]
    have hself : ∀ e : EnergyType, e.loss e.lastUpdateEpoch = 0 := fun e =>
      LosesNothing.loss_eq_zero (Or.inr le_rfl)
    rcases le_total (objects c.currentUserEnergy).lastUpdateEpoch
      (objects c.currentClaimProgress.energy).lastUpdateEpoch with hle | hle
    · rw [max_eq_right hle, huser.loss_eq_zero, hself, sub_zero, sub_zero]
    · rw [max_eq_left hle, hclaim.loss_eq_zero, hself, sub_zero, sub_zero]

end Comparison

/-! ## Comparisons that share entries -/

/-- Comparisons that write nothing do not see each other. -/
theorem runAll_of_settled {comparisons : List Comparison} {objects : Objects}
    (h : ∀ c ∈ comparisons, c.currentClaimProgress.week = 0 ∨ c.Settled objects) :
    runAll comparisons objects = (comparisons.map fun c => c.answer objects, objects) := by
  induction comparisons with
  | nil => rfl
  | cons c comparisons ih =>
    have hrest := ih fun c hc => h c (List.mem_cons_of_mem _ hc)
    rw [runAll, run_of_settled (h c List.mem_cons_self)]
    dsimp only
    rw [hrest, List.map_cons]

/-- **Comparing only looks** exactly if, in every comparison with a claim
progress, the older entry loses nothing until the epoch of the newer one. -/
theorem onlyLooks_iff (comparisons : List Comparison) (objects : Objects) :
    OnlyLooks comparisons objects ↔
      ∀ c ∈ comparisons, c.currentClaimProgress.week = 0 ∨ c.Settled objects := by
  constructor
  · intro h c hc
    exact unchanged_iff.mp (h.unchanged c hc)
  · intro h
    exact
      { answers := fun c hc => congrArg Prod.fst (run_of_settled (h c hc))
        unchanged := fun c hc => unchanged_iff.mpr (h c hc)
        sequences := fun sequence hsequence =>
          runAll_of_settled fun c hc => h c (hsequence c hc) }

/-- A user with a hundred tokens locked has claimed five epochs after the
entry at hand was written, with the energy of that epoch. Asked once, the
energy is up to date; asked twice, the second answer is that it is not. -/
theorem compared_twice :
    ¬OnlyLooks [{ currentUserEnergy := 0, currentClaimProgress := { energy := 1, week := 3 } }]
      fun r =>
        { amount := if r = 0 then 1000 else 500
          lastUpdateEpoch := if r = 0 then 10 else 15
          totalLockedTokens := 100 } := by
  intro h
  have htwice := h.sequences
    [{ currentUserEnergy := 0, currentClaimProgress := { energy := 1, week := 3 } },
      { currentUserEnergy := 0, currentClaimProgress := { energy := 1, week := 3 } }]
    (fun c hc => by simpa using hc)
  exact absurd (congrArg Prod.fst htwice) (by decide)

end MxExchange.User
