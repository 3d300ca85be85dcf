import Mathlib.Algebra.Order.Ring.Int
import Mathlib.Logic.Function.Basic
import Mathlib.Tactic.Linarith

/-!
# `energy.compute.service.ts`: energy that decays

A user's energy loses the user's locked tokens every epoch, so an entry is an
amount together with the epoch it is of. `depleteUserEnergy` brings the amount
to a later epoch and writes it into the entry it was given; the epoch it
leaves as it was. An entry that is depleted once more has the same epochs
taken off again (`depleteAll_amount`).

Objects are kept by reference here, since what is asked is also what becomes
of the caller's entry. Amounts and totals are strings of whole numbers, on
which the decimal arithmetic is exact; they are `ℤ`.
-/

namespace MxExchange.Energy

/-- An energy entry. -/
structure EnergyType where
  amount : ℤ
  lastUpdateEpoch : ℤ
  totalLockedTokens : ℤ
  deriving DecidableEq

/-- A reference to an entry, and the entries there are. -/
abbrev Ref := ℕ

/-- The entries behind references. -/
abbrev Objects := Ref → EnergyType

/-- `isPositive` of the decimal library, which zero is as well. -/
def isPositive (x : ℤ) : Bool := 0 ≤ x

/-- The entry that is returned is the one that was passed in. The first `if`
of the source, for an entry of the current epoch, has a body without effect. -/
def depleteUserEnergy (energyEntry : Ref) (currentEpoch : ℤ) (objects : Objects) :
    Ref × Objects :=
  let entry := objects energyEntry
  if isPositive entry.totalLockedTokens ∧ 0 < entry.lastUpdateEpoch then
    if currentEpoch ≤ entry.lastUpdateEpoch then (energyEntry, objects)
    else
      let epochDiff := currentEpoch - entry.lastUpdateEpoch
      let energyDecrease := entry.totalLockedTokens * epochDiff
      (energyEntry,
        Function.update objects energyEntry { entry with amount := entry.amount - energyDecrease })
  else (energyEntry, objects)

/-! ## Callers -/

/-- What the contract has of a user: the entry as it is stored, fetched anew
or read from the cache. -/
structure EnergyAbiService where
  getEnergyEntryForUserRaw : String → EnergyType
  energyEntryForUser : String → EnergyType

/-- `EnergyService.getUserEnergy`: its own copy of the entry, depleted. -/
def getUserEnergy (energyAbi : EnergyAbiService) (currentEpoch : ℤ) (userAddress : String)
    (vmQuery : Bool) : EnergyType :=
  if vmQuery then energyAbi.getEnergyEntryForUserRaw userAddress
  else
    let (depletedEnergy, objects) :=
      depleteUserEnergy 0 currentEpoch fun _ => energyAbi.energyEntryForUser userAddress
    objects depletedEnergy

/-- A user's progress holds a reference to the energy of its week. -/
structure ClaimProgress where
  energy : Ref
  week : ℕ

/-! ## What a call leaves -/

section Depletion

variable {objects : Objects} {r : Ref} {t t₁ t₂ : ℤ}

/-- What an entry loses until an epoch. -/
def EnergyType.loss (e : EnergyType) (t : ℤ) : ℤ :=
  if 0 ≤ e.totalLockedTokens ∧ 0 < e.lastUpdateEpoch then
    e.totalLockedTokens * max 0 (t - e.lastUpdateEpoch)
  else 0

@[simp] theorem depleteUserEnergy_fst : (depleteUserEnergy r t objects).1 = r := by
  unfold depleteUserEnergy
  dsimp only
  split
  · split <;> rfl
  · rfl

/-- The entry afterwards: the loss off its amount, and nothing else. -/
theorem depleteUserEnergy_self : (depleteUserEnergy r t objects).2 r =
    { objects r with amount := (objects r).amount - (objects r).loss t } := by
  unfold depleteUserEnergy EnergyType.loss
  simp only [isPositive, decide_eq_true_eq]
  split
  next =>
    split
    next hle => rw [max_eq_left (by omega), mul_zero, sub_zero]
    next hlt =>
      rw [max_eq_right (by omega)]
      exact Function.update_self _ _ _
  next => rw [sub_zero]

/-- Nothing is lost without locked tokens, before the first update, or at the
same epoch. -/
theorem loss_eq_zero_iff {e : EnergyType} (h : e.lastUpdateEpoch ≤ t) :
    e.loss t = 0 ↔ e.totalLockedTokens ≤ 0 ∨ e.lastUpdateEpoch ≤ 0 ∨ t = e.lastUpdateEpoch := by
  unfold EnergyType.loss
  split
  next hlive =>
    rw [max_eq_right (by omega), mul_eq_zero]
    constructor
    · rintro (hzero | hepoch)
      · exact Or.inl hzero.le
      · exact Or.inr (Or.inr (by omega))
    · rintro (hzero | hepoch | hepoch)
      · exact Or.inl (by omega)
      · exact absurd hepoch (by omega)
      · exact Or.inr (by omega)
  next hdead =>
    refine iff_of_true rfl ?_
    omega

theorem loss_nonneg {e : EnergyType} : 0 ≤ e.loss t := by
  unfold EnergyType.loss
  split
  next hlive => exact mul_nonneg hlive.1 (le_max_left _ _)
  next => exact le_rfl

/-- A later epoch loses no less. -/
theorem loss_mono {e : EnergyType} (h : t₁ ≤ t₂) : e.loss t₁ ≤ e.loss t₂ := by
  unfold EnergyType.loss
  split
  next hlive =>
    exact mul_le_mul_of_nonneg_left (max_le_max le_rfl (by omega)) hlive.1
  next => exact le_rfl

end Depletion

/-! ## One call after the other -/

/-- A chain of calls, each on the entry the call before it returned. -/
def depleteAll (energyEntry : Ref) (epochs : List ℤ) (objects : Objects) : Ref × Objects :=
  epochs.foldl (fun result epoch => depleteUserEnergy result.1 epoch result.2)
    (energyEntry, objects)

/-- The entry a call or a chain of calls returns. -/
def returned (result : Ref × Objects) : EnergyType := result.2 result.1

section Chains

variable {objects : Objects} {r : Ref} {t t₁ t₂ : ℤ}

/-- **Depleting over and over.** Every call takes off what the entry has lost
since an epoch that never moves. -/
theorem depleteAll_amount (r : Ref) (epochs : List ℤ) (objects : Objects) :
    returned (depleteAll r epochs objects) =
      { objects r with
        amount := (objects r).amount - (epochs.map (objects r).loss).sum } := by
  induction epochs generalizing objects with
  | nil =>
    show objects r = { objects r with amount := (objects r).amount - 0 }
    rw [sub_zero]
  | cons t epochs ih =>
    have hcall : depleteUserEnergy r t objects = (r, (depleteUserEnergy r t objects).2) :=
      Prod.ext depleteUserEnergy_fst rfl
    have hloss : ((depleteUserEnergy r t objects).2 r).loss = (objects r).loss := by
      rw [depleteUserEnergy_self]
      rfl
    show returned (depleteAll (depleteUserEnergy r t objects).1 epochs
      (depleteUserEnergy r t objects).2) = _
    rw [depleteUserEnergy_fst, ih, hloss, depleteUserEnergy_self, List.map_cons, List.sum_cons,
      sub_sub]

/-- What is asked of two epochs one after the other: depleting to the first
and then to the second is depleting to the second, doing it twice is doing it
once, and the entry passed in stays as it is. -/
structure Composes (r : Ref) (t₁ t₂ : ℤ) (objects : Objects) : Prop where
  compose : returned (depleteAll r [t₁, t₂] objects) = returned (depleteAll r [t₂] objects)
  twice : ∀ t ∈ [t₁, t₂], returned (depleteAll r [t, t] objects) =
    returned (depleteAll r [t] objects)
  unchanged : ∀ t ∈ [t₁, t₂], (depleteUserEnergy r t objects).2 r = objects r

/-- Depletions differ only in what they lose in sum. -/
theorem returned_eq_iff {epochs epochs' : List ℤ} :
    returned (depleteAll r epochs objects) = returned (depleteAll r epochs' objects) ↔
      (epochs.map (objects r).loss).sum = (epochs'.map (objects r).loss).sum := by
  rw [depleteAll_amount, depleteAll_amount, EnergyType.mk.injEq, sub_right_inj]
  simp

/-- A depletion in two steps is one step only if the first loses nothing. -/
theorem compose_iff : returned (depleteAll r [t₁, t₂] objects) =
    returned (depleteAll r [t₂] objects) ↔ (objects r).loss t₁ = 0 := by
  rw [returned_eq_iff]
  simp

/-- A second depletion to the same epoch does nothing only if the first did
nothing. -/
theorem twice_iff : returned (depleteAll r [t, t] objects) = returned (depleteAll r [t] objects) ↔
    (objects r).loss t = 0 :=
  compose_iff

/-- An entry is left as it is only if nothing is lost. -/
theorem unchanged_iff : (depleteUserEnergy r t objects).2 r = objects r ↔
    (objects r).loss t = 0 := by
  rw [depleteUserEnergy_self]
  constructor
  · intro h
    have hamount : (objects r).amount - (objects r).loss t = (objects r).amount :=
      congrArg EnergyType.amount h
    omega
  · intro h
    rw [h, sub_zero]

/-- **Energy depletion.** It composes, can be done twice and leaves its
argument alone exactly for an entry that loses nothing until the later
epoch. -/
theorem composes_iff (objects : Objects) (r : Ref)
    (h₁ : (objects r).lastUpdateEpoch ≤ t₁) (h₂ : t₁ ≤ t₂) :
    Composes r t₁ t₂ objects ↔
      (objects r).totalLockedTokens ≤ 0 ∨ (objects r).lastUpdateEpoch ≤ 0 ∨
        t₂ = (objects r).lastUpdateEpoch := by
  rw [← loss_eq_zero_iff (h₁.trans h₂)]
  constructor
  · intro h
    exact unchanged_iff.mp (h.unchanged t₂ (by simp))
  · intro hzero
    have hzero' : ∀ t ∈ [t₁, t₂], (objects r).loss t = 0 := by
      intro t ht
      have hle : t ≤ t₂ := by
        rcases List.mem_cons.mp ht with rfl | hlast
        · exact h₂
        · exact (List.mem_singleton.mp hlast).le
      exact le_antisymm (hzero ▸ loss_mono hle) loss_nonneg
    exact
      { compose := compose_iff.mpr (hzero' t₁ (by simp))
        twice := fun t ht => twice_iff.mpr (hzero' t ht)
        unchanged := fun t ht => unchanged_iff.mpr (hzero' t ht) }

/-- Nothing locked: the energy is the same at every epoch. -/
theorem composes_nothing_locked :
    Composes 0 12 15 fun _ =>
      { amount := 1000
        lastUpdateEpoch := 10
        totalLockedTokens := 0 } :=
  (composes_iff (fun _ => _) 0 (by decide) (by decide)).mpr (Or.inl (by decide))

/-- A hundred tokens locked since epoch 10: until epoch 15 the entry loses
500, by way of epoch 12 it loses 700. -/
theorem epochs_depleted_twice :
    ¬Composes 0 12 15 fun _ =>
      { amount := 1000
        lastUpdateEpoch := 10
        totalLockedTokens := 100 } := by
  intro h
  exact absurd h.compose (by decide)

end Chains

/-! ## A user's energy -/

/-- The energy a query returns is of the current epoch, its epoch is not. -/
theorem getUserEnergy_eq (energyAbi : EnergyAbiService) (currentEpoch : ℤ) (userAddress : String) :
    getUserEnergy energyAbi currentEpoch userAddress false =
      { energyAbi.energyEntryForUser userAddress with
        amount := (energyAbi.energyEntryForUser userAddress).amount -
          (energyAbi.energyEntryForUser userAddress).loss currentEpoch } := by
  have hcall := depleteAll_amount 0 [currentEpoch]
    fun _ => energyAbi.energyEntryForUser userAddress
  rw [List.map_singleton, List.sum_singleton] at hcall
  exact hcall

end MxExchange.Energy
