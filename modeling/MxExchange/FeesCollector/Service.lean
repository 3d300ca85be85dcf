import MxExchange.WeeklyRewards.Payments

/-!
# `fees-collector.service.ts`: what a user has accumulated so far

The fees of the running week, one entry for each token and one for the
tokens minted since the week began, are multiplied by a user's percentage of
the total energy. Only a user without any energy is left out. The energy of
a claim progress is signed, and the total is zero until someone has claimed
in the week: the percentage may be negative, infinite or not a number.

Percentage and reward are both cut off towards zero, so users whose energies are
a part of the total stay within the fees together. Only where negative energies
make room for others in the total do the remainders matter (`Covered`).

`bounded_iff` says for which users the rewards are amounts within the fees,
`always_bounded_iff` that there is no week with fees for which they are so
whoever the users are.
-/

namespace MxExchange.FeesCollector

open MxExchange.Num WeeklyRewards

/-- The fees collector's views. -/
structure FeesCollectorAbiService where
  allTokens : List String
  accumulatedFees : ℕ → String → ℕ
  lockedTokenID : String
  lockedTokensPerBlock : ℕ

/-- What the blocks of the week so far have minted. -/
def accumulatedFeesUntilNow (feesCollectorAbi : FeesCollectorAbiService)
    (context : ContextGetterService) (scAddress : String) (week : ℕ) : Except String ℕ := do
  let blocksInWeek ← computeBlocksInWeek context scAddress week
  return feesCollectorAbi.lockedTokensPerBlock * blocksInWeek

/-- The fees of all tokens, and what is minted. -/
def getAccumulatedFees (feesCollectorAbi : FeesCollectorAbiService)
    (context : ContextGetterService) (scAddress : String) (week : ℕ) (allTokens : List String) :
    Except String (List (EsdtTokenPayment ℕ)) := do
  let accumulatedFees : List (EsdtTokenPayment ℕ) := allTokens.map fun token =>
    { tokenID := token
      tokenType := 0
      amount := feesCollectorAbi.accumulatedFees week token
      nonce := 0 }
  let accumulatedTokenForInflation ←
    accumulatedFeesUntilNow feesCollectorAbi context scAddress week
  return accumulatedFees ++
    [{ tokenID := "Minted" ++ feesCollectorAbi.lockedTokenID
       tokenType := 0
       amount := accumulatedTokenForInflation
       nonce := 0 }]

/-- The part after the queries. -/
def accumulatedRewards (accumulatedFees : List (EsdtTokenPayment ℕ)) (totalEnergyForWeek : ℕ)
    (currentClaimProgress : ClaimProgress) : List (EsdtTokenPayment BigNumber) :=
  let energy : BigNumber := .fin currentClaimProgress.energy.amount
  if currentClaimProgress.week = 0 ∨ energy.isZero then []
  else
    let percentage := energy.dividedBy (.ofNat totalEnergyForWeek)
    accumulatedFees.map fun payment =>
      { amount := ((BigNumber.ofNat payment.amount).multipliedBy percentage).integerValue
        nonce := payment.nonce
        tokenID := payment.tokenID
        tokenType := payment.tokenType }

/-- What a user will be paid of them. -/
def getUserAccumulatedRewards (feesCollectorAbi : FeesCollectorAbiService)
    (abi : WeeklyRewardsSplittingAbiService) (context : ContextGetterService)
    (scAddress userAddress : String) (currentWeek : ℕ) :
    Except String (List (EsdtTokenPayment BigNumber)) := do
  let accumulatedFees ←
    getAccumulatedFees feesCollectorAbi context scAddress currentWeek feesCollectorAbi.allTokens
  return accumulatedRewards accumulatedFees (abi.totalEnergyForWeek scAddress currentWeek)
    (abi.currentClaimProgress scAddress userAddress)

/-- The minted tokens are always among the fees. -/
theorem getAccumulatedFees_ne_nil {feesCollectorAbi : FeesCollectorAbiService}
    {context : ContextGetterService} {scAddress : String} {week : ℕ} {allTokens : List String}
    {fees : List (EsdtTokenPayment ℕ)}
    (h : getAccumulatedFees feesCollectorAbi context scAddress week allTokens = .ok fees) :
    fees ≠ [] := by
  unfold getAccumulatedFees at h
  cases hminted : accumulatedFeesUntilNow feesCollectorAbi context scAddress week with
  | error message =>
    rw [hminted] at h
    cases h
  | ok amount =>
    rw [hminted] at h
    cases h
    exact List.append_ne_nil_of_right_ne_nil _ (List.cons_ne_nil _ _)

/-! ## One user -/

section User

variable {fees : List (EsdtTokenPayment ℕ)} {total : ℕ} {progress : ClaimProgress}
  {tokenID : String}

/-- Who gets past the guard. -/
def Active (progress : ClaimProgress) : Prop := progress.week ≠ 0 ∧ progress.energy.amount ≠ 0

instance (progress : ClaimProgress) : Decidable (Active progress) :=
  inferInstanceAs (Decidable (_ ∧ _))

/-- The size of the percentage, in units of the twentieth decimal. -/
def percent (total : ℕ) (progress : ClaimProgress) : ℕ :=
  10 ^ 20 * progress.energy.amount.natAbs / total

/-- The size of a reward before its decimals are cut off, in the same units. -/
def partOf (total : ℕ) (progress : ClaimProgress) (fee : EsdtTokenPayment ℕ) : ℕ :=
  fee.amount * percent total progress

theorem accumulatedRewards_inactive (h : ¬Active progress) :
    accumulatedRewards fees total progress = [] := by
  rw [accumulatedRewards, if_pos]
  by_contra hguard
  rw [not_or] at hguard
  refine h ⟨hguard.1, fun hzero => hguard.2 ?_⟩
  rw [hzero]
  rfl

theorem accumulatedRewards_active (h : Active progress) :
    accumulatedRewards fees total progress = fees.map fun payment =>
      { amount := ((BigNumber.ofNat payment.amount).multipliedBy
          ((BigNumber.fin progress.energy.amount).dividedBy (.ofNat total))).integerValue
        nonce := payment.nonce
        tokenID := payment.tokenID
        tokenType := payment.tokenType } := by
  rw [accumulatedRewards, if_neg]
  rintro (hweek | hzero)
  · exact h.1 hweek
  · rw [BigNumber.isZero, decide_eq_true_eq, BigNumber.fin.injEq, Int.cast_eq_zero] at hzero
    exact h.2 hzero

/-- A percentage has the sign of the energy. -/
theorem percentage_eq (ht : 0 < total) :
    (BigNumber.fin progress.energy.amount).dividedBy (.ofNat total) =
      .fin (progress.energy.amount.sign * ((percent total progress : ℕ) / 10 ^ 20)) := by
  have hne : (total : ℚ) ≠ 0 := by exact_mod_cast ht.ne'
  have habs : (progress.energy.amount : ℚ) / total =
      progress.energy.amount.sign * ((progress.energy.amount.natAbs : ℕ) / total) := by
    rw [← mul_div_assoc, ← Int.cast_natCast (progress.energy.amount.natAbs), ← Int.cast_mul,
      Int.sign_mul_natAbs]
  have hsize : ((progress.energy.amount.natAbs : ℕ) / total : ℚ) * 10 ^ 20 =
      (10 ^ 20 * progress.energy.amount.natAbs : ℕ) / total := by
    push_cast
    ring
  rw [BigNumber.ofNat, BigNumber.dividedBy_fin _ hne, habs, BigNumber.DECIMAL_PLACES,
    truncatePlaces_sign_mul, truncatePlaces_eq_div hsize]
  rfl

theorem reward_eq (ht : 0 < total) (fee : EsdtTokenPayment ℕ) :
    ((BigNumber.ofNat fee.amount).multipliedBy
        ((BigNumber.fin progress.energy.amount).dividedBy (.ofNat total))).integerValue =
      .fin ((progress.energy.amount.sign *
        (partOf total progress fee / 10 ^ 20 : ℕ) : ℤ) : ℚ) := by
  rw [percentage_eq ht, BigNumber.ofNat, BigNumber.multipliedBy_fin, BigNumber.integerValue_fin,
    ← truncate_div, ← truncate_sign_mul]
  refine congrArg (fun q => BigNumber.fin (truncate q)) ?_
  unfold partOf
  push_cast
  ring

/-- What a user is paid of a token, over an energy that is not zero. -/
theorem sumAmounts_accumulatedRewards (ht : 0 < total) (h : Active progress) :
    sumAmounts (ofToken tokenID (accumulatedRewards fees total progress)) =
      .fin ((progress.energy.amount.sign * (((ofToken tokenID fees).map fun fee =>
        partOf total progress fee / 10 ^ 20).sum : ℕ) : ℤ) : ℚ) := by
  rw [accumulatedRewards_active h]
  exact sumAmounts_map (fun _ => rfl) (reward_eq ht)

theorem sign_of_active (h : Active progress) :
    progress.energy.amount.sign = 1 ∨ progress.energy.amount.sign = -1 := by
  rcases lt_or_gt_of_ne h.2 with hneg | hpos
  · exact Or.inr (Int.sign_eq_neg_one_of_neg hneg)
  · exact Or.inl (Int.sign_eq_one_of_pos hpos)

/-- Over a total of zero every reward is lost. -/
theorem lost_accumulatedRewards (h : Active progress) (reward : EsdtTokenPayment BigNumber)
    (hr : reward ∈ accumulatedRewards fees 0 progress) :
    BigNumber.Lost progress.energy.amount.sign reward.amount := by
  rw [accumulatedRewards_active h] at hr
  obtain ⟨fee, -, rfl⟩ := List.mem_map.mp hr
  dsimp only
  rw [BigNumber.intCast_dividedBy_zero]
  exact BigNumber.lost_multipliedBy (sign_of_active h) _

/-- No fee is passed over. -/
theorem exists_reward (total : ℕ) (h : Active progress) {fee : EsdtTokenPayment ℕ}
    (hf : fee ∈ fees) :
    ∃ reward ∈ accumulatedRewards fees total progress, reward.tokenID = fee.tokenID := by
  rw [accumulatedRewards_active h]
  exact ⟨_, List.mem_map_of_mem hf, rfl⟩

/-- Without a total the payments are not finite. -/
theorem lost_of_total_zero (h : Active progress) {fee : EsdtTokenPayment ℕ} (hf : fee ∈ fees) :
    BigNumber.Lost progress.energy.amount.sign
      (sumAmounts (ofToken fee.tokenID (accumulatedRewards fees 0 progress))) := by
  refine lost_sumAmounts (fun reward hr => ?_) ?_
  · exact lost_accumulatedRewards h reward (List.mem_of_mem_filter hr)
  · obtain ⟨reward, hr, hid⟩ := exists_reward 0 h hf
    exact List.ne_nil_of_mem (List.mem_filter.mpr ⟨hr, decide_eq_true hid⟩)

/-- A user's rewards of each token are an amount within the fees. -/
def Within (fees : List (EsdtTokenPayment ℕ)) (rewards : List (EsdtTokenPayment BigNumber)) :
    Prop :=
  ∀ tokenID, ∃ n : ℕ,
    sumAmounts (ofToken tokenID rewards) = .ofNat n ∧ n ≤ totalOf tokenID fees

/-- The energy is not negative, or so small that nothing is left of it. -/
def Harmless (fees : List (EsdtTokenPayment ℕ)) (total : ℕ) (progress : ClaimProgress) : Prop :=
  progress.energy.amount < 0 → ∀ fee ∈ fees, partOf total progress fee < 10 ^ 20

/-- The parts do not exceed the fees. -/
theorem sum_part_le (h : progress.energy.amount.natAbs ≤ total) :
    ((ofToken tokenID fees).map fun fee =>
      partOf total progress fee / 10 ^ 20).sum ≤ totalOf tokenID fees := by
  have hpercent : percent total progress ≤ 10 ^ 20 := by
    apply Nat.div_le_of_le_mul
    rw [Nat.mul_comm total]
    exact Nat.mul_le_mul_left _ h
  refine List.sum_le_sum fun fee _ => Nat.div_le_of_le_mul ?_
  rw [partOf, Nat.mul_comm]
  exact Nat.mul_le_mul_right _ hpercent

theorem sum_part_eq_zero_iff : ((ofToken tokenID fees).map fun fee =>
      partOf total progress fee / 10 ^ 20).sum = 0 ↔
    ∀ fee ∈ ofToken tokenID fees, partOf total progress fee < 10 ^ 20 := by
  rw [List.sum_eq_zero_iff, List.forall_mem_map]
  refine forall₂_congr fun fee _ => ?_
  show partOf total progress fee / 10 ^ 20 = 0 ↔ _
  omega

theorem within_of_inactive (h : ¬Active progress) :
    Within fees (accumulatedRewards fees total progress) := by
  rw [accumulatedRewards_inactive h]
  exact fun tokenID => ⟨0, rfl, Nat.zero_le _⟩

/-- With a total and energy within it payments are within the fees. -/
theorem within_of_pos (ht : 0 < total) (h : Active progress) (hpos : 0 < progress.energy.amount)
    (he : progress.energy.amount ≤ total) :
    Within fees (accumulatedRewards fees total progress) := by
  intro tokenID
  rw [sumAmounts_accumulatedRewards ht h, Int.sign_eq_one_of_pos hpos, one_mul]
  exact ⟨_, rfl, sum_part_le (by omega)⟩

/-- A negative energy would have to be paid as nothing. -/
theorem within_iff_of_neg (ht : 0 < total) (h : Active progress)
    (hneg : progress.energy.amount < 0) :
    Within fees (accumulatedRewards fees total progress) ↔
      ∀ fee ∈ fees, partOf total progress fee < 10 ^ 20 := by
  have hsum : ∀ tokenID, (∃ n : ℕ, sumAmounts (ofToken tokenID
      (accumulatedRewards fees total progress)) = .ofNat n ∧ n ≤ totalOf tokenID fees) ↔
      ∀ fee ∈ ofToken tokenID fees, partOf total progress fee < 10 ^ 20 := by
    intro tokenID
    rw [sumAmounts_accumulatedRewards ht h, Int.sign_eq_neg_one_of_neg hneg, neg_one_mul,
      ← sum_part_eq_zero_iff]
    constructor
    · rintro ⟨n, hn, -⟩
      have hq := BigNumber.fin.inj hn
      rw [← Int.cast_natCast (R := ℚ) n, Int.cast_inj] at hq
      omega
    · intro hzero
      rw [hzero]
      exact ⟨0, rfl, Nat.zero_le _⟩
  constructor
  · intro hwithin fee hf
    exact (hsum fee.tokenID).mp (hwithin fee.tokenID) fee
      (List.mem_filter.mpr ⟨hf, decide_eq_true rfl⟩)
  · intro hsmall tokenID
    exact (hsum tokenID).mpr fun fee hf => hsmall fee (List.mem_of_mem_filter hf)

/-- **One user.** -/
theorem within_iff (hne : fees ≠ []) (he : progress.energy.amount ≤ total) :
    Within fees (accumulatedRewards fees total progress) ↔
      (Active progress → 0 < total ∧ Harmless fees total progress) := by
  by_cases h : Active progress
  · rcases Nat.eq_zero_or_pos total with rfl | ht
    · obtain ⟨fee, hf⟩ := List.exists_mem_of_ne_nil fees hne
      refine iff_of_false (fun hwithin => ?_) (fun hcond => absurd (hcond h).1 (lt_irrefl 0))
      obtain ⟨n, hn, -⟩ := hwithin fee.tokenID
      exact (lost_of_total_zero h hf).ne_fin _ hn
    · rcases lt_or_gt_of_ne h.2 with hneg | hpos
      · rw [within_iff_of_neg ht h hneg]
        exact ⟨fun hsmall _ => ⟨ht, fun _ => hsmall⟩, fun hcond => (hcond h).2 hneg⟩
      · refine iff_of_true (within_of_pos ht h hpos he) fun _ => ⟨ht, fun hneg => ?_⟩
        omega
  · exact iff_of_true (within_of_inactive h) fun hactive => absurd hactive h

end User

/-! ## Any number of users -/

section Users

variable {fees : List (EsdtTokenPayment ℕ)} {total : ℕ} {progress : String → ClaimProgress}
  {users : List String}

/-- What is asked of the rewards, for each user whose energy is within the
total and for all of them if their energies together are. -/
structure Bounded (fees : List (EsdtTokenPayment ℕ)) (total : ℕ)
    (progress : String → ClaimProgress) (users : List String)
    (rewards : String → List (EsdtTokenPayment BigNumber)) : Prop where
  each : ∀ user ∈ users, (progress user).energy.amount ≤ total → Within fees (rewards user)
  together : (users.map fun user => (progress user).energy.amount).sum ≤ total → ∀ tokenID,
    (sumAmounts (ofToken tokenID (users.flatMap rewards))).isLessThanOrEqualTo
      (.ofNat (totalOf tokenID fees)) = true

/-- Those who are paid something that is not negative. -/
def claimants (progress : String → ClaimProgress) (users : List String) : List String :=
  users.filter fun user => Active (progress user) ∧ 0 < (progress user).energy.amount

/-- What the claimants' parts of a token exceed its fees by is left in their
remainders. -/
def Covered (fees : List (EsdtTokenPayment ℕ)) (total : ℕ) (progress : String → ClaimProgress)
    (users : List String) (tokenID : String) : Prop :=
  let parts := ((claimants progress users).product (ofToken tokenID fees)).map fun p =>
    partOf total (progress p.1) p.2
  parts.sum ≤ 10 ^ 20 * totalOf tokenID fees + (parts.map (· % 10 ^ 20)).sum

/-- Over a total that is not zero, with no negative energy that matters, the
rewards are the claimants' shares. -/
theorem together_iff_covered (ht : 0 < total) (tokenID : String)
    (hharmless : ∀ user ∈ users, Active (progress user) → Harmless fees total (progress user)) :
    (sumAmounts (ofToken tokenID
      (users.flatMap fun user => accumulatedRewards fees total (progress user)))
        ).isLessThanOrEqualTo (.ofNat (totalOf tokenID fees)) = true ↔
      Covered fees total progress users tokenID := by
  -- who is left out of the claimants adds nothing
  have hothers : ∀ user ∈ users,
      decide (Active (progress user) ∧ 0 < (progress user).energy.amount) = false →
        sumAmounts (ofToken tokenID (accumulatedRewards fees total (progress user))) =
          .ofNat 0 := by
    intro user hu hnot
    rw [decide_eq_false_iff_not] at hnot
    by_cases h : Active (progress user)
    · have hneg : (progress user).energy.amount < 0 := by
        have hne := h.2
        have hle : ¬0 < (progress user).energy.amount := fun hpos => hnot ⟨h, hpos⟩
        omega
      have hzero : ((ofToken tokenID fees).map fun fee =>
          partOf total (progress user) fee / 10 ^ 20).sum = 0 :=
        sum_part_eq_zero_iff.mpr fun fee hf =>
          hharmless user hu h hneg fee (List.mem_of_mem_filter hf)
      rw [sumAmounts_accumulatedRewards ht h, hzero, Nat.cast_zero, mul_zero]
      rfl
    · rw [accumulatedRewards_inactive h]
      rfl
  have hclaimants : ∀ user ∈ claimants progress users,
      sumAmounts (ofToken tokenID (accumulatedRewards fees total (progress user))) =
        .ofNat ((ofToken tokenID fees).map fun fee =>
          partOf total (progress user) fee / 10 ^ 20).sum := by
    intro user hu
    obtain ⟨h, hpos⟩ := of_decide_eq_true (List.mem_filter.mp hu).2
    rw [sumAmounts_accumulatedRewards ht h, Int.sign_eq_one_of_pos hpos, one_mul]
    rfl
  rw [sumAmounts_flatMap_filter hothers]
  show (sumAmounts (ofToken tokenID ((claimants progress users).flatMap fun user =>
    accumulatedRewards fees total (progress user)))).isLessThanOrEqualTo _ = true ↔ _
  rw [sumAmounts_users hclaimants, BigNumber.isLessThanOrEqualTo_ofNat, decide_eq_true_eq,
    Covered, List.map_map]
  exact sum_div_le_iff (by omega)

/-- Claimants whose energies are a part of the total take no more than there is. -/
theorem covered_of_sum_le
    (h : ((claimants progress users).map fun user =>
      (progress user).energy.amount.natAbs).sum ≤ total) (tokenID : String) :
    Covered fees total progress users tokenID := by
  rw [Covered, List.map_map]
  refine (sum_div_le_iff (by omega)).mp ?_
  rw [sum_product fun user fee => partOf total (progress user) fee / 10 ^ 20, totalOf]
  refine List.sum_le_sum fun fee _ => ?_
  have hpercent : ((claimants progress users).map fun user => percent total (progress user)).sum ≤
      10 ^ 20 :=
    sum_shares_le (10 ^ 20) total h
  exact sum_shares_le fee.amount (10 ^ 20) hpercent

/-- An active user over a total of zero spoils the sum, unless a negative
energy has spoilt that user's own. -/
theorem not_together_of_total_zero (hne : fees ≠ []) {user : String} (hu : user ∈ users)
    (h : Active (progress user))
    (hpos : ∀ user ∈ users, Active (progress user) → 0 < (progress user).energy.amount) :
    ∃ tokenID, (sumAmounts (ofToken tokenID
      (users.flatMap fun user => accumulatedRewards fees 0 (progress user)))
        ).isLessThanOrEqualTo (.ofNat (totalOf tokenID fees)) = false := by
  obtain ⟨fee, hf⟩ := List.exists_mem_of_ne_nil fees hne
  refine ⟨fee.tokenID, BigNumber.Lost.not_isLessThanOrEqualTo (s := 1) ?_ one_pos _⟩
  refine lost_sumAmounts (fun reward hr => ?_) ?_
  · obtain ⟨other, ho, hreward⟩ := List.mem_flatMap.mp (List.mem_of_mem_filter hr)
    by_cases hactive : Active (progress other)
    · have hlost := lost_accumulatedRewards hactive reward hreward
      rwa [Int.sign_eq_one_of_pos (hpos other ho hactive)] at hlost
    · rw [accumulatedRewards_inactive hactive] at hreward
      cases hreward
  · obtain ⟨reward, hr, hid⟩ := exists_reward 0 h hf
    exact List.ne_nil_of_mem
      (List.mem_filter.mpr ⟨List.mem_flatMap.mpr ⟨user, hu, hr⟩, decide_eq_true hid⟩)

theorem each_iff (hne : fees ≠ []) :
    (∀ user ∈ users, (progress user).energy.amount ≤ total →
      Within fees (accumulatedRewards fees total (progress user))) ↔
    ∀ user ∈ users, Active (progress user) → (progress user).energy.amount ≤ total →
      0 < total ∧ Harmless fees total (progress user) := by
  refine forall₂_congr fun user _ => ?_
  constructor
  · exact fun hwithin hactive he => (within_iff hne he).mp (hwithin he) hactive
  · exact fun hcond he => (within_iff hne he).mpr fun hactive => hcond hactive he

/-- Nobody is active: nothing is paid, and nothing claimed. -/
theorem together_of_inactive (h : ∀ user ∈ users, ¬Active (progress user)) (tokenID : String) :
    (sumAmounts (ofToken tokenID
      (users.flatMap fun user => accumulatedRewards fees total (progress user)))
        ).isLessThanOrEqualTo (.ofNat (totalOf tokenID fees)) = true ∧
      Covered fees total progress users tokenID := by
  have hnone : claimants progress users = [] :=
    List.filter_eq_nil_iff.mpr fun user hu hclaim => h user hu (of_decide_eq_true hclaim).1
  have hnothing : (users.flatMap fun user => accumulatedRewards fees total (progress user)) = [] :=
    List.flatMap_eq_nil_iff.mpr fun user hu => accumulatedRewards_inactive (h user hu)
  rw [hnothing, Covered, hnone]
  exact ⟨BigNumber.zero_isLessThanOrEqualTo _, Nat.zero_le _⟩

theorem together_iff (hne : fees ≠ [])
    (hcond : ∀ user ∈ users, Active (progress user) → (progress user).energy.amount ≤ total →
      0 < total ∧ Harmless fees total (progress user)) :
    (∀ tokenID, (sumAmounts (ofToken tokenID
      (users.flatMap fun user => accumulatedRewards fees total (progress user)))
        ).isLessThanOrEqualTo (.ofNat (totalOf tokenID fees)) = true) ↔
      (∀ user ∈ users, Active (progress user) → 0 < total) ∧
      ∀ tokenID, Covered fees total progress users tokenID := by
  -- without total energy the reward of an active user is `Infinity`, which is more than
  -- there is
  rcases Nat.eq_zero_or_pos total with rfl | ht
  · by_cases hsome : ∃ user ∈ users, Active (progress user)
    · obtain ⟨user, hu, h⟩ := hsome
      refine iff_of_false (fun hall => ?_) (fun hrest => absurd (hrest.1 user hu h) (lt_irrefl 0))
      have hpos : ∀ user ∈ users, Active (progress user) →
          0 < (progress user).energy.amount := by
        intro other ho hactive
        by_contra hle
        exact absurd (hcond other ho hactive (not_lt.mp hle)).1 (lt_irrefl 0)
      obtain ⟨tokenID, hnot⟩ := not_together_of_total_zero hne hu h hpos
      rw [hall tokenID] at hnot
      cases hnot
    · have hnone : ∀ user ∈ users, ¬Active (progress user) :=
        fun user hu h => hsome ⟨user, hu, h⟩
      exact iff_of_true (fun tokenID => (together_of_inactive hnone tokenID).1)
        ⟨fun user hu h => absurd h (hnone user hu),
          fun tokenID => (together_of_inactive hnone tokenID).2⟩
  · have hharmless : ∀ user ∈ users, Active (progress user) →
        Harmless fees total (progress user) :=
      fun user hu h hneg => (hcond user hu h (by omega)).2 hneg
    rw [forall_congr' fun tokenID => together_iff_covered ht tokenID hharmless]
    exact ⟨fun hcovered => ⟨fun _ _ _ => ht, hcovered⟩, And.right⟩

/-- **Given users.** The rewards are bounded exactly if nobody is active over
a total of zero, negative energies are too small to matter, and the claimants'
remainders cover what their parts exceed the fees by. -/
theorem bounded_iff (hne : fees ≠ []) :
    Bounded fees total progress users
        (fun user => accumulatedRewards fees total (progress user)) ↔
      (∀ user ∈ users, Active (progress user) → (progress user).energy.amount ≤ total →
        0 < total ∧ Harmless fees total (progress user)) ∧
      ((users.map fun user => (progress user).energy.amount).sum ≤ total →
        (∀ user ∈ users, Active (progress user) → 0 < total) ∧
        ∀ tokenID, Covered fees total progress users tokenID) := by
  constructor
  · intro h
    have hcond := (each_iff hne).mp h.each
    exact ⟨hcond, fun hsum => (together_iff hne hcond).mp (h.together hsum)⟩
  · rintro ⟨hcond, hrest⟩
    exact
      { each := (each_iff hne).mpr hcond
        together := fun hsum => (together_iff hne hcond).mpr (hrest hsum) }

end Users

/-! ## Whoever the users are -/

section Service

variable {feesCollectorAbi : FeesCollectorAbiService}
  {context : ContextGetterService} {scAddress : String} {week : ℕ}
  {fees : List (EsdtTokenPayment ℕ)} {total : ℕ}

theorem getUserAccumulatedRewards_eq (abi : WeeklyRewardsSplittingAbiService) (user : String)
    (hfees : getAccumulatedFees feesCollectorAbi context scAddress week
      feesCollectorAbi.allTokens = .ok fees) :
    getUserAccumulatedRewards feesCollectorAbi abi context scAddress user week =
      .ok (accumulatedRewards fees (abi.totalEnergyForWeek scAddress week)
        (abi.currentClaimProgress scAddress user)) := by
  unfold getUserAccumulatedRewards
  rw [hfees]
  rfl

/-- The contract with other users on record. -/
def withProgress (abi : WeeklyRewardsSplittingAbiService) (progress : String → ClaimProgress) :
    WeeklyRewardsSplittingAbiService :=
  { abi with
    getCurrentClaimProgress := fun _ user =>
      { userError := false
        returnMessage := ""
        firstValue := some (progress user) } }

/-- Fees of zero are the only ones that nobody's energy can turn into
something else. -/
theorem always_bounded_iff (hne : fees ≠ []) :
    (∀ progress users, Bounded fees total progress users
        fun user => accumulatedRewards fees total (progress user)) ↔
      0 < total ∧ ∀ fee ∈ fees, fee.amount = 0 := by
  constructor
  · intro hall
    -- A user with as much energy as the total, on the other side of zero.
    have hwithin : ∀ amount : ℤ, amount < 0 → 0 < total ∧ ∀ fee ∈ fees,
        partOf total
          { energy :=
              { amount := amount
                lastUpdateEpoch := 0
                totalLockedTokens := 0 }
            week := 1 } fee < 10 ^ 20 := by
      intro amount hneg
      have heach := ((bounded_iff hne).mp (hall (fun _ =>
        { energy :=
            { amount := amount
              lastUpdateEpoch := 0
              totalLockedTokens := 0 }
          week := 1 }) [""])).1 "" (List.mem_singleton_self _)
      obtain ⟨ht, hharmless⟩ := heach ⟨one_ne_zero, hneg.ne⟩ (by dsimp only; omega)
      exact ⟨ht, hharmless hneg⟩
    have ht : 0 < total := (hwithin (-1) (by omega)).1
    refine ⟨ht, fun fee hf => ?_⟩
    have hsmall := (hwithin (-total) (by omega)).2 fee hf
    have hpercent : 10 ^ 20 ≤ percent total
        { energy :=
            { amount := -total
              lastUpdateEpoch := 0
              totalLockedTokens := 0 }
          week := 1 } := by
      rw [percent, Int.natAbs_neg, Int.natAbs_natCast, Nat.mul_div_cancel _ ht]
    by_contra hpos
    have := Nat.mul_le_mul (Nat.pos_of_ne_zero hpos) hpercent
    rw [partOf] at hsmall
    omega
  · rintro ⟨ht, hzero⟩ progress users
    have hpart : ∀ fee ∈ fees, ∀ p, partOf total p fee = 0 := by
      intro fee hf p
      rw [partOf, hzero fee hf, Nat.zero_mul]
    refine (bounded_iff hne).mpr ⟨fun user _ _ _ => ⟨ht, fun _ fee hf => ?_⟩,
      fun _ => ⟨fun _ _ _ => ht, fun tokenID => ?_⟩⟩
    · rw [hpart fee hf]
      omega
    · refine (List.sum_eq_zero fun n hn => ?_).le.trans (Nat.zero_le _)
      obtain ⟨p, hp, rfl⟩ := List.mem_map.mp hn
      exact hpart p.2 (List.mem_of_mem_filter (List.mem_product.mp hp).2) _

/-- **Rewards accumulated so far.** For given users, and for the fees of a
week whoever its users are. -/
theorem userAccumulatedRewards_bounded_iff (abi : WeeklyRewardsSplittingAbiService)
    (hfees : getAccumulatedFees feesCollectorAbi context scAddress week
      feesCollectorAbi.allTokens = .ok fees) :
    (∀ users rewards, (∀ user, getUserAccumulatedRewards feesCollectorAbi abi context scAddress
        user week = .ok (rewards user)) →
      (Bounded fees (abi.totalEnergyForWeek scAddress week) (abi.currentClaimProgress scAddress)
          users rewards ↔
        (∀ user ∈ users, Active (abi.currentClaimProgress scAddress user) →
          (abi.currentClaimProgress scAddress user).energy.amount ≤
              abi.totalEnergyForWeek scAddress week →
            0 < abi.totalEnergyForWeek scAddress week ∧
              Harmless fees (abi.totalEnergyForWeek scAddress week)
                (abi.currentClaimProgress scAddress user)) ∧
        ((users.map fun user => (abi.currentClaimProgress scAddress user).energy.amount).sum ≤
            abi.totalEnergyForWeek scAddress week →
          (∀ user ∈ users, Active (abi.currentClaimProgress scAddress user) →
            0 < abi.totalEnergyForWeek scAddress week) ∧
          ∀ tokenID, Covered fees (abi.totalEnergyForWeek scAddress week)
            (abi.currentClaimProgress scAddress) users tokenID))) ∧
    ((∀ progress users rewards, (∀ user, getUserAccumulatedRewards feesCollectorAbi
        (withProgress abi progress) context scAddress user week = .ok (rewards user)) →
      Bounded fees (abi.totalEnergyForWeek scAddress week) progress users rewards) ↔
      0 < abi.totalEnergyForWeek scAddress week ∧ ∀ fee ∈ fees, fee.amount = 0) := by
  have hne := getAccumulatedFees_ne_nil hfees
  -- all services with these fees answer alike, whatever the progress of the user
  have hrewards : ∀ (other : WeeklyRewardsSplittingAbiService)
      (rewards : String → List (EsdtTokenPayment BigNumber)),
      (∀ user, getUserAccumulatedRewards feesCollectorAbi other context scAddress user week =
        .ok (rewards user)) →
      rewards = fun user => accumulatedRewards fees (other.totalEnergyForWeek scAddress week)
        (other.currentClaimProgress scAddress user) := by
    intro other rewards h
    funext user
    have huser := h user
    rw [getUserAccumulatedRewards_eq other user hfees] at huser
    exact (Except.ok.inj huser).symm
  refine ⟨fun users rewards h => ?_, ?_⟩
  · rw [hrewards abi rewards h]
    exact bounded_iff hne
  · rw [← always_bounded_iff hne]
    constructor
    · intro hall progress users
      exact hall progress users _ fun user =>
        getUserAccumulatedRewards_eq (withProgress abi progress) user hfees
    · intro hall progress users rewards h
      rw [hrewards _ rewards h]
      exact hall progress users

/-- A thousand units of a fee, and nothing minted. -/
def oneFee : FeesCollectorAbiService :=
  { allTokens := ["USDC-c76f1f"]
    accumulatedFees := fun _ _ => 1000
    lockedTokenID := "XMEX-fda355"
    lockedTokensPerBlock := 0 }

def firstEpoch : ContextGetterService :=
  { firstWeekStartEpoch := fun _ => 1
    currentEpoch := 1
    getBlocksCountInEpoch := fun _ _ => 14400 }

/-- A total of ten units of energy, and what the users hold of it. -/
def tenUnits (energies : String → ℤ) : WeeklyRewardsSplittingAbiService :=
  { totalRewardsForWeek := fun _ _ => []
    userEnergyForWeek := fun _ _ _ => noProgress.energy
    totalEnergyForWeek := fun _ _ => 10
    getCurrentClaimProgress := fun _ user =>
      { userError := false
        returnMessage := ""
        firstValue := some
          { energy :=
              { amount := energies user
                lastUpdateEpoch := 1
                totalLockedTokens := 1 }
            week := 1 } } }

/-- Two users of three hold something. -/
def sampleEnergies (user : String) : ℤ :=
  if user = "alice" then 5 else if user = "bob" then 3 else 0

def oneFeeEntries : List (EsdtTokenPayment ℕ) :=
  [{ tokenID := "USDC-c76f1f"
     tokenType := 0
     amount := 1000
     nonce := 0 },
   { tokenID := "MintedXMEX-fda355"
     tokenType := 0
     amount := 0
     nonce := 0 }]

theorem getAccumulatedFees_oneFee :
    getAccumulatedFees oneFee firstEpoch "fees" 1 oneFee.allTokens = .ok oneFeeEntries := by
  decide

/-- Five and three of ten units, and none. -/
theorem accumulated_within_fees :
    Bounded oneFeeEntries 10 ((tenUnits sampleEnergies).currentClaimProgress "fees")
      ["alice", "bob", "carol"] fun user =>
        accumulatedRewards oneFeeEntries 10
          ((tenUnits sampleEnergies).currentClaimProgress "fees" user) := by
  refine ((userAccumulatedRewards_bounded_iff (tenUnits sampleEnergies)
    getAccumulatedFees_oneFee).1 ["alice", "bob", "carol"] _ fun user =>
      getUserAccumulatedRewards_eq (tenUnits sampleEnergies) user getAccumulatedFees_oneFee).mpr ?_
  have hnonneg : ∀ user, ¬((tenUnits sampleEnergies).currentClaimProgress "fees"
      user).energy.amount < 0 := by
    intro user
    show ¬(if user = "alice" then (5 : ℤ) else if user = "bob" then 3 else 0) < 0
    split_ifs <;> omega
  refine ⟨fun user _ _ _ => ⟨by decide, fun hneg => absurd hneg (hnonneg user)⟩, fun _ => ?_⟩
  exact ⟨fun _ _ _ => by decide, covered_of_sum_le (by decide)⟩

/-- Five units below zero are paid half of the fees below zero. -/
theorem negative_rewards :
    getUserAccumulatedRewards oneFee (tenUnits fun _ => -5) firstEpoch "fees" "alice" 1 =
        .ok (accumulatedRewards oneFeeEntries 10
          ((tenUnits fun _ => -5).currentClaimProgress "fees" "alice")) ∧
      ¬Bounded oneFeeEntries 10 ((tenUnits fun _ => -5).currentClaimProgress "fees") ["alice"]
        fun user => accumulatedRewards oneFeeEntries 10
          ((tenUnits fun _ => -5).currentClaimProgress "fees" user) := by
  refine ⟨getUserAccumulatedRewards_eq (tenUnits fun _ => -5) "alice" getAccumulatedFees_oneFee,
    fun h => ?_⟩
  obtain ⟨n, hn, -⟩ := h.each "alice" (List.mem_singleton_self _) (by decide) "USDC-c76f1f"
  have hsum : sumAmounts (ofToken "USDC-c76f1f" (accumulatedRewards oneFeeEntries 10
      ((tenUnits fun _ => -5).currentClaimProgress "fees" "alice"))) = .fin (-500) := by
    decide +kernel
  have hq : (-500 : ℚ) = n := BigNumber.fin.inj (hsum.symm.trans hn)
  have hpos : (0 : ℚ) ≤ n := Nat.cast_nonneg n
  linarith

end Service

end MxExchange.FeesCollector
