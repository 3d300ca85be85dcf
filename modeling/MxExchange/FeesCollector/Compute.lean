import MxExchange.Num.Shares
import MxExchange.WeeklyRewards.Payments

/-!
# `fees-collector.compute.service.ts`: the fees of a week among its users

Each token of a week is split in proportion to energy. A user's part is a
quotient with twenty decimals, suppressed if nothing is left of it there and
otherwise paid in whole units, without its decimals.

So nobody is paid more than a share, and the shares never add up to more than
the fees. But a part of less than one unit that is not lost at the last decimal
is paid as well, as nothing: the guard looks at the quotient before its decimals
are cut off. `conserves_iff` says for which users this does not happen.
`always_conserves_iff` says it for a week: every amount has to reach the total
energy, if anybody might hold the energy.
-/

namespace MxExchange.FeesCollector

open MxExchange.Num WeeklyRewards
open Energy (EnergyType)

/-- The body of the loop: the user's part of one token, if there is any. -/
def paymentOf (userEnergy : ℤ) (totalEnergyForWeek : ℕ) (weeklyRewards : EsdtTokenPayment ℕ) :
    Option (EsdtTokenPayment BigNumber) :=
  let paymentAmount :=
    ((BigNumber.ofNat weeklyRewards.amount).multipliedBy (.fin userEnergy)).dividedBy
      (.ofNat totalEnergyForWeek)
  if paymentAmount.isGreaterThan (.ofNat 0) then
    some
      { tokenID := weeklyRewards.tokenID
        nonce := 0
        amount := paymentAmount.integerValue
        tokenType := weeklyRewards.tokenType }
  else none

/-- What a user is paid of a week's fees. -/
def computeUserRewardsForWeek (abi : WeeklyRewardsSplittingAbiService)
    (scAddress userAddress : String) (week : ℕ) : List (EsdtTokenPayment BigNumber) :=
  let totalRewardsForWeek := abi.totalRewardsForWeek scAddress week
  let userEnergyForWeek := abi.userEnergyForWeek scAddress userAddress week
  let totalEnergyForWeek := abi.totalEnergyForWeek scAddress week
  if totalRewardsForWeek.length = 0 then []
  else if ¬(BigNumber.fin userEnergyForWeek.amount).isGreaterThan (.ofNat 0) then []
  else totalRewardsForWeek.filterMap (paymentOf userEnergyForWeek.amount totalEnergyForWeek)

/-! ## One user's part -/

section Payments

variable {energy total : ℕ} {reward : EsdtTokenPayment ℕ}

/-- The quotient is positive if it is not lost at the last decimal, and in
whole units it is a share. -/
theorem paymentOf_eq (ht : 0 < total) :
    paymentOf energy total reward =
      if total ≤ 10 ^ 20 * (reward.amount * energy) then
        some
          { tokenID := reward.tokenID
            nonce := 0
            amount := .ofNat (reward.amount * energy / total)
            tokenType := reward.tokenType }
      else none := by
  have hamount : ((BigNumber.ofNat reward.amount).multipliedBy
      (.fin ((energy : ℤ) : ℚ))).dividedBy (.ofNat total) =
        .fin (truncatePlaces 20 ((reward.amount * energy : ℕ) / total : ℚ)) := by
    have hne : (total : ℚ) ≠ 0 := by exact_mod_cast ht.ne'
    rw [BigNumber.ofNat, BigNumber.ofNat, BigNumber.multipliedBy_fin,
      BigNumber.dividedBy_fin _ hne]
    push_cast
    rfl
  have hpos : (BigNumber.fin (truncatePlaces 20
      ((reward.amount * energy : ℕ) / total : ℚ))).isGreaterThan (.ofNat 0) = true ↔
        total ≤ 10 ^ 20 * (reward.amount * energy) := by
    rw [BigNumber.ofNat, Nat.cast_zero, BigNumber.isGreaterThan_fin, decide_eq_true_eq,
      truncatePlaces_div_pos_iff ht]
  unfold paymentOf
  dsimp only
  rw [hamount, BigNumber.integerValue_fin, truncate_truncatePlaces_div]
  simp only [hpos, Int.cast_natCast]
  rfl

/-- A payment is the part, in whole units. -/
theorem pays_paymentOf (ht : 0 < total) :
    Pays (paymentOf energy total) (fun reward => reward.amount * energy / total) reward := by
  refine { paid := ?_, unpaid := ?_ }
  · intro payment hpayment
    rw [paymentOf_eq ht] at hpayment
    split at hpayment
    next =>
      cases hpayment
      exact ⟨rfl, rfl⟩
    next => cases hpayment
  · intro hnone
    rw [paymentOf_eq ht] at hnone
    split at hnone
    next => cases hnone
    next hlost =>
      -- what is lost at the twentieth decimal is less than a unit
      show reward.amount * energy / total = 0
      exact Nat.div_eq_of_lt (by omega)

/-- A payment is made of what is not lost, and is positive if that is a whole
unit. -/
theorem paymentOf_pos_iff (ht : 0 < total) :
    (∀ payment ∈ paymentOf energy total reward, payment.amount.isGreaterThan (.ofNat 0) = true) ↔
      (total ≤ 10 ^ 20 * (reward.amount * energy) → total ≤ reward.amount * energy) := by
  rw [paymentOf_eq ht]
  split
  next hpaid =>
    have hpos : (BigNumber.ofNat (reward.amount * energy / total)).isGreaterThan (.ofNat 0) = true ↔
        total ≤ reward.amount * energy := by
      rw [BigNumber.isGreaterThan_zero_iff]
      exact share_pos_iff ht
    simp only [Option.mem_def, Option.some.injEq, forall_eq', hpos, hpaid, forall_const]
  next hlost =>
    refine iff_of_true (fun payment hpayment => ?_) (fun hpaid => absurd hpaid hlost)
    cases hpayment

end Payments

/-! ## All users of a week -/

section Week

variable {abi : WeeklyRewardsSplittingAbiService} {scAddress : String} {week : ℕ}
  {users : List String} {user : String}

/-- What a user has a claim to, in units of one over the total energy. -/
def claimOf (abi : WeeklyRewardsSplittingAbiService) (scAddress : String) (week : ℕ)
    (user : String) (reward : EsdtTokenPayment ℕ) : ℕ :=
  reward.amount * energyOf abi scAddress week user

/-- Users who hold no more than the total energy together. -/
structure Holders (abi : WeeklyRewardsSplittingAbiService) (scAddress : String) (week : ℕ)
    (users : List String) : Prop where
  nodup : users.Nodup
  nonneg : ∀ user ∈ users, 0 ≤ (abi.userEnergyForWeek scAddress user week).amount
  sum_le : (users.map (energyOf abi scAddress week)).sum ≤ abi.totalEnergyForWeek scAddress week

/-- What is asked of the payments: of no token more than there is, and
nothing that is not positive. -/
structure Conserves (abi : WeeklyRewardsSplittingAbiService) (scAddress : String) (week : ℕ)
    (users : List String) : Prop where
  total : ∀ tokenID,
    (sumAmounts (ofToken tokenID
      (users.flatMap fun user => computeUserRewardsForWeek abi scAddress user week))
        ).isLessThanOrEqualTo (.ofNat (totalOf tokenID (abi.totalRewardsForWeek scAddress week)))
          = true
  positive : ∀ user ∈ users, ∀ payment ∈ computeUserRewardsForWeek abi scAddress user week,
    payment.amount.isGreaterThan (.ofNat 0) = true

/-- A claim that is not lost at the last decimal is one to a whole unit. -/
def WholeClaims (abi : WeeklyRewardsSplittingAbiService) (scAddress : String) (week : ℕ)
    (user : String) : Prop :=
  ∀ reward ∈ abi.totalRewardsForWeek scAddress week,
    abi.totalEnergyForWeek scAddress week ≤ 10 ^ 20 * claimOf abi scAddress week user reward →
      abi.totalEnergyForWeek scAddress week ≤ claimOf abi scAddress week user reward

/-- A user without energy is paid nothing; everyone else is paid reward by reward. -/
theorem computeUserRewardsForWeek_eq
    (he : 0 ≤ (abi.userEnergyForWeek scAddress user week).amount) :
    computeUserRewardsForWeek abi scAddress user week =
      if energyOf abi scAddress week user = 0 then []
      else (abi.totalRewardsForWeek scAddress week).filterMap
        (paymentOf (energyOf abi scAddress week user) (abi.totalEnergyForWeek scAddress week)) := by
  have hamount : ((energyOf abi scAddress week user : ℕ) : ℤ) =
      (abi.userEnergyForWeek scAddress user week).amount :=
    Int.toNat_of_nonneg he
  unfold computeUserRewardsForWeek
  dsimp only
  rw [← hamount]
  have hguard : (BigNumber.fin ((energyOf abi scAddress week user : ℤ) : ℚ)).isGreaterThan
      (.ofNat 0) = true ↔ energyOf abi scAddress week user ≠ 0 := by
    rw [BigNumber.ofNat, Nat.cast_zero, BigNumber.isGreaterThan_fin, decide_eq_true_eq,
      Int.cast_natCast, Nat.cast_pos, Nat.pos_iff_ne_zero]
  by_cases hnone : abi.totalRewardsForWeek scAddress week = []
  · simp [hnone]
  · rw [if_neg (by simpa using hnone)]
    simp only [hguard, ne_eq, not_not]

theorem sumAmounts_computeUserRewardsForWeek (tokenID : String)
    (ht : 0 < abi.totalEnergyForWeek scAddress week)
    (he : 0 ≤ (abi.userEnergyForWeek scAddress user week).amount) :
    sumAmounts (ofToken tokenID (computeUserRewardsForWeek abi scAddress user week)) =
      .ofNat ((ofToken tokenID (abi.totalRewardsForWeek scAddress week)).map fun reward =>
        claimOf abi scAddress week user reward / abi.totalEnergyForWeek scAddress week).sum := by
  rw [computeUserRewardsForWeek_eq he]
  unfold claimOf
  split
  next hzero =>
    rw [hzero]
    simp [ofToken, sumAmounts]
  next => exact sumAmounts_filterMap fun _ _ => pays_paymentOf ht

theorem positive_iff (ht : 0 < abi.totalEnergyForWeek scAddress week)
    (he : 0 ≤ (abi.userEnergyForWeek scAddress user week).amount) :
    (∀ payment ∈ computeUserRewardsForWeek abi scAddress user week,
        payment.amount.isGreaterThan (.ofNat 0) = true) ↔
      WholeClaims abi scAddress week user := by
  rw [computeUserRewardsForWeek_eq he]
  unfold WholeClaims claimOf
  split
  next hzero =>
    refine iff_of_true (fun payment hpayment => ?_) (fun reward _ hpaid => ?_)
    · cases hpayment
    · rw [hzero, Nat.mul_zero, Nat.mul_zero] at hpaid
      omega
  next =>
    simp only [List.mem_filterMap]
    constructor
    · intro h reward hreward
      rw [← paymentOf_pos_iff ht]
      exact fun payment hpayment => h payment ⟨reward, hreward, hpayment⟩
    · intro h payment hmem
      obtain ⟨reward, hreward, hpayment⟩ := hmem
      exact (paymentOf_pos_iff ht).mpr (h reward hreward) payment hpayment

/-- Without any energy there is no claim. -/
theorem energyOf_eq_zero (h : Holders abi scAddress week users)
    (ht : abi.totalEnergyForWeek scAddress week = 0) (hu : user ∈ users) :
    energyOf abi scAddress week user = 0 := by
  have hsum := h.sum_le
  have hle := List.le_sum_of_mem (List.mem_map_of_mem (f := energyOf abi scAddress week) hu)
  omega

theorem conserves_of_no_energy (h : Holders abi scAddress week users)
    (ht : abi.totalEnergyForWeek scAddress week = 0) : Conserves abi scAddress week users := by
  have hnone : ∀ user ∈ users, computeUserRewardsForWeek abi scAddress user week = [] := by
    intro user hu
    rw [computeUserRewardsForWeek_eq (h.nonneg user hu), if_pos (energyOf_eq_zero h ht hu)]
  refine { total := fun tokenID => ?_, positive := fun user hu payment hp => ?_ }
  · rw [List.flatMap_eq_nil_iff.mpr hnone]
    exact BigNumber.zero_isLessThanOrEqualTo _
  · rw [hnone user hu] at hp
    cases hp

/-- Of no token more is paid than there is, whatever the claims. -/
theorem sumAmounts_users_le_total (h : Holders abi scAddress week users)
    (ht : 0 < abi.totalEnergyForWeek scAddress week) (tokenID : String) :
    (sumAmounts (ofToken tokenID
      (users.flatMap fun user => computeUserRewardsForWeek abi scAddress user week))
        ).isLessThanOrEqualTo (.ofNat (totalOf tokenID (abi.totalRewardsForWeek scAddress week)))
          = true := by
  apply sumAmounts_users_le
  · intro user hu
    exact sumAmounts_computeUserRewardsForWeek tokenID ht (h.nonneg user hu)
  · intro reward _
    exact sum_shares_le reward.amount _ h.sum_le

/-- **Given users.** Their payments conserve the fees exactly if every claim
that is not lost at the last decimal is one to a whole unit. -/
theorem conserves_iff (h : Holders abi scAddress week users) :
    Conserves abi scAddress week users ↔ ∀ user ∈ users, WholeClaims abi scAddress week user := by
  rcases Nat.eq_zero_or_pos (abi.totalEnergyForWeek scAddress week) with ht | ht
  · refine iff_of_true (conserves_of_no_energy h ht) fun user hu reward _ _ => ?_
    rw [ht]
    exact Nat.zero_le _
  · constructor
    · intro hconserves user hu
      exact (positive_iff ht (h.nonneg user hu)).mp (hconserves.positive user hu)
    · intro hwhole
      exact
        { total := sumAmounts_users_le_total h ht
          positive := fun user hu =>
            (positive_iff ht (h.nonneg user hu)).mpr (hwhole user hu) }

end Week

/-! ## Whoever holds the energy -/

section Always

variable {abi : WeeklyRewardsSplittingAbiService} {scAddress : String} {week : ℕ}

/-- The week's fees and total energy, held by other users. -/
def withEnergies (abi : WeeklyRewardsSplittingAbiService)
    (userEnergyForWeek : String → String → ℕ → EnergyType) : WeeklyRewardsSplittingAbiService :=
  { abi with userEnergyForWeek := userEnergyForWeek }

/-- Amounts that nobody's energy makes too small: none, or one that reaches
the total energy. -/
def EvenlySplit (abi : WeeklyRewardsSplittingAbiService) (scAddress : String) (week : ℕ) : Prop :=
  ∀ reward ∈ abi.totalRewardsForWeek scAddress week,
    reward.amount = 0 ∨ abi.totalEnergyForWeek scAddress week ≤ reward.amount

/-- Even parts leave nothing over. -/
theorem wholeClaims_of_evenlySplit (ht : 0 < abi.totalEnergyForWeek scAddress week)
    (h : EvenlySplit abi scAddress week) (user : String) :
    WholeClaims abi scAddress week user := by
  intro reward hreward hpaid
  have hclaim : 0 < claimOf abi scAddress week user reward := by
    rcases Nat.eq_zero_or_pos (claimOf abi scAddress week user reward) with hzero | hpos
    · rw [hzero, Nat.mul_zero] at hpaid
      omega
    · exact hpos
  unfold claimOf at hclaim ⊢
  have hamount : reward.amount ≠ 0 := (Nat.pos_of_mul_pos_right hclaim).ne'
  have hreach := (h reward hreward).resolve_left hamount
  exact (share_pos_iff ht).mp
    (share_pos_of_le ht hreach (Nat.pos_of_mul_pos_left hclaim))

/-- One user who holds so much. -/
def energyOfAll (amount : ℕ) (_scAddress _user : String) (_week : ℕ) : EnergyType :=
  { amount := amount
    lastUpdateEpoch := 0
    totalLockedTokens := 0 }

theorem holders_energyOfAll {amount : ℕ} (user : String)
    (hle : amount ≤ abi.totalEnergyForWeek scAddress week) :
    Holders (withEnergies abi (energyOfAll amount)) scAddress week [user] :=
  { nodup := List.nodup_singleton user
    nonneg := fun _ _ => Int.natCast_nonneg _
    sum_le := by
      rw [List.map_singleton, List.sum_singleton]
      exact hle }

/-- Of an amount that falls short of the total energy somebody can hold a part
that is paid as nothing. -/
theorem evenlySplit_of_conserves
    (h : ∀ energies users, Holders (withEnergies abi energies) scAddress week users →
      Conserves (withEnergies abi energies) scAddress week users) :
    EvenlySplit abi scAddress week := by
  intro reward hreward
  by_contra hshort
  obtain ⟨hne, hlt⟩ := not_or.mp hshort
  obtain ⟨amount, -, hle, hpaid, hlost⟩ :=
    exists_lost_share (show 0 < 20 by omega) (Nat.pos_of_ne_zero hne) (not_le.mp hlt)
  have hholders : Holders (withEnergies abi (energyOfAll amount)) scAddress week [""] :=
    holders_energyOfAll "" hle
  have hwhole := (conserves_iff hholders).mp (h _ _ hholders) "" (List.mem_singleton_self _)
  have hclaim := hwhole reward hreward hpaid
  exact absurd hlost (not_lt.mpr hclaim)

/-- **The fees of a week.** They are conserved whoever holds the energy exactly
if every amount reaches the total energy or is none. -/
theorem always_conserves_iff :
    (∀ energies users, Holders (withEnergies abi energies) scAddress week users →
        Conserves (withEnergies abi energies) scAddress week users) ↔
      EvenlySplit abi scAddress week := by
  constructor
  · intro hall
    exact evenlySplit_of_conserves hall
  · intro h energies users hholders
    rcases Nat.eq_zero_or_pos (abi.totalEnergyForWeek scAddress week) with ht | ht
    · exact conserves_of_no_energy hholders ht
    · refine (conserves_iff hholders).mpr fun user _ => ?_
      have hsplit : EvenlySplit (withEnergies abi energies) scAddress week := h
      exact wholeClaims_of_evenlySplit (show 0 < (withEnergies abi energies).totalEnergyForWeek
        scAddress week from ht) hsplit user

/-- **Fees collector conservation.** For given users, and for a week whoever
its users are. -/
theorem fees_conserved_iff (abi : WeeklyRewardsSplittingAbiService) (scAddress : String)
    (week : ℕ) :
    (∀ users, Holders abi scAddress week users →
      (Conserves abi scAddress week users ↔
        ∀ user ∈ users, WholeClaims abi scAddress week user)) ∧
    ((∀ energies users, Holders (withEnergies abi energies) scAddress week users →
        Conserves (withEnergies abi energies) scAddress week users) ↔
      EvenlySplit abi scAddress week) :=
  ⟨fun _ h => conserves_iff h, always_conserves_iff⟩

/-- Two fees to be split between three units of energy. -/
def threeUnits (mexFee wegldFee : ℕ) : WeeklyRewardsSplittingAbiService :=
  { totalRewardsForWeek := fun _ _ =>
      [{ tokenType := 1
         tokenID := "MEX-455c57"
         nonce := 0
         amount := mexFee },
       { tokenType := 1
         tokenID := "WEGLD-bd4d79"
         nonce := 0
         amount := wegldFee }]
    userEnergyForWeek := fun _ user _ =>
      { amount := if user = "erd1alice" then 1 else 2
        lastUpdateEpoch := 0
        totalLockedTokens := 0 }
    totalEnergyForWeek := fun _ _ => 3
    getCurrentClaimProgress := fun _ _ =>
      { userError := false
        returnMessage := ""
        firstValue := none } }

theorem holders_threeUnits (mexFee wegldFee : ℕ) :
    Holders (threeUnits mexFee wegldFee) "fees" 1 ["erd1alice", "erd1bob"] :=
  { nodup := by decide
    nonneg := by
      show ∀ user ∈ ["erd1alice", "erd1bob"], 0 ≤ (if user = "erd1alice" then (1 : ℤ) else 2)
      intro user _
      split <;> omega
    sum_le := by
      show (if "erd1alice" = "erd1alice" then (1 : ℤ) else 2).toNat +
        ((if "erd1bob" = "erd1alice" then (1 : ℤ) else 2).toNat + 0) ≤ 3
      decide }

/-- Fees of at least three units pay both users. -/
theorem fees_conserved_threeUnits :
    Conserves (threeUnits 10 4) "fees" 1 ["erd1alice", "erd1bob"] :=
  (fees_conserved_iff (threeUnits 10 4) "fees" 1).2.mpr
    (by simp [threeUnits, EvenlySplit]) (threeUnits 10 4).userEnergyForWeek _
    (holders_threeUnits 10 4)

/-- Of a fee of one unit they are paid a third and two thirds: nothing, twice. -/
theorem fee_paid_as_nothing :
    Holders (threeUnits 10 1) "fees" 1 ["erd1alice", "erd1bob"] ∧
      ¬Conserves (threeUnits 10 1) "fees" 1 ["erd1alice", "erd1bob"] := by
  refine ⟨holders_threeUnits 10 1, fun h => ?_⟩
  have hpositive := h.positive "erd1alice" (List.mem_cons_self ..)
    { tokenID := "WEGLD-bd4d79"
      nonce := 0
      amount := .ofNat 0
      tokenType := 1 }
  exact absurd (hpositive (by decide +kernel)) (by decide)

end Always

end MxExchange.FeesCollector
