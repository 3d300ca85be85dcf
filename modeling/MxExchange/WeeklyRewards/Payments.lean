import MxExchange.Energy.EnergyCompute
import MxExchange.Num.BigNumber
import MxExchange.Num.Shares
import Mathlib.Data.List.ProdSigma

/-!
# Weekly rewards

What a contract holds of a week, and payments out of it. A week has a list
of token payments to be split, a total energy, and an energy for each user.
Amounts that come from the contract are whole numbers; amounts that are
computed are values of the decimal library.

Each user's payments are computed without regard to anyone else's, one for
each payment of the week at most. `sumAmounts_users` adds them up.
-/

namespace MxExchange.WeeklyRewards

open MxExchange.Num
open Energy (EnergyType)

/-- `EsdtTokenPayment`; amounts come as numbers of the contract and as
`BigNumber`. -/
structure EsdtTokenPayment (Amount : Type) where
  tokenType : ℕ
  tokenID : String
  nonce : ℕ
  amount : Amount
  deriving DecidableEq

/-- The energy a user last claimed with, and the week. -/
structure ClaimProgress where
  energy : EnergyType
  week : ℕ
  deriving DecidableEq

/-- What the contract answers to `getCurrentClaimProgress`. -/
structure QueryResponse where
  userError : Bool
  returnMessage : String
  firstValue : Option ClaimProgress

/-- `VmQueryError.INPUT_TOO_SHORT`. -/
def INPUT_TOO_SHORT : String := "storage decode error: input too short"

/-- No energy, in week zero. -/
def noProgress : ClaimProgress :=
  { energy :=
      { amount := 0
        lastUpdateEpoch := 0
        totalLockedTokens := 0 }
    week := 0 }

/-- A user who has never claimed has no entry, which the contract reports as an
error. -/
def currentClaimProgressRaw (response : QueryResponse) : ClaimProgress :=
  if response.userError ∧ response.returnMessage = INPUT_TOO_SHORT then noProgress
  else response.firstValue.getD noProgress

/-- The contract's views, by contract, user and week. -/
structure WeeklyRewardsSplittingAbiService where
  totalRewardsForWeek : String → ℕ → List (EsdtTokenPayment ℕ)
  userEnergyForWeek : String → String → ℕ → EnergyType
  totalEnergyForWeek : String → ℕ → ℕ
  getCurrentClaimProgress : String → String → QueryResponse

def WeeklyRewardsSplittingAbiService.currentClaimProgress
    (abi : WeeklyRewardsSplittingAbiService) (scAddress user : String) : ClaimProgress :=
  currentClaimProgressRaw (abi.getCurrentClaimProgress scAddress user)

/-- A user's energy of a week, where it is not negative. -/
def energyOf (abi : WeeklyRewardsSplittingAbiService) (scAddress : String) (week : ℕ)
    (user : String) : ℕ :=
  (abi.userEnergyForWeek scAddress user week).amount.toNat

/-! ## Blocks of a week -/

/-- The epochs, and the blocks of each by shard. -/
structure ContextGetterService where
  firstWeekStartEpoch : String → ℕ
  currentEpoch : ℕ
  getBlocksCountInEpoch : ℕ → ℕ → ℕ

/-- Seven. -/
def EPOCHS_IN_WEEK : ℕ := 7

/-- The first epoch of a week. -/
def computeStartEpochForWeek (context : ContextGetterService) (scAddress : String) (week : ℕ) :
    Except String ℕ :=
  if week ≤ 0 then .error "invalid week"
  else .ok (context.firstWeekStartEpoch scAddress + (week - 1) * EPOCHS_IN_WEEK)

/-- The blocks of shard 1 from the start of the week until now. -/
def computeBlocksInWeek (context : ContextGetterService) (scAddress : String) (week : ℕ) :
    Except String ℕ := do
  let startEpochForCurrentWeek ← computeStartEpochForWeek context scAddress week
  let epochs := List.range' startEpochForCurrentWeek
    (context.currentEpoch + 1 - startEpochForCurrentWeek)
  match epochs.map fun epoch => context.getBlocksCountInEpoch epoch 1 with
  | [] => .error "Reduce of empty array with no initial value"
  | first :: rest => .ok (rest.foldl (· + ·) first)

/-! ## Distribution -/

/-- `TokenDistributionModel`. -/
structure TokenDistributionModel where
  tokenId : String
  percentage : BigNumber
  deriving DecidableEq

/-- The part of each payment in the value of all, in percent. -/
def computeDistribution (computeTokenPriceDerivedUSD : String → BigNumber)
    (payments : List (EsdtTokenPayment BigNumber)) : List TokenDistributionModel :=
  let tokenDistributions := payments.map fun token =>
    (token.tokenID, (computeTokenPriceDerivedUSD token.tokenID).multipliedBy token.amount)
  let totalPriceUSD :=
    tokenDistributions.foldl (fun total token => total.plus token.2) (BigNumber.ofNat 0)
  tokenDistributions.map fun token =>
    { tokenId := token.1
      percentage := ((token.2.dividedBy totalPriceUSD).multipliedBy (.ofNat 100)).toFixed 4 }

/-! ## Sums -/

/-- The payments of a token. -/
def ofToken {Amount : Type} (tokenID : String) (payments : List (EsdtTokenPayment Amount)) :
    List (EsdtTokenPayment Amount) :=
  payments.filter fun payment => payment.tokenID = tokenID

/-- What there is of a token. -/
def totalOf (tokenID : String) (rewards : List (EsdtTokenPayment ℕ)) : ℕ :=
  ((ofToken tokenID rewards).map (·.amount)).sum

/-- `BigNumber.sum` of the amounts. -/
def sumAmounts (payments : List (EsdtTokenPayment BigNumber)) : BigNumber :=
  (payments.map (·.amount)).foldr BigNumber.plus (.ofNat 0)

section Sums

variable {User : Type} {tokenID : String} {rewards : List (EsdtTokenPayment ℕ)}

theorem sumAmounts_cons (payment : EsdtTokenPayment BigNumber)
    (payments : List (EsdtTokenPayment BigNumber)) :
    sumAmounts (payment :: payments) = payment.amount.plus (sumAmounts payments) :=
  rfl

theorem sumAmounts_append (payments others : List (EsdtTokenPayment BigNumber)) :
    sumAmounts (payments ++ others) = (sumAmounts payments).plus (sumAmounts others) := by
  induction payments with
  | nil => exact (BigNumber.zero_plus _).symm
  | cons payment payments ih =>
    rw [List.cons_append, sumAmounts_cons, sumAmounts_cons, ih, BigNumber.plus_assoc]

/-- A reward is paid out as `a`, or not at all where `a` is zero. -/
structure Pays (pay : EsdtTokenPayment ℕ → Option (EsdtTokenPayment BigNumber))
    (a : EsdtTokenPayment ℕ → ℕ) (reward : EsdtTokenPayment ℕ) : Prop where
  paid : ∀ payment, pay reward = some payment →
    payment.tokenID = reward.tokenID ∧ payment.amount = .ofNat (a reward)
  unpaid : pay reward = none → a reward = 0

/-- What is paid of a token is the sum of its parts. -/
theorem sumAmounts_filterMap {pay : EsdtTokenPayment ℕ → Option (EsdtTokenPayment BigNumber)}
    {a : EsdtTokenPayment ℕ → ℕ} (h : ∀ reward ∈ rewards, Pays pay a reward) :
    sumAmounts (ofToken tokenID (rewards.filterMap pay)) =
      .ofNat ((ofToken tokenID rewards).map a).sum := by
  induction rewards with
  | nil => rfl
  | cons reward rewards ih =>
    have hrest := ih fun r hr => h r (List.mem_cons_of_mem _ hr)
    have hpays := h reward (List.mem_cons_self ..)
    unfold ofToken at hrest ⊢
    cases hpay : pay reward with
    | none =>
      rw [List.filterMap_cons_none hpay, hrest]
      by_cases htoken : reward.tokenID = tokenID
      · rw [List.filter_cons_of_pos (by simpa using htoken), List.map_cons, List.sum_cons,
          hpays.unpaid hpay, Nat.zero_add]
      · rw [List.filter_cons_of_neg (by simpa using htoken)]
    | some payment =>
      obtain ⟨hid, hamount⟩ := hpays.paid payment hpay
      rw [List.filterMap_cons_some hpay]
      by_cases htoken : reward.tokenID = tokenID
      · rw [List.filter_cons_of_pos (by simpa [hid] using htoken),
          List.filter_cons_of_pos (by simpa using htoken), sumAmounts_cons, hrest, hamount,
          BigNumber.plus_ofNat, List.map_cons, List.sum_cons]
      · rw [List.filter_cons_of_neg (by simpa [hid] using htoken),
          List.filter_cons_of_neg (by simpa using htoken), hrest]

/-- What all users are paid of a token, by user and reward. -/
theorem sumAmounts_users {users : List User}
    {payments : User → List (EsdtTokenPayment BigNumber)} {a : User → EsdtTokenPayment ℕ → ℕ}
    (h : ∀ user ∈ users, sumAmounts (ofToken tokenID (payments user)) =
      .ofNat ((ofToken tokenID rewards).map (a user)).sum) :
    sumAmounts (ofToken tokenID (users.flatMap payments)) =
      .ofNat ((users.product (ofToken tokenID rewards)).map fun p => a p.1 p.2).sum := by
  induction users with
  | nil => rfl
  | cons user users ih =>
    have hrest := ih fun u hu => h u (List.mem_cons_of_mem _ hu)
    have hproduct : (user :: users).product (ofToken tokenID rewards) =
        (ofToken tokenID rewards).map (Prod.mk user) ++ users.product (ofToken tokenID rewards) :=
      List.product_cons _ _ _
    unfold ofToken at hrest h hproduct ⊢
    rw [List.flatMap_cons, List.filter_append, sumAmounts_append, hrest,
      h user (List.mem_cons_self ..), BigNumber.plus_ofNat, hproduct, List.map_append,
      List.sum_append, List.map_map]
    rfl

/-- Payments that are a multiple of the rewards' parts add up to it. -/
theorem sumAmounts_map {pay : EsdtTokenPayment ℕ → EsdtTokenPayment BigNumber}
    {a : EsdtTokenPayment ℕ → ℕ} {c : ℤ} (hid : ∀ reward, (pay reward).tokenID = reward.tokenID)
    (hamount : ∀ reward, (pay reward).amount = .fin ((c * a reward : ℤ) : ℚ)) :
    sumAmounts (ofToken tokenID (rewards.map pay)) =
      .fin ((c * ((ofToken tokenID rewards).map a).sum : ℤ) : ℚ) := by
  induction rewards with
  | nil =>
    show BigNumber.ofNat 0 = .fin ((c * (0 : ℕ) : ℤ) : ℚ)
    rw [Nat.cast_zero, mul_zero]
    rfl
  | cons reward rewards ih =>
    unfold ofToken at ih ⊢
    rw [List.map_cons]
    by_cases htoken : reward.tokenID = tokenID
    · rw [List.filter_cons_of_pos (by simpa [hid] using htoken),
        List.filter_cons_of_pos (by simpa using htoken), sumAmounts_cons, ih, hamount,
        BigNumber.plus_fin, List.map_cons, List.sum_cons]
      push_cast
      rw [mul_add]
    · rw [List.filter_cons_of_neg (by simpa [hid] using htoken),
        List.filter_cons_of_neg (by simpa using htoken), ih]

/-- One amount that is not finite spoils the sum. -/
theorem lost_sumAmounts {payments : List (EsdtTokenPayment BigNumber)} {s : ℤ}
    (h : ∀ payment ∈ payments, BigNumber.Lost s payment.amount) (hne : payments ≠ []) :
    BigNumber.Lost s (sumAmounts payments) := by
  induction payments with
  | nil => exact absurd rfl hne
  | cons payment payments ih =>
    have hfirst := h payment (List.mem_cons_self ..)
    rw [sumAmounts_cons]
    by_cases hrest : payments = []
    · rw [hrest]
      exact hfirst.plus_fin _
    · exact hfirst.plus (ih (fun p hp => h p (List.mem_cons_of_mem _ hp)) hrest)

/-- Users who are paid nothing can be left out. -/
theorem sumAmounts_flatMap_filter {users : List User} {p : User → Bool}
    {payments : User → List (EsdtTokenPayment BigNumber)}
    (h : ∀ user ∈ users, p user = false →
      sumAmounts (ofToken tokenID (payments user)) = .ofNat 0) :
    sumAmounts (ofToken tokenID (users.flatMap payments)) =
      sumAmounts (ofToken tokenID ((users.filter p).flatMap payments)) := by
  induction users with
  | nil => rfl
  | cons user users ih =>
    have hrest := ih fun u hu => h u (List.mem_cons_of_mem _ hu)
    have huser := h user (List.mem_cons_self ..)
    unfold ofToken at hrest huser ⊢
    cases hp : p user with
    | true =>
      rw [List.filter_cons_of_pos hp, List.flatMap_cons, List.flatMap_cons, List.filter_append,
        List.filter_append, sumAmounts_append, sumAmounts_append, hrest]
    | false =>
      rw [List.filter_cons_of_neg (by rw [hp]; decide), List.flatMap_cons, List.filter_append,
        sumAmounts_append, huser hp, BigNumber.zero_plus, hrest]

/-! ## Sums that fit -/

/-- The parts added up reward by reward. -/
theorem sum_product {users : List User} (f : User → EsdtTokenPayment ℕ → ℕ) :
    ((users.product rewards).map fun p => f p.1 p.2).sum =
      (rewards.map fun reward => (users.map fun user => f user reward).sum).sum := by
  induction users with
  | nil =>
    refine Eq.symm (List.sum_eq_zero fun x hx => ?_)
    obtain ⟨reward, -, rfl⟩ := List.mem_map.mp hx
    rfl
  | cons user users ih =>
    have hproduct : (user :: users).product rewards =
        rewards.map (Prod.mk user) ++ users.product rewards :=
      List.product_cons _ _ _
    rw [hproduct, List.map_append, List.sum_append, ih, List.map_map, ← List.sum_map_add]
    rfl

/-- Parts that stay within each reward stay within the token's total. -/
theorem sumAmounts_users_le {users : List User}
    {payments : User → List (EsdtTokenPayment BigNumber)} {a : User → EsdtTokenPayment ℕ → ℕ}
    (h : ∀ user ∈ users, sumAmounts (ofToken tokenID (payments user)) =
      .ofNat ((ofToken tokenID rewards).map (a user)).sum)
    (hle : ∀ reward ∈ rewards, (users.map fun user => a user reward).sum ≤ reward.amount) :
    (sumAmounts (ofToken tokenID (users.flatMap payments))).isLessThanOrEqualTo
      (.ofNat (totalOf tokenID rewards)) = true := by
  rw [sumAmounts_users h, BigNumber.isLessThanOrEqualTo_ofNat, decide_eq_true_eq, sum_product,
    totalOf]
  exact List.sum_le_sum fun reward hr => hle reward (List.mem_of_mem_filter hr)

end Sums

end MxExchange.WeeklyRewards
