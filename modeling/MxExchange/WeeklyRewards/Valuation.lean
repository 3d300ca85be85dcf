import MxExchange.Num.Percentages
import MxExchange.User.MetaEsdt
import MxExchange.WeeklyRewards.Payments

/-!
# `weekly-rewards-splitting.compute.service.ts`: what payments are worth

The value of a payment in dollars is its amount in whole tokens times the price
of the token, where a locked token counts as the asset it is made of. The
rewards of a week are valued so (`computeTotalRewardsForWeekUSD`). Two other
places leave steps out: `computeDistribution` weighs the raw amounts with the
prices of the tokens as they are, and the locked tokens of a week are valued
without their decimals.

For the distribution this matters as far as the printed percentages differ
(`sharesAgree_iff`). The yearly rate of a week is a quotient with one such value
below the line, so it is a power of ten too small, and as it keeps twenty
decimals it may vanish (`computeWeekAPR_rescaled_iff`).
-/

namespace MxExchange.WeeklyRewards

open MxExchange.Num
open User (computeValueUSD)

/-- What the service asks others. A price is that of a whole token. -/
structure WeeklyRewardsSplittingComputeService where
  baseAssetTokenID : String
  lockedTokenID : String
  totalRewardsForWeek : String → ℕ → List (EsdtTokenPayment ℕ)
  totalLockedTokensForWeek : String → ℕ → ℕ
  decimals : String → ℕ
  price : String → ℚ
  price_nonneg : ∀ tokenID, 0 ≤ price tokenID
  scAddressHas : String → Bool

/-- The amount as it is read. -/
def EsdtTokenPayment.read (payment : EsdtTokenPayment ℕ) : EsdtTokenPayment BigNumber where
  tokenType := payment.tokenType
  tokenID := payment.tokenID
  nonce := payment.nonce
  amount := .ofNat payment.amount

namespace WeeklyRewardsSplittingComputeService

variable (service : WeeklyRewardsSplittingComputeService)

/-- A price that is there is a finite one. -/
def computeTokenPriceDerivedUSD (tokenID : String) : BigNumber := .fin (service.price tokenID)

/-- `computeDistribution`, on amounts of the contract. -/
def distribution (payments : List (EsdtTokenPayment ℕ)) : List TokenDistributionModel :=
  computeDistribution service.computeTokenPriceDerivedUSD (payments.map EsdtTokenPayment.read)

/-- The body of the loop over the rewards. -/
def rewardValueUSD (reward : EsdtTokenPayment ℕ) : BigNumber :=
  let tokenID :=
    if reward.tokenID = service.lockedTokenID then service.baseAssetTokenID else reward.tokenID
  computeValueUSD reward.amount (service.decimals tokenID)
    (service.computeTokenPriceDerivedUSD tokenID)

/-- `computeTotalRewardsForWeekUSD`: what the rewards are worth together. -/
def computeTotalRewardsForWeekUSD (scAddress : String) (week : ℕ) : BigNumber :=
  ((service.totalRewardsForWeek scAddress week).map service.rewardValueUSD).foldl BigNumber.plus
    (.ofNat 0)

/-- The locked tokens are multiplied with a price of whole tokens, and no
decimals are taken off. -/
def computeTotalLockedTokensForWeekPriceUSD (totalLockedTokensForWeek : ℕ) : BigNumber :=
  let tokenPriceUSD :=
    if service.scAddressHas service.baseAssetTokenID then
      service.computeTokenPriceDerivedUSD service.baseAssetTokenID
    else .ofNat 0
  (BigNumber.ofNat totalLockedTokensForWeek).multipliedBy tokenPriceUSD

/-- Fifty-two weeks of rewards, over the locked tokens. -/
def computeWeekAPR (scAddress : String) (week : ℕ) : BigNumber :=
  let totalLockedTokensForWeekPriceUSD :=
    service.computeTotalLockedTokensForWeekPriceUSD
      (service.totalLockedTokensForWeek scAddress week)
  let totalRewardsForWeekPriceUSD := service.computeTotalRewardsForWeekUSD scAddress week
  (totalRewardsForWeekPriceUSD.multipliedBy (.ofNat 52)).dividedBy
    totalLockedTokensForWeekPriceUSD

/-! ## Values -/

/-- A locked token is priced as its asset. -/
def pricedAs (tokenID : String) : String :=
  if tokenID = service.lockedTokenID then service.baseAssetTokenID else tokenID

/-- What `computeTotalRewardsForWeekUSD` adds for a payment. -/
def valueUSD (payment : EsdtTokenPayment ℕ) : ℚ :=
  match service.rewardValueUSD payment with
  | .fin value => value
  | _ => 0

/-- What the payments are worth. -/
def totalUSD (payments : List (EsdtTokenPayment ℕ)) : ℚ := (payments.map service.valueUSD).sum

/-- What `computeDistribution` weighs a payment with. -/
def rawValue (payment : EsdtTokenPayment ℕ) : ℚ :=
  service.price payment.tokenID * payment.amount

/-- What `computeDistribution` divides by. -/
def totalRaw (payments : List (EsdtTokenPayment ℕ)) : ℚ := (payments.map service.rawValue).sum

section Values

variable {service} {payment : EsdtTokenPayment ℕ} {payments : List (EsdtTokenPayment ℕ)}

/-- The value of a payment, written out. -/
theorem valueUSD_eq (payment : EsdtTokenPayment ℕ) : service.valueUSD payment =
    payment.amount * (1 / 10 ^ service.decimals (service.pricedAs payment.tokenID)) *
      service.price (service.pricedAs payment.tokenID) := rfl

/-- No payment has a negative value. -/
theorem valueUSD_nonneg (payment : EsdtTokenPayment ℕ) : 0 ≤ service.valueUSD payment := by
  rw [valueUSD_eq]
  exact mul_nonneg (by positivity) (service.price_nonneg _)

theorem rawValue_nonneg (payment : EsdtTokenPayment ℕ) : 0 ≤ service.rawValue payment :=
  mul_nonneg (service.price_nonneg _) (Nat.cast_nonneg _)

theorem values_nonneg : ∀ value ∈ payments.map service.valueUSD, 0 ≤ value := by
  intro value hvalue
  obtain ⟨payment, -, rfl⟩ := List.mem_map.mp hvalue
  exact valueUSD_nonneg payment

theorem rawValues_nonneg : ∀ value ∈ payments.map service.rawValue, 0 ≤ value := by
  intro value hvalue
  obtain ⟨payment, -, rfl⟩ := List.mem_map.mp hvalue
  exact rawValue_nonneg payment

theorem totalUSD_nonneg (payments : List (EsdtTokenPayment ℕ)) : 0 ≤ service.totalUSD payments :=
  List.sum_nonneg values_nonneg

theorem totalRaw_nonneg (payments : List (EsdtTokenPayment ℕ)) : 0 ≤ service.totalRaw payments :=
  List.sum_nonneg rawValues_nonneg

/-- Finite summands have a finite sum. -/
theorem foldl_plus_fin {α : Type} (f : α → ℚ) (l : List α) (a : ℚ) :
    l.foldl (fun (total : BigNumber) x => total.plus (.fin (f x))) (.fin a) =
      .fin (a + (l.map f).sum) := by
  induction l generalizing a with
  | nil => rw [List.foldl_nil, List.map_nil, List.sum_nil, add_zero]
  | cons x l ih =>
    rw [List.foldl_cons, BigNumber.plus_fin, ih, List.map_cons, List.sum_cons, add_assoc]

/-- The sum of the values, exactly. -/
theorem computeTotalRewardsForWeekUSD_eq (scAddress : String) (week : ℕ) :
    service.computeTotalRewardsForWeekUSD scAddress week =
      .fin (service.totalUSD (service.totalRewardsForWeek scAddress week)) := by
  rw [computeTotalRewardsForWeekUSD, List.foldl_map]
  show List.foldl (fun (total : BigNumber) payment =>
    total.plus (.fin (service.valueUSD payment))) (.fin 0) _ = _
  rw [foldl_plus_fin, zero_add]
  rfl

/-- A share is a printed percentage of the raw total. -/
theorem distribution_eq (payments : List (EsdtTokenPayment ℕ)) :
    service.distribution payments = payments.map fun payment =>
      { tokenId := payment.tokenID
        percentage := (((BigNumber.fin (service.rawValue payment)).dividedBy
          (.fin (service.totalRaw payments))).multipliedBy (.ofNat 100)).toFixed 4 } := by
  have htotal : (payments.map EsdtTokenPayment.read).foldl (fun (total : BigNumber) token =>
        total.plus ((service.computeTokenPriceDerivedUSD token.tokenID).multipliedBy token.amount))
          (.ofNat 0) = .fin (service.totalRaw payments) := by
    rw [List.foldl_map]
    show List.foldl (fun (total : BigNumber) payment =>
      total.plus (.fin (service.rawValue payment))) (.fin 0) payments = _
    rw [foldl_plus_fin, zero_add]
    rfl
  unfold distribution computeDistribution
  dsimp only
  rw [List.foldl_map, htotal, List.map_map, List.map_map]
  rfl

end Values

namespace Sample

def payment (tokenID : String) (amount : ℕ) : EsdtTokenPayment ℕ where
  tokenType := 0
  tokenID := tokenID
  nonce := 0
  amount := amount

/-- Every token is worth a dollar, and there is one dollar for one locked
token. -/
def dollarPrices : WeeklyRewardsSplittingComputeService where
  baseAssetTokenID := "MEX"
  lockedTokenID := "XMEX"
  totalRewardsForWeek := fun _ _ => [payment "USDC" (10 ^ 6)]
  totalLockedTokensForWeek := fun _ _ => 10 ^ 18
  decimals := fun tokenID => if tokenID = "USDC" then 6 else 18
  price := fun _ => 1
  price_nonneg := fun _ => zero_le_one
  scAddressHas := fun tokenID => tokenID == "MEX"

end Sample

/-! ## The distribution -/

/-- A quotient has the decimals of a percentage, and more. -/
theorem four_add_two_le : 4 + 2 ≤ BigNumber.DECIMAL_PLACES := by decide

/-- The decimals of a quotient, and those of a percentage. -/
def printedShare (part total : ℚ) : ℚ := printedPercent BigNumber.DECIMAL_PLACES 4 part total

/-- What is asked of a distribution. Where the payments are worth something,
each one has the part of its value in all of it, printed with four decimals;
these are percentages, and they add up to a hundred but for less than a unit of
the last decimal for each. Where they are worth nothing there still are percentages. -/
structure SharesAgree (payments : List (EsdtTokenPayment ℕ)) : Prop where
  share : 0 < service.totalUSD payments →
    service.distribution payments = payments.map fun payment =>
      { tokenId := payment.tokenID
        percentage := .fin (printedShare (service.valueUSD payment) (service.totalUSD payments)) }
  inRange : 0 < service.totalUSD payments → ∀ model ∈ service.distribution payments,
    ∃ percentage : ℚ, model.percentage = .fin percentage ∧ 0 ≤ percentage ∧ percentage ≤ 100
  addUp : 0 < service.totalUSD payments → ∃ percentages : List ℚ,
    (service.distribution payments).map (·.percentage) = percentages.map .fin ∧
      percentages.sum ≤ 100 ∧ 100 ≤ percentages.sum + payments.length * (1 / 10 ^ 4)
  defined : service.totalUSD payments = 0 → ∀ model ∈ service.distribution payments,
    ∃ percentage : ℚ, model.percentage = .fin percentage

/-- The raw amounts are worth something, and weighed with them the payments
have, in the steps that are printed, the parts that they have by value. -/
structure SameShares (payments : List (EsdtTokenPayment ℕ)) : Prop where
  raw : 0 < service.totalRaw payments
  steps : 0 < service.totalUSD payments → ∀ payment ∈ payments, ∃ k : ℤ,
    InStep 4 k
      (service.rawValue payment / service.totalRaw payments) ∧
    InStep 4 k
      (service.valueUSD payment / service.totalUSD payments)

section Distribution

variable {service} {payment : EsdtTokenPayment ℕ} {payments : List (EsdtTokenPayment ℕ)}

theorem rawShare_nonneg (payment : EsdtTokenPayment ℕ) (payments : List (EsdtTokenPayment ℕ)) :
    0 ≤ service.rawValue payment / service.totalRaw payments :=
  div_nonneg (rawValue_nonneg payment) (totalRaw_nonneg payments)

theorem shareUSD_nonneg (payment : EsdtTokenPayment ℕ) (payments : List (EsdtTokenPayment ℕ)) :
    0 ≤ service.valueUSD payment / service.totalUSD payments :=
  div_nonneg (valueUSD_nonneg payment) (totalUSD_nonneg payments)

/-- If there is something to divide by, no share is `NaN`. -/
theorem distribution_of_pos (h : 0 < service.totalRaw payments) :
    service.distribution payments = payments.map fun payment =>
      { tokenId := payment.tokenID
        percentage :=
          .fin (printedShare (service.rawValue payment) (service.totalRaw payments)) } := by
  rw [distribution_eq]
  apply List.map_congr_left
  intro payment _
  rw [BigNumber.dividedBy_fin _ h.ne']
  rfl

/-- Nothing is divided by nothing. -/
theorem distribution_of_zero (h : service.totalRaw payments = 0) :
    ∀ model ∈ service.distribution payments, model.percentage = .nan := by
  intro model hmodel
  rw [distribution_eq] at hmodel
  obtain ⟨payment, hpayment, rfl⟩ := List.mem_map.mp hmodel
  have hpart : service.rawValue payment = 0 := by
    have hle : service.rawValue payment ≤ service.totalRaw payments :=
      List.single_le_sum rawValues_nonneg _ (List.mem_map_of_mem hpayment)
    exact le_antisymm (hle.trans h.le) (rawValue_nonneg payment)
  rw [hpart, h]
  rfl

/-- Two shares are printed alike if they lie in one step of four decimals. -/
theorem printedShare_eq_iff (payment : EsdtTokenPayment ℕ)
    (payments : List (EsdtTokenPayment ℕ)) :
    printedShare (service.rawValue payment) (service.totalRaw payments) =
        printedShare (service.valueUSD payment) (service.totalUSD payments) ↔
      ∃ k : ℤ, InStep 4 k
          (service.rawValue payment / service.totalRaw payments) ∧
        InStep 4 k
          (service.valueUSD payment / service.totalUSD payments) :=
  printedPercent_eq_printedPercent_iff four_add_two_le (rawShare_nonneg payment payments)
    (shareUSD_nonneg payment payments)

/-- The whole distribution is that of the values if every share is printed like
its value's. -/
theorem distribution_eq_iff (h : 0 < service.totalRaw payments) :
    (service.distribution payments = payments.map fun payment =>
      { tokenId := payment.tokenID
        percentage :=
          .fin (printedShare (service.valueUSD payment) (service.totalUSD payments)) }) ↔
    ∀ payment ∈ payments, ∃ k : ℤ,
      InStep 4 k
        (service.rawValue payment / service.totalRaw payments) ∧
      InStep 4 k
        (service.valueUSD payment / service.totalUSD payments) := by
  rw [distribution_of_pos h, List.map_inj_left]
  refine forall₂_congr fun payment _ => ?_
  rw [TokenDistributionModel.mk.injEq, BigNumber.fin.injEq, printedShare_eq_iff, eq_self_iff_true,
    true_and]

theorem valueUSD_div_le_one (h : payment ∈ payments) (hpos : 0 < service.totalUSD payments) :
    service.valueUSD payment / service.totalUSD payments ≤ 1 := by
  rw [div_le_one hpos]
  exact List.single_le_sum values_nonneg _ (List.mem_map_of_mem h)

/-- Equal shares are printed alike. -/
theorem sharesAgree_of_sameShares (h : service.SameShares payments) :
    service.SharesAgree payments := by
  have hshare := fun hpos => (distribution_eq_iff h.raw).mpr (h.steps hpos)
  refine { share := hshare, inRange := ?_, addUp := ?_, defined := ?_ }
  · intro hpos model hmodel
    rw [hshare hpos] at hmodel
    obtain ⟨payment, hpayment, rfl⟩ := List.mem_map.mp hmodel
    refine ⟨_, rfl, printedPercent_nonneg (shareUSD_nonneg payment payments), ?_⟩
    exact printedPercent_le four_add_two_le (shareUSD_nonneg payment payments)
      (valueUSD_div_le_one hpayment hpos)
  · intro hpos
    refine ⟨(payments.map service.valueUSD).map fun value =>
      printedShare value (service.totalUSD payments), ?_, ?_⟩
    · rw [hshare hpos, List.map_map, List.map_map, List.map_map]
      rfl
    · have hsum := sum_printedPercent four_add_two_le values_nonneg hpos
      rwa [List.length_map] at hsum
  · intro _ model hmodel
    rw [distribution_of_pos h.raw] at hmodel
    obtain ⟨payment, -, rfl⟩ := List.mem_map.mp hmodel
    exact ⟨_, rfl⟩

/-- Without worth in raw amounts nothing would be a percentage. -/
theorem totalRaw_pos_of_sharesAgree (h : service.SharesAgree payments) (hne : payments ≠ []) :
    0 < service.totalRaw payments := by
  refine (totalRaw_nonneg payments).lt_of_ne fun hzero => ?_
  obtain ⟨payment, hpayment⟩ := List.exists_mem_of_ne_nil payments hne
  obtain ⟨model, hmodel⟩ : ∃ model, model ∈ service.distribution payments := by
    rw [distribution_eq]
    exact ⟨_, List.mem_map_of_mem hpayment⟩
  have hnan := distribution_of_zero hzero.symm model hmodel
  obtain ⟨percentage, hpercentage⟩ : ∃ percentage, model.percentage = .fin percentage := by
    rcases (totalUSD_nonneg payments).eq_or_lt with hworthless | hpos
    · exact h.defined hworthless.symm model hmodel
    · obtain ⟨percentage, hpercentage, -⟩ := h.inRange hpos model hmodel
      exact ⟨percentage, hpercentage⟩
  rw [hpercentage] at hnan
  cases hnan

/-- **The distribution of payments** is the one by value exactly if there are
no payments, or if weighing the raw amounts makes no difference in print. -/
theorem sharesAgree_iff (service : WeeklyRewardsSplittingComputeService)
    (payments : List (EsdtTokenPayment ℕ)) :
    service.SharesAgree payments ↔ payments = [] ∨ service.SameShares payments := by
  constructor
  · intro h
    refine or_iff_not_imp_left.mpr fun hne => ?_
    have hraw := totalRaw_pos_of_sharesAgree h hne
    exact ⟨hraw, fun hpos => (distribution_eq_iff hraw).mp (h.share hpos)⟩
  · rintro (rfl | h)
    · exact
        { share := fun _ => rfl
          inRange := fun _ model hmodel => by cases hmodel
          addUp := fun hpos => absurd hpos (lt_irrefl _)
          defined := fun _ model hmodel => by cases hmodel }
    · exact sharesAgree_of_sameShares h

/-- It makes a difference for a dollar in a token of eighteen decimals and a
dollar in one of six. -/
theorem not_sharesAgree_sample :
    ¬ Sample.dollarPrices.SharesAgree
      [Sample.payment "MEX" (10 ^ 18), Sample.payment "USDC" (10 ^ 6)] := by
  intro h
  have hshare := h.share (by decide +kernel)
  revert hshare
  decide +kernel

/-- It makes none where the raw amounts are the values in another unit: if all
tokens have the same decimals, and a locked one is priced as its asset. -/
theorem sameShares_of_proportional {c : ℚ} (hc : 0 < c)
    (h : ∀ payment ∈ payments, service.rawValue payment = c * service.valueUSD payment)
    (hpos : 0 < service.totalUSD payments) : service.SameShares payments := by
  have htotal : service.totalRaw payments = c * service.totalUSD payments := by
    rw [totalRaw, totalUSD, ← List.sum_map_mul_left, List.map_congr_left h]
  refine { raw := ?_, steps := fun _ payment hpayment => ?_ }
  · rw [htotal]
    exact mul_pos hc hpos
  · rw [htotal, h payment hpayment, mul_div_mul_left _ _ hc.ne']
    have hshare : 0 ≤ service.valueUSD payment / service.totalUSD payments :=
      shareUSD_nonneg payment payments
    obtain ⟨k, -, hstep⟩ := exists_inStep four_add_two_le hshare
    exact ⟨k, hstep, hstep⟩

end Distribution

/-! ## The rate of a week -/

/-- The same tokens in a smaller unit: the amounts of the asset and of its
locked token times ten to the `k`, with `k` more decimals. -/
def rescaled (k : ℕ) : WeeklyRewardsSplittingComputeService :=
  { service with
    totalRewardsForWeek := fun scAddress week =>
      (service.totalRewardsForWeek scAddress week).map fun reward =>
        if reward.tokenID = service.baseAssetTokenID ∨ reward.tokenID = service.lockedTokenID then
          { reward with amount := reward.amount * 10 ^ k }
        else reward
    totalLockedTokensForWeek := fun scAddress week =>
      service.totalLockedTokensForWeek scAddress week * 10 ^ k
    decimals := fun tokenID =>
      if tokenID = service.baseAssetTokenID ∨ tokenID = service.lockedTokenID then
        service.decimals tokenID + k
      else service.decimals tokenID }

/-- What the rate is divided by. -/
def lockedValue (scAddress : String) (week : ℕ) : ℚ :=
  service.totalLockedTokensForWeek scAddress week *
    if service.scAddressHas service.baseAssetTokenID then service.price service.baseAssetTokenID
    else 0

section Rate

variable {service} {k : ℕ} {scAddress : String} {week : ℕ}

theorem lockedValue_nonneg : 0 ≤ service.lockedValue scAddress week := by
  refine mul_nonneg (Nat.cast_nonneg _) ?_
  split
  next => exact service.price_nonneg _
  next => exact le_rfl

/-- The locked tokens are worth more by that power of ten. -/
theorem lockedValue_rescaled : (service.rescaled k).lockedValue scAddress week =
    service.lockedValue scAddress week * 10 ^ k := by
  have hamount : (service.rescaled k).totalLockedTokensForWeek scAddress week =
      service.totalLockedTokensForWeek scAddress week * 10 ^ k := rfl
  rw [lockedValue, hamount]
  push_cast
  exact mul_right_comm _ _ _

/-- Only the asset and its locked token change. -/
theorem decimals_rescaled (tokenID : String) : (service.rescaled k).decimals tokenID =
    if tokenID = service.baseAssetTokenID ∨ tokenID = service.lockedTokenID then
      service.decimals tokenID + k
    else service.decimals tokenID := rfl

/-- A payment keeps its value. -/
theorem valueUSD_rescaled (reward : EsdtTokenPayment ℕ) :
    (service.rescaled k).valueUSD
      (if reward.tokenID = service.baseAssetTokenID ∨ reward.tokenID = service.lockedTokenID then
        { reward with amount := reward.amount * 10 ^ k }
      else reward) = service.valueUSD reward := by
  have hpriced (tokenID : String) : (service.rescaled k).pricedAs tokenID =
      service.pricedAs tokenID := rfl
  have hprice (tokenID : String) : (service.rescaled k).price tokenID = service.price tokenID := rfl
  rw [valueUSD_eq, valueUSD_eq, hpriced, hprice, decimals_rescaled]
  split
  next hasset =>
    -- either way it is priced as the asset
    have hbase : service.pricedAs reward.tokenID = service.baseAssetTokenID := by
      unfold pricedAs
      split
      next => rfl
      next hne => exact hasset.resolve_right hne
    dsimp only
    rw [hbase, if_pos (Or.inl rfl), pow_add]
    push_cast
    field_simp
  next hasset =>
    have hself : service.pricedAs reward.tokenID = reward.tokenID :=
      if_neg fun h => hasset (Or.inr h)
    rw [hself, if_neg hasset]

/-- Amounts that grow with the decimals are worth the same. -/
theorem totalUSD_rescaled :
    (service.rescaled k).totalUSD ((service.rescaled k).totalRewardsForWeek scAddress week) =
      service.totalUSD (service.totalRewardsForWeek scAddress week) := by
  have hrewards : (service.rescaled k).totalRewardsForWeek scAddress week =
      (service.totalRewardsForWeek scAddress week).map fun reward =>
        if reward.tokenID = service.baseAssetTokenID ∨ reward.tokenID = service.lockedTokenID then
          { reward with amount := reward.amount * 10 ^ k }
        else reward := rfl
  rw [hrewards, totalUSD, totalUSD, List.map_map]
  exact congrArg List.sum (List.map_congr_left fun reward _ => valueUSD_rescaled reward)

/-- The rate, as one quotient. -/
theorem computeWeekAPR_eq : service.computeWeekAPR scAddress week =
    (BigNumber.fin (service.totalUSD (service.totalRewardsForWeek scAddress week) * 52)).dividedBy
      (.fin (service.lockedValue scAddress week)) := by
  have hlocked : service.computeTotalLockedTokensForWeekPriceUSD
      (service.totalLockedTokensForWeek scAddress week) =
        .fin (service.lockedValue scAddress week) := by
    unfold computeTotalLockedTokensForWeekPriceUSD lockedValue
    dsimp only
    split
    next => rfl
    next => rfl
  rw [computeWeekAPR, hlocked, computeTotalRewardsForWeekUSD_eq]
  rfl

/-- **The rate of a week** does not depend on the unit of the token exactly
if the unit is the same, the locked tokens have no value, or the rewards are
too small against their raw amount for a rate with twenty decimals. -/
theorem computeWeekAPR_rescaled_iff (service : WeeklyRewardsSplittingComputeService)
    (scAddress : String) (week k : ℕ) :
    (service.rescaled k).computeWeekAPR scAddress week = service.computeWeekAPR scAddress week ↔
      k = 0 ∨ service.lockedValue scAddress week = 0 ∨
        10 ^ 20 * (service.totalUSD (service.totalRewardsForWeek scAddress week) * 52) <
          service.lockedValue scAddress week := by
  rw [computeWeekAPR_eq, computeWeekAPR_eq, totalUSD_rescaled, lockedValue_rescaled]
  rcases lockedValue_nonneg.eq_or_lt' with hzero | hpos
  · rw [hzero, zero_mul]
    exact iff_of_true rfl (Or.inr (Or.inl rfl))
  · have hrate : 0 ≤ service.totalUSD (service.totalRewardsForWeek scAddress week) * 52 /
        service.lockedValue scAddress week :=
      div_nonneg (mul_nonneg (totalUSD_nonneg _) (by norm_num)) hpos.le
    rw [BigNumber.dividedBy_fin _ hpos.ne', BigNumber.dividedBy_fin _ (by positivity),
      BigNumber.fin.injEq, ← div_div, truncatePlaces_div_pow_eq_iff hrate, or_iff_right hpos.ne',
      div_lt_div_iff₀ hpos (by positivity)]
    refine or_congr Iff.rfl ?_
    rw [BigNumber.DECIMAL_PLACES]
    constructor
    · intro h
      linarith
    · intro h
      linarith

/-- The rate of one and the same week, in two units. -/
theorem computeWeekAPR_rescaled_sample :
    (Sample.dollarPrices.rescaled 1).computeWeekAPR "fees-collector" 1 ≠
      Sample.dollarPrices.computeWeekAPR "fees-collector" 1 := by
  decide +kernel

end Rate

end WeeklyRewardsSplittingComputeService

end MxExchange.WeeklyRewards
