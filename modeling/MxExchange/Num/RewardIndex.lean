import MxExchange.Num.Shares

/-!
# Rewards by an index

A pool that cannot pay every holder at every step keeps an index instead: the
reward of one unit of weight so far, times a constant that keeps the index
whole. A holder is paid the difference of the index, times the weight, over
the constant. Both divisions are rounded down.

With exact divisions the holders of a pool get what was minted, in the
proportion of their weights (`sum_exactPayouts`). In whole units they get no
more than that, whoever they are and however many (`sum_payouts_le`): each of
the two divisions can only drop something.
-/

namespace MxExchange.Num

/-! ## Exact divisions -/

/-- The payments on all weights together. -/
theorem sum_exactPayouts {weights : List ℚ} {increase constant : ℚ} :
    (weights.map fun weight => weight * increase / constant).sum =
      weights.sum * increase / constant := by
  induction weights with
  | nil => simp
  | cons weight weights ih =>
    rw [List.map_cons, List.sum_cons, List.sum_cons, ih]
    ring

/-! ## Whole units -/

/-- What `minted` adds to the index of a pool with that supply; `minted` is
in units of one `unit`th. -/
def indexIncrease (unit minted constant supply : ℕ) : ℕ := minted * constant / (unit * supply)

/-- What a weight is paid for an increase of the index. -/
def payout (constant increase weight : ℕ) : ℕ := weight * increase / constant

section Payouts

variable {unit minted constant supply : ℕ} {weights : List ℕ}

/-- The increase on the whole supply is no more than what was minted. -/
theorem mul_indexIncrease_le : unit * supply * indexIncrease unit minted constant supply ≤
    minted * constant :=
  Nat.mul_div_le _ _

/-- What all are paid for an increase of the index is no more than what was
minted. -/
theorem sum_payouts_le (hconstant : 0 < constant) (hweights : weights.sum ≤ supply) :
    unit * (weights.map (payout constant
      (indexIncrease unit minted constant supply))).sum ≤ minted := by
  have hindex : unit * supply * indexIncrease unit minted constant supply ≤ minted * constant :=
    mul_indexIncrease_le
  generalize indexIncrease unit minted constant supply = increase at hindex ⊢
  have hpayouts : (weights.map (payout constant increase)).sum * constant ≤ supply * increase := by
    calc (weights.map (payout constant increase)).sum * constant
        ≤ (weights.map (· * increase)).sum / constant * constant :=
          Nat.mul_le_mul_right _ (sum_div_le _ weights constant)
      _ ≤ (weights.map (· * increase)).sum := Nat.div_mul_le_self _ _
      _ = weights.sum * increase := by rw [List.sum_map_mul_right, List.map_id']
      _ ≤ supply * increase := Nat.mul_le_mul_right _ hweights
  refine Nat.le_of_mul_le_mul_right ?_ hconstant
  calc unit * (weights.map (payout constant increase)).sum * constant
      = unit * ((weights.map (payout constant increase)).sum * constant) := Nat.mul_assoc _ _ _
    _ ≤ unit * (supply * increase) := Nat.mul_le_mul_left _ hpayouts
    _ = unit * supply * increase := (Nat.mul_assoc _ _ _).symm
    _ ≤ minted * constant := hindex

/-- Nothing is paid for an index that has not grown. -/
theorem zero_payout (constant weight : ℕ) : payout constant 0 weight = 0 := by
  rw [payout, Nat.mul_zero, Nat.zero_div]

/-- More minted is no smaller increase. -/
theorem indexIncrease_mono {minted' : ℕ} (h : minted ≤ minted') :
    indexIncrease unit minted constant supply ≤ indexIncrease unit minted' constant supply :=
  Nat.div_le_div_right (Nat.mul_le_mul_right _ h)

/-- A greater increase pays no less. -/
theorem payout_mono {increase increase' : ℕ} (weight : ℕ) (h : increase ≤ increase') :
    payout constant increase weight ≤ payout constant increase' weight :=
  Nat.div_le_div_right (Nat.mul_le_mul_left _ h)

end Payouts

end MxExchange.Num
