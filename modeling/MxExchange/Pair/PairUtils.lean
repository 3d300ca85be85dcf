import MxExchange.Num.BigNumber
import Mathlib.Tactic.GCongr

/-!
# `pair.utils.ts`: the constant-product formulas

The data of a pair as the router sees it, and the two formulas every swap
amount comes from. Reserves are the unsigned integers the pair contract
reports, so they are `ℕ`; amounts arrive as strings from a request and are
`BigNumber`s.

The fee is a number, and `100000 - fee * 100000` is computed in doubles
before it enters the decimal arithmetic (`feeFactor`). For a fee in
`[0, 1)` the factor is strictly positive (`feePoints_pos`): the double
product cannot reach `100000`, because a double below one stays
`2 ^ -53` below it. That is all the later results need to know about it.

Both formulas cut off what is not whole, and the decimals of the division do
not matter for it: `getAmountOut` is the whole part of the unrounded curve, and
`getAmountIn` is the whole part and one more. So what it asks for is covered by
`x` units exactly when the output is below what the curve gives for `x`
(`getAmountIn_le_iff`).
-/

namespace MxExchange.Pair

open MxExchange.Num

abbrev TokenID := String
abbrev Address := String

/-- A token, as far as pairs need it. -/
structure EsdtToken where
  identifier : TokenID
  decimals : ℕ
  deriving DecidableEq

/-- The state of a pair. -/
structure PairInfoModel where
  reserves0 : ℕ
  reserves1 : ℕ
  totalSupply : ℕ
  deriving DecidableEq

/-- A pair as the router fetches it. -/
structure PairModel where
  address : Address
  firstToken : EsdtToken
  secondToken : EsdtToken
  info : PairInfoModel
  totalFeePercent : Double
  deriving DecidableEq

/-- The pair trades the two tokens, in either order. -/
def trades (u v : TokenID) (pair : PairModel) : Bool :=
  (u = pair.firstToken.identifier ∧ v = pair.secondToken.identifier) ∨
  (u = pair.secondToken.identifier ∧ v = pair.firstToken.identifier)

/-! ## The formulas -/

/-- `constantsConfig.SWAP_FEE_PERCENT_BASE_POINTS`. -/
def SWAP_FEE_PERCENT_BASE_POINTS : ℕ := 100000

/-- `SWAP_FEE_PERCENT_BASE_POINTS - fee * SWAP_FEE_PERCENT_BASE_POINTS`, a
number. -/
def feePoints (fee : Double) : Double :=
  (Double.ofRat SWAP_FEE_PERCENT_BASE_POINTS).sub
    (fee.mul (Double.ofRat SWAP_FEE_PERCENT_BASE_POINTS))

/-- The same as a decimal, which is how it is multiplied with. -/
def feeFactor (fee : Double) : ℚ := (feePoints fee).toDecimal

/-- `getAmountOut`: the product of the reserves is kept, and what is not whole
is cut off. -/
def getAmountOut (tokenInAmount tokenInReserves tokenOutReserves : BigNumber)
    (fee : Double) : BigNumber :=
  let amountInWithFee := tokenInAmount.multipliedBy (.ofDouble (feePoints fee))
  let numerator := amountInWithFee.multipliedBy tokenOutReserves
  let denominator :=
    (tokenInReserves.multipliedBy (.ofNat SWAP_FEE_PERCENT_BASE_POINTS)).plus amountInWithFee
  (numerator.dividedBy denominator).integerValue

/-- `getAmountIn`: the whole part and one more; more than the reserve is
answered with zero, the whole reserve with `Infinity`. -/
def getAmountIn (tokenOutAmount tokenInReserves tokenOutReserves : BigNumber)
    (fee : Double) : BigNumber :=
  if tokenOutReserves.isLessThan tokenOutAmount then
    (BigNumber.fin 0).integerValue
  else
    let numerator :=
      (tokenInReserves.multipliedBy tokenOutAmount).multipliedBy
        (.ofNat SWAP_FEE_PERCENT_BASE_POINTS)
    let denominator :=
      (tokenOutReserves.minus tokenOutAmount).multipliedBy (.ofDouble (feePoints fee))
    ((numerator.dividedBy denominator).plus (.fin 1)).integerValue

/-! ## The fee factor -/

/-- A fee the contract can charge: a share of the input. -/
structure IsFee (fee : Double) : Prop where
  nonneg : 0 ≤ fee.val
  lt_one : fee.val < 1

theorem basePoints_val : (Double.ofRat SWAP_FEE_PERCENT_BASE_POINTS).val = 100000 := by
  have h := Double.ofRat_intCast_val (z := 100000) (by norm_num)
  exact_mod_cast h

/-- The double product of the fee and the base points misses the base points
by at least half a bit of theirs. -/
theorem fee_mul_basePoints_le {fee : Double} (h : fee.val < 1) :
    (fee.mul (Double.ofRat SWAP_FEE_PERCENT_BASE_POINTS)).val ≤ 100000 - 2 ^ (-37 : ℤ) := by
  have hgap := isDouble_le_of_lt_one fee.isDouble h
  have hcand : IsDouble ((100000 : ℚ) - 2 ^ (-36 : ℤ)) :=
    ⟨100000 * 2 ^ 36 - 1, -36, by norm_num, by norm_num, by norm_num⟩
  show roundDouble (fee.val * (Double.ofRat SWAP_FEE_PERCENT_BASE_POINTS).val) ≤ _
  rw [basePoints_val]
  rcases le_or_gt (fee.val * 100000) (100000 - 2 ^ (-36 : ℤ)) with hle | hgt
  · have hmono := roundDouble_mono hle
    rw [roundDouble_of_isDouble hcand] at hmono
    norm_num at hmono ⊢
    linarith
  · -- between the last double under the base points and the middle of the gap
    have hnear := roundDouble_nearest (fee.val * 100000) hcand
    rw [abs_of_pos (by linarith : 0 < fee.val * 100000 - (100000 - 2 ^ (-36 : ℤ)))] at hnear
    have hup := (abs_le.mp hnear).1
    norm_num at hup hgap ⊢
    linarith

/-- A fee below one leaves something. -/
theorem feePoints_pos {fee : Double} (h : fee.val < 1) : 0 < (feePoints fee).val := by
  have hle := fee_mul_basePoints_le h
  have hbit : IsDouble ((2 : ℚ) ^ (-37 : ℤ)) := ⟨1, -37, by norm_num, by norm_num, by norm_num⟩
  show 0 < roundDouble ((Double.ofRat SWAP_FEE_PERCENT_BASE_POINTS).val - _)
  rw [basePoints_val]
  exact roundDouble_pos_of_isDouble_le hbit (unit_pos _) (by linarith)

theorem feeFactor_pos {fee : Double} (h : IsFee fee) : 0 < feeFactor fee :=
  Double.toDecimal_pos (feePoints_pos h.lt_one)

theorem isFee_zero : IsFee (Double.ofRat 0) := by
  have hval : (Double.ofRat 0).val = 0 := roundDouble_zero
  constructor
  · rw [hval]
  · rw [hval]
    norm_num

/-- Without a fee the factor is the base. -/
theorem feeFactor_zero : feeFactor (Double.ofRat 0) = 100000 := by decide +kernel

theorem ofDouble_feePoints (fee : Double) :
    BigNumber.ofDouble (feePoints fee) = .fin (feeFactor fee) := rfl

/-! ## The formulas on finite amounts -/

/-- What the unrounded curve gives for `x` units of input. -/
def curveOut (x : ℚ) (tokenInReserves tokenOutReserves : ℕ) (fee : Double) : ℚ :=
  x * feeFactor fee * tokenOutReserves / (tokenInReserves * 100000 + x * feeFactor fee)

/-- What the unrounded curve asks for `y` units of output. -/
def curveIn (y : ℚ) (tokenInReserves tokenOutReserves : ℕ) (fee : Double) : ℚ :=
  tokenInReserves * y * 100000 / ((tokenOutReserves - y) * feeFactor fee)

/-- The whole part of the curve, cut off at twenty decimals before. -/
theorem getAmountOut_fin {x : ℚ} {rIn rOut : ℕ} {fee : Double}
    (h : (rIn : ℚ) * 100000 + x * feeFactor fee ≠ 0) :
    getAmountOut (.fin x) (.ofNat rIn) (.ofNat rOut) fee
      = .fin (truncate (truncatePlaces BigNumber.DECIMAL_PLACES (curveOut x rIn rOut fee))) := by
  simp only [getAmountOut, ofDouble_feePoints, BigNumber.ofNat, BigNumber.multipliedBy_fin,
    BigNumber.plus_fin, SWAP_FEE_PERCENT_BASE_POINTS, Nat.cast_ofNat]
  rw [BigNumber.dividedBy_fin _ h, BigNumber.integerValue_fin, curveOut]

/-- The whole part and one more. -/
theorem getAmountIn_fin {y : ℚ} {rIn rOut : ℕ} {fee : Double} (hfee : IsFee fee)
    (h : y < rOut) :
    getAmountIn (.fin y) (.ofNat rIn) (.ofNat rOut) fee
      = .fin (truncate (truncatePlaces BigNumber.DECIMAL_PLACES (curveIn y rIn rOut fee) + 1)) := by
  have hden : ((rOut : ℚ) - y) * feeFactor fee ≠ 0 :=
    (mul_pos (sub_pos.mpr h) (feeFactor_pos hfee)).ne'
  simp only [getAmountIn, ofDouble_feePoints, BigNumber.ofNat, BigNumber.multipliedBy_fin,
    BigNumber.minus_fin, BigNumber.isLessThan_fin, SWAP_FEE_PERCENT_BASE_POINTS, Nat.cast_ofNat]
  rw [if_neg (by simpa using h.le), BigNumber.dividedBy_fin _ hden, BigNumber.plus_fin,
    BigNumber.integerValue_fin, curveIn]

/-- More than the reserve: the sentinel `0`. -/
theorem getAmountIn_of_reserve_lt {y : ℚ} {rIn rOut : ℕ} {fee : Double} (h : (rOut : ℚ) < y) :
    getAmountIn (.fin y) (.ofNat rIn) (.ofNat rOut) fee = .fin 0 := by
  have hlt : (BigNumber.ofNat rOut).isLessThan (.fin y) = true := by
    simpa [BigNumber.ofNat] using h
  rw [getAmountIn, if_pos hlt, BigNumber.integerValue_fin, truncate_zero]
  rfl

/-- The whole reserve: the division by zero is an infinite input, or `NaN`
when nothing is on the other side either. -/
theorem getAmountIn_of_eq_reserve (rIn : ℕ) {rOut : ℕ} (fee : Double) (hpos : 0 < rOut) :
    getAmountIn (.ofNat rOut) (.ofNat rIn) (.ofNat rOut) fee
      = if rIn = 0 then .nan else .infinity := by
  have hr : (0 : ℚ) < rOut := by exact_mod_cast hpos
  simp only [getAmountIn, ofDouble_feePoints, BigNumber.ofNat, BigNumber.multipliedBy_fin,
    BigNumber.minus_fin, BigNumber.isLessThan_fin, SWAP_FEE_PERCENT_BASE_POINTS, Nat.cast_ofNat,
    sub_self, zero_mul, lt_irrefl, decide_false, Bool.false_eq_true, if_false]
  split
  next h0 =>
    subst h0
    simp [BigNumber.dividedBy, BigNumber.sgn, BigNumber.infinityOfSign, BigNumber.plus,
      BigNumber.integerValue]
  next h0 =>
    have hin : (0 : ℚ) < rIn := by exact_mod_cast Nat.pos_of_ne_zero h0
    rw [BigNumber.dividedBy_zero (by positivity)]
    rfl

/-! ## Bounds through the rounding -/

/-- The curve asks for nothing negative. -/
theorem curveIn_nonneg {y : ℚ} {rIn rOut : ℕ} {fee : Double} (hfee : IsFee fee)
    (h0 : 0 ≤ y) (h : y < rOut) : 0 ≤ curveIn y rIn rOut fee := by
  have hF := feeFactor_pos hfee
  have hd : (0 : ℚ) < rOut - y := sub_pos.mpr h
  unfold curveIn
  positivity

/-- Nor does it give any. -/
theorem curveOut_nonneg {x : ℚ} {rIn rOut : ℕ} {fee : Double} (hfee : IsFee fee)
    (h0 : 0 ≤ x) : 0 ≤ curveOut x rIn rOut fee := by
  have hF := feeFactor_pos hfee
  unfold curveOut
  positivity

/-- The whole part of the curve. -/
theorem getAmountOut_eq_floor {x : ℚ} {rIn : ℕ} (rOut : ℕ) {fee : Double} (hfee : IsFee fee)
    (hin : 0 < rIn) (h0 : 0 ≤ x) :
    getAmountOut (.fin x) (.ofNat rIn) (.ofNat rOut) fee = .fin ⌊curveOut x rIn rOut fee⌋ := by
  have hF := feeFactor_pos hfee
  have hr : (0 : ℚ) < rIn := by exact_mod_cast hin
  have hden : (rIn : ℚ) * 100000 + x * feeFactor fee ≠ 0 := by positivity
  have hcurve : 0 ≤ curveOut x rIn rOut fee := curveOut_nonneg hfee h0
  rw [getAmountOut_fin hden, truncate_truncatePlaces hcurve, truncate_of_nonneg hcurve]

/-- The whole part of the curve, and one unit more. -/
theorem getAmountIn_eq_floor {y : ℚ} (rIn : ℕ) {rOut : ℕ} {fee : Double} (hfee : IsFee fee)
    (h0 : 0 ≤ y) (h : y < rOut) :
    getAmountIn (.fin y) (.ofNat rIn) (.ofNat rOut) fee
      = .fin ((⌊curveIn y rIn rOut fee⌋ + 1 : ℤ) : ℚ) := by
  have hcurve : 0 ≤ curveIn y rIn rOut fee := curveIn_nonneg hfee h0 h
  have hplaces : 0 ≤ truncatePlaces BigNumber.DECIMAL_PLACES (curveIn y rIn rOut fee) :=
    truncatePlaces_nonneg hcurve
  have hwhole : truncate (truncatePlaces BigNumber.DECIMAL_PLACES (curveIn y rIn rOut fee)) =
      truncate (curveIn y rIn rOut fee) :=
    truncate_truncatePlaces hcurve
  rw [truncate_of_nonneg hplaces, truncate_of_nonneg hcurve] at hwhole
  rw [getAmountIn_fin hfee h, truncate_of_nonneg (by linarith), Int.floor_add_one, hwhole]

/-- A feasible input is at least one unit. -/
theorem one_le_getAmountIn {y : ℚ} (rIn : ℕ) {rOut : ℕ} {fee : Double} (hfee : IsFee fee)
    (h0 : 0 ≤ y) (h : y < rOut) : 1 ≤ ⌊curveIn y rIn rOut fee⌋ + 1 := by
  have hfloor : 0 ≤ ⌊curveIn y rIn rOut fee⌋ := Int.floor_nonneg.mpr (curveIn_nonneg hfee h0 h)
  omega

/-- The curve inverted: `y` costs less than `x` exactly when `x` buys more
than `y`. -/
theorem curveIn_lt_iff {x y : ℚ} {rIn rOut : ℕ} {fee : Double} (hfee : IsFee fee)
    (hin : 0 < rIn) (hx : 0 < x) (h : y < rOut) :
    curveIn y rIn rOut fee < x ↔ y < curveOut x rIn rOut fee := by
  have hF := feeFactor_pos hfee
  have hr : (0 : ℚ) < rIn := by exact_mod_cast hin
  have hd : (0 : ℚ) < (rOut - y) * feeFactor fee := mul_pos (sub_pos.mpr h) hF
  have hn : (0 : ℚ) < rIn * 100000 + x * feeFactor fee := by positivity
  rw [curveIn, curveOut, div_lt_iff₀ hd, lt_div_iff₀ hn]
  constructor <;> intro h' <;> linarith

/-- No input buys the whole reserve. -/
theorem curveOut_lt_reserve {x : ℚ} {rIn rOut : ℕ} {fee : Double} (hfee : IsFee fee)
    (hin : 0 < rIn) (hout : 0 < rOut) (hx : 0 < x) : curveOut x rIn rOut fee < rOut := by
  have hF := feeFactor_pos hfee
  have hr : (0 : ℚ) < rIn := by exact_mod_cast hin
  have ho : (0 : ℚ) < rOut := by exact_mod_cast hout
  have hn : (0 : ℚ) < rIn * 100000 + x * feeFactor fee := by positivity
  rw [curveOut, div_lt_iff₀ hn]
  nlinarith [mul_pos ho hr]

/-- `getAmountIn` undone: a hop that is offered `n` units delivers `y`
exactly when the unrounded curve gives more than `y` for them. -/
theorem getAmountIn_le_iff {y : ℚ} {rIn rOut : ℕ} {fee : Double} {n : ℤ} (hfee : IsFee fee)
    (hin : 0 < rIn) (hout : 0 < rOut) (h0 : 0 ≤ y) (hn : 1 ≤ n) :
    (y < rOut ∧ ∃ a : ℤ, getAmountIn (.fin y) (.ofNat rIn) (.ofNat rOut) fee = .fin a ∧ a ≤ n) ↔
      y < curveOut n rIn rOut fee := by
  have hx : 0 < (n : ℚ) := by exact_mod_cast hn
  have hcovered : ∀ q : ℚ, ⌊q⌋ + 1 ≤ n ↔ q < n := fun q => by
    rw [Int.add_one_le_iff, Int.floor_lt]
  constructor
  · rintro ⟨hlt, a, ha, hle⟩
    rw [getAmountIn_eq_floor rIn hfee h0 hlt] at ha
    rw [← curveIn_lt_iff hfee hin hx hlt, ← hcovered]
    rw [Int.cast_inj.mp (BigNumber.fin.inj ha)]
    exact hle
  · intro hlt
    have hres := hlt.trans (curveOut_lt_reserve hfee hin hout hx)
    refine ⟨hres, _, getAmountIn_eq_floor rIn hfee h0 hres, ?_⟩
    rw [hcovered, curveIn_lt_iff hfee hin hx hres]
    exact hlt

end MxExchange.Pair
