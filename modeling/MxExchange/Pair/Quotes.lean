import MxExchange.Pair.PairUtils

/-!
# `pair.utils.ts`: what the two quotes promise

Both quotes are the unrounded curve with what is not whole cut off, and that is
how the pair contract rounds too. `getAmountOut` pays the whole part of the
curve: never the whole reserve, never so much that the product of the reserves
drops, and exactly what the contract pays (`getAmountOut_safe`).

`getAmountIn` adds one before it rounds, so its input lies strictly above the
curve and what it buys lies above what was asked for, which is a whole number
(`getAmountOut_getAmountIn`).
-/

namespace MxExchange.Pair

open MxExchange.Num

/-! ## The product of the reserves -/

/-- A swap of `a` units against `out` leaves something of the reserve, and
does not lower the product of the two. -/
def KeepsProduct (rIn rOut a : ℕ) (out : ℤ) : Prop :=
  out < rOut ∧ (rIn : ℤ) * rOut ≤ (rIn + a) * (rOut - out)

/-- The most that can be taken out. -/
theorem keepsProduct_iff {rIn rOut a : ℕ} {out : ℤ} (hin : 0 < rIn) (hout : 0 < rOut) :
    KeepsProduct rIn rOut a out ↔ out ≤ (a * rOut / (rIn + a) : ℕ) := by
  have hsum : (0 : ℤ) < rIn + a := by omega
  have hfloor : out ≤ (a * rOut / (rIn + a) : ℕ) ↔ out * (rIn + a) ≤ a * rOut := by
    rw [Int.natCast_div, Int.le_ediv_iff_mul_le (by exact_mod_cast hsum)]
    push_cast
    exact Iff.rfl
  have hprod : (rIn : ℤ) * rOut ≤ (rIn + a) * (rOut - out) ↔ out * (rIn + a) ≤ a * rOut := by
    constructor <;> intro h <;> linarith
  rw [KeepsProduct, hprod, hfloor]
  refine and_iff_right_of_imp fun h => ?_
  -- Against the whole reserve the other side would have to be empty.
  by_contra hle
  have hmul := mul_le_mul_of_nonneg_right (not_lt.mp hle) hsum.le
  have hpos : (0 : ℤ) < rOut * rIn := by exact_mod_cast Nat.mul_pos hout hin
  linarith

/-! ## The fee only takes away -/

theorem feePoints_le {fee : Double} (h : 0 ≤ fee.val) : (feePoints fee).val ≤ 100000 := by
  have hfee : 0 ≤ (fee.mul (Double.ofRat SWAP_FEE_PERCENT_BASE_POINTS)).val := by
    apply Double.mul_val_nonneg h
    rw [basePoints_val]
    norm_num
  have hbase : IsDouble ((100000 : ℤ) : ℚ) := isDouble_intCast (by norm_num)
  have hmono : roundDouble (100000 - (fee.mul (Double.ofRat SWAP_FEE_PERCENT_BASE_POINTS)).val)
      ≤ roundDouble ((100000 : ℤ) : ℚ) := by
    apply roundDouble_mono
    push_cast
    linarith
  rw [roundDouble_of_isDouble hbase] at hmono
  show roundDouble ((Double.ofRat SWAP_FEE_PERCENT_BASE_POINTS).val - _) ≤ _
  rw [basePoints_val]
  exact_mod_cast hmono

/-- The printed form of a number below the base points is below them too. -/
theorem feeFactor_le {fee : Double} (h : IsFee fee) : feeFactor fee ≤ 100000 := by
  rcases (feePoints_le h.nonneg).lt_or_eq with hlt | heq
  · by_contra hgt
    have hbase : IsDouble ((100000 : ℤ) : ℚ) := isDouble_intCast (by norm_num)
    have hmono := roundDouble_mono (not_le.mp hgt).le
    rw [show (100000 : ℚ) = ((100000 : ℤ) : ℚ) by norm_num, roundDouble_of_isDouble hbase,
      feeFactor, Double.roundDouble_toDecimal (feePoints_pos h.lt_one).le] at hmono
    push_cast at hmono
    linarith
  · have hprint : shortestDecimal 100000 = 100000 := by decide +kernel
    rw [feeFactor, Double.toDecimal, if_pos (feePoints_pos h.lt_one).le, heq, hprint]

/-- The curve with the fee runs below the one without. -/
theorem curveOut_le {x : ℚ} {rIn rOut : ℕ} {fee : Double} (hfee : IsFee fee) (hin : 0 < rIn)
    (hx : 0 ≤ x) : curveOut x rIn rOut fee ≤ x * rOut / (rIn + x) := by
  have hF := feeFactor_pos hfee
  have hr : (0 : ℚ) < rIn := by exact_mod_cast hin
  have hroom : 0 ≤ x * rOut * rIn * (100000 - feeFactor fee) :=
    mul_nonneg (by positivity) (sub_nonneg.mpr (feeFactor_le hfee))
  rw [curveOut, div_le_div_iff₀ (by positivity) (by positivity)]
  linarith

/-- Paying the whole part of the curve keeps the product. -/
theorem floor_curveOut_le {rIn rOut a : ℕ} {fee : Double} (hfee : IsFee fee) (hin : 0 < rIn) :
    ⌊curveOut a rIn rOut fee⌋ ≤ (a * rOut / (rIn + a) : ℕ) := by
  have hle : ⌊curveOut a rIn rOut fee⌋ ≤ ⌊(a : ℚ) * rOut / (rIn + a)⌋ :=
    Int.floor_le_floor (curveOut_le hfee hin (Nat.cast_nonneg a))
  have hcast : ⌊(a : ℚ) * rOut / (rIn + a)⌋ = (a * rOut / (rIn + a) : ℕ) := by
    have hdiv := Rat.floor_natCast_div_natCast (a * rOut) (rIn + a)
    push_cast at hdiv ⊢
    exact hdiv
  rwa [hcast] at hle

/-! ## The quoted output -/

/-- What the pair contract pays for `a` units with a fee of that many base
points: integer arithmetic on the same curve. -/
def contractAmountOut (rIn rOut a points : ℕ) : ℕ :=
  a * (SWAP_FEE_PERCENT_BASE_POINTS - points) * rOut /
    (rIn * SWAP_FEE_PERCENT_BASE_POINTS + a * (SWAP_FEE_PERCENT_BASE_POINTS - points))

/-- With the fee read as whole base points, the contract pays the whole part of
the curve. -/
theorem floor_curveOut_eq {fee : Double} {points : ℕ}
    (hpoints : points ≤ SWAP_FEE_PERCENT_BASE_POINTS)
    (hfactor : feeFactor fee = 100000 - points) (rIn rOut a : ℕ) :
    ⌊curveOut a rIn rOut fee⌋ = contractAmountOut rIn rOut a points := by
  have hcast : ((SWAP_FEE_PERCENT_BASE_POINTS - points : ℕ) : ℚ) = 100000 - points := by
    rw [Nat.cast_sub hpoints, SWAP_FEE_PERCENT_BASE_POINTS, Nat.cast_ofNat]
  have hquotient : curveOut a rIn rOut fee =
      ((a * (SWAP_FEE_PERCENT_BASE_POINTS - points) * rOut : ℕ) : ℚ) /
        ((rIn * SWAP_FEE_PERCENT_BASE_POINTS +
          a * (SWAP_FEE_PERCENT_BASE_POINTS - points) : ℕ) : ℚ) := by
    push_cast [hcast]
    rw [curveOut, hfactor, SWAP_FEE_PERCENT_BASE_POINTS, Nat.cast_ofNat]
  rw [hquotient, Rat.floor_natCast_div_natCast]
  rfl

/-- **The quote is safe.** It is the whole part of the curve, which leaves
something of the reserve, keeps the product, and is what the contract pays. -/
theorem getAmountOut_safe {rIn rOut : ℕ} (a : ℕ) {fee : Double} (hfee : IsFee fee)
    (hin : 0 < rIn) (hout : 0 < rOut) :
    ∃ out : ℕ, getAmountOut (.ofNat a) (.ofNat rIn) (.ofNat rOut) fee = .ofNat out ∧
      KeepsProduct rIn rOut a out ∧ (out : ℚ) ≤ curveOut a rIn rOut fee ∧
      ∀ points ≤ SWAP_FEE_PERCENT_BASE_POINTS, feeFactor fee = 100000 - points →
        out = contractAmountOut rIn rOut a points := by
  have hcurve : 0 ≤ curveOut a rIn rOut fee := curveOut_nonneg hfee (Nat.cast_nonneg a)
  obtain ⟨out, hfloor⟩ := Int.eq_ofNat_of_zero_le (Int.floor_nonneg.mpr hcurve)
  have hquote := getAmountOut_eq_floor rOut hfee hin (Nat.cast_nonneg a)
  rw [hfloor] at hquote
  have hbound : (out : ℤ) ≤ (a * rOut / (rIn + a) : ℕ) := by
    have hle : ⌊curveOut a rIn rOut fee⌋ ≤ (a * rOut / (rIn + a) : ℕ) :=
      floor_curveOut_le hfee hin
    rwa [hfloor] at hle
  refine ⟨out, by simpa [BigNumber.ofNat] using hquote, ?_, ?_, fun points hle hfactor => ?_⟩
  · exact (keepsProduct_iff hin hout).mpr hbound
  · have hle := Int.floor_le (curveOut a rIn rOut fee)
    rw [hfloor] at hle
    exact_mod_cast hle
  · have hpaid := floor_curveOut_eq hle hfactor rIn rOut a
    rw [hfloor] at hpaid
    exact_mod_cast hpaid

/-- Seven units into a pool of ten and ten, without a fee: four of the ten,
where the curve is at four and two seventeenths. -/
theorem getAmountOut_safe_seven :
    ∃ out : ℕ, getAmountOut (.ofNat 7) (.ofNat 10) (.ofNat 10) (Double.ofRat 0) = .ofNat out ∧
      KeepsProduct 10 10 7 out ∧ (out : ℚ) ≤ curveOut (7 : ℕ) 10 10 (Double.ofRat 0) ∧
      ∀ points ≤ SWAP_FEE_PERCENT_BASE_POINTS, feeFactor (Double.ofRat 0) = 100000 - points →
        out = contractAmountOut 10 10 7 points :=
  getAmountOut_safe 7 isFee_zero (by decide) (by decide)

/-- Half a unit is not paid. -/
example : getAmountOut (.ofNat 1) (.ofNat 1) (.ofNat 1) (Double.ofRat 0) = .ofNat 0 := by
  decide +kernel

/-! ## There and back -/

/-- Paying what is quoted for `x` units buys `x` units. -/
theorem getAmountOut_getAmountIn {rIn rOut x : ℕ} {fee : Double} (hfee : IsFee fee)
    (hin : 0 < rIn) (h : x < rOut) :
    ∃ a out : ℤ,
      getAmountIn (.ofNat x) (.ofNat rIn) (.ofNat rOut) fee = .fin a ∧
      getAmountOut (.fin a) (.ofNat rIn) (.ofNat rOut) fee = .fin out ∧ x ≤ out := by
  have hx : (0 : ℚ) ≤ x := Nat.cast_nonneg x
  have hlt : (x : ℚ) < rOut := by exact_mod_cast h
  have hpos : (0 : ℚ) < ((⌊curveIn x rIn rOut fee⌋ + 1 : ℤ) : ℚ) := by
    have hone := one_le_getAmountIn rIn hfee hx hlt
    exact_mod_cast (by omega : (0 : ℤ) < ⌊curveIn x rIn rOut fee⌋ + 1)
  -- The input lies strictly above the curve.
  have habove : curveIn x rIn rOut fee < ((⌊curveIn x rIn rOut fee⌋ + 1 : ℤ) : ℚ) := by
    push_cast
    exact Int.lt_floor_add_one _
  have hbuys := (curveIn_lt_iff hfee hin hpos hlt).mp habove
  refine ⟨_, _, getAmountIn_eq_floor rIn hfee hx hlt,
    getAmountOut_eq_floor rOut hfee hin hpos.le, ?_⟩
  rw [Int.le_floor]
  exact_mod_cast hbuys.le

/-- Seven of two thousand units, from a pool that holds half as much of the
other token. -/
theorem getAmountOut_getAmountIn_seven :
    ∃ a out : ℤ,
      getAmountIn (.ofNat 7) (.ofNat 1000) (.ofNat 2000) (Double.ofRat 0) = .fin a ∧
      getAmountOut (.fin a) (.ofNat 1000) (.ofNat 2000) (Double.ofRat 0) = .fin out ∧
      ((7 : ℕ) : ℤ) ≤ out :=
  getAmountOut_getAmountIn isFee_zero (by decide) (by decide)

end MxExchange.Pair
