import MxExchange.Num.Binary64

/-!
# `bignumber.js` values

Arbitrary-precision decimals as the program uses them: results of `plus`,
`minus` and `multipliedBy` are exact, `dividedBy` keeps twenty decimal places
and `integerValue` keeps none. What is not kept is cut off: importing the SDK
sets `ROUNDING_MODE` to `ROUND_DOWN` on the one copy of the library, whatever
module the numbers are created in. Outside the finite values there are the two
infinities and `NaN`, which division by zero produces and which compare the way
they do in JavaScript: `NaN` is neither less than, greater than nor equal to
anything.

A decimal string is modelled by the value it denotes. `toFixed` prints a
value exactly and the constructor reads it back, so an amount that travels
as a string between two computations is the same value at both ends. The
sign of a zero is not kept.
-/

namespace MxExchange.Num

/-- A value of the library: a decimal number, of any size, or one of the three
that are not finite. -/
inductive BigNumber where
  | nan
  | infinity
  | negInfinity
  | fin (q : ℚ)
  deriving DecidableEq

namespace BigNumber

/-- `DECIMAL_PLACES`: what a division keeps. -/
def DECIMAL_PLACES : ℕ := 20

def ofNat (n : ℕ) : BigNumber := fin n

/-- `-1`, `0` or `1`; `0` for `NaN` as well. -/
def sgn : BigNumber → ℤ
  | nan => 0
  | infinity => 1
  | negInfinity => -1
  | fin q => if 0 < q then 1 else if q < 0 then -1 else 0

/-- The infinity of the given sign, or `NaN` when there is none. -/
def infinityOfSign (s : ℤ) : BigNumber :=
  if 0 < s then infinity else if s < 0 then negInfinity else nan

/-- `NaN` has no sign to change. -/
def negated : BigNumber → BigNumber
  | nan => nan
  | infinity => negInfinity
  | negInfinity => infinity
  | fin q => fin (-q)

/-- Infinities of opposite signs have no sum. -/
def plus : BigNumber → BigNumber → BigNumber
  | fin a, fin b => fin (a + b)
  | nan, _ => nan
  | _, nan => nan
  | infinity, negInfinity => nan
  | negInfinity, infinity => nan
  | infinity, _ => infinity
  | _, infinity => infinity
  | negInfinity, _ => negInfinity
  | _, negInfinity => negInfinity

/-- A difference is the sum with the negated value, for the infinities as well.
-/
def minus (x y : BigNumber) : BigNumber := x.plus y.negated

/-- Zero times an infinity is `NaN`; other products with an infinity are
infinite. -/
def multipliedBy : BigNumber → BigNumber → BigNumber
  | fin a, fin b => fin (a * b)
  | x, y => infinityOfSign (x.sgn * y.sgn)

/-- The quotient is cut off at `DECIMAL_PLACES` places. A number other than zero
divided by zero is infinite, zero by zero is `NaN`. -/
def dividedBy : BigNumber → BigNumber → BigNumber
  | nan, _ => nan
  | _, nan => nan
  | fin a, fin b =>
    if b = 0 then infinityOfSign (fin a).sgn else fin (truncatePlaces DECIMAL_PLACES (a / b))
  | fin _, _ => fin 0
  | x, fin b => infinityOfSign (x.sgn * if b < 0 then -1 else 1)
  | _, _ => nan

/-- What is behind the decimal point is cut off, towards zero. -/
def integerValue : BigNumber → BigNumber
  | fin q => fin (truncate q)
  | x => x

/-- `toFixed(dp)`: the value that is printed. -/
def toFixed (dp : ℕ) : BigNumber → BigNumber
  | fin q => fin (truncatePlaces dp q)
  | x => x

/-- `lt`: nothing is less than `NaN`, nor is `NaN` less than anything. -/
def isLessThan : BigNumber → BigNumber → Bool
  | fin a, fin b => a < b
  | negInfinity, fin _ => true
  | negInfinity, infinity => true
  | fin _, infinity => true
  | _, _ => false

def isGreaterThan (x y : BigNumber) : Bool := y.isLessThan x

/-- `eq`: `NaN` does not equal itself. -/
def isEqualTo (x y : BigNumber) : Bool := x ≠ nan ∧ x = y

def isLessThanOrEqualTo (x y : BigNumber) : Bool := x.isLessThan y || x.isEqualTo y

def isZero (x : BigNumber) : Bool := x = fin 0

/-- Nothing compares with `NaN`. -/
def comparedTo (x y : BigNumber) : Option ℤ :=
  if x = nan ∨ y = nan then none
  else if x.isLessThan y then some (-1)
  else if y.isLessThan x then some 1
  else some 0

/-- Zero is positive here; `NaN` is not. -/
def isPositive : BigNumber → Bool
  | fin q => 0 ≤ q
  | infinity => true
  | _ => false

def isNegative : BigNumber → Bool
  | fin q => q < 0
  | negInfinity => true
  | _ => false

/-- `new BigNumber(x)` for a number: the decimal it prints as. -/
def ofDouble (x : Double) : BigNumber := fin x.toDecimal

/-! ## Finite values -/

@[simp] theorem plus_fin (a b : ℚ) : (fin a).plus (fin b) = fin (a + b) := rfl

@[simp] theorem minus_fin (a b : ℚ) : (fin a).minus (fin b) = fin (a - b) := by
  rw [minus, negated, plus_fin, sub_eq_add_neg]

@[simp] theorem multipliedBy_fin (a b : ℚ) : (fin a).multipliedBy (fin b) = fin (a * b) := rfl

/-- A finite quotient, where the divisor is not zero. -/
theorem dividedBy_fin {b : ℚ} (a : ℚ) (h : b ≠ 0) :
    (fin a).dividedBy (fin b) = fin (truncatePlaces DECIMAL_PLACES (a / b)) := by
  rw [dividedBy, if_neg h]

/-- What is positive divided by zero. -/
theorem dividedBy_zero {a : ℚ} (h : 0 < a) : (fin a).dividedBy (fin 0) = infinity := by
  rw [dividedBy, if_pos rfl, sgn, if_pos h]
  rfl

@[simp] theorem integerValue_fin (q : ℚ) : (fin q).integerValue = fin (truncate q) := rfl

@[simp] theorem isLessThan_fin (a b : ℚ) : (fin a).isLessThan (fin b) = decide (a < b) := rfl

@[simp] theorem isGreaterThan_fin (a b : ℚ) : (fin a).isGreaterThan (fin b) = decide (b < a) := rfl

@[simp] theorem isEqualTo_fin (a b : ℚ) : (fin a).isEqualTo (fin b) = decide (a = b) := by
  simp [isEqualTo]

/-- Among finite values `lte` is the order of the rationals. -/
@[simp] theorem isLessThanOrEqualTo_fin (a b : ℚ) :
    (fin a).isLessThanOrEqualTo (fin b) = decide (a ≤ b) := by
  rw [isLessThanOrEqualTo, isLessThan_fin, isEqualTo_fin, ← Bool.decide_or]
  exact decide_eq_decide.mpr le_iff_lt_or_eq.symm

@[simp] theorem isLessThanOrEqualTo_ofNat (a b : ℕ) :
    (ofNat a).isLessThanOrEqualTo (ofNat b) = decide (a ≤ b) := by
  rw [ofNat, ofNat, isLessThanOrEqualTo_fin]
  exact decide_eq_decide.mpr Nat.cast_le

/-- `value.gt(0)` for an amount of units. -/
theorem isGreaterThan_zero_iff (n : ℕ) : (ofNat n).isGreaterThan (ofNat 0) = true ↔ 0 < n := by
  rw [ofNat, ofNat, isGreaterThan_fin, decide_eq_true_eq, Nat.cast_lt]

/-- An amount of units is never below zero. -/
theorem zero_isLessThanOrEqualTo (n : ℕ) :
    (ofNat 0).isLessThanOrEqualTo (ofNat n) = true := by
  rw [isLessThanOrEqualTo_ofNat, decide_eq_true_eq]
  exact Nat.zero_le n

/-- `x.comparedTo(y) < 1`, where `null` counts as zero. -/
theorem comparedTo_fin_lt_one (a b : ℚ) :
    ((fin a).comparedTo (fin b)).getD 0 < 1 ↔ a ≤ b := by
  have hnan : ¬(fin a = nan ∨ fin b = nan) := by simp
  rw [comparedTo, if_neg hnan, isLessThan_fin, isLessThan_fin]
  simp only [decide_eq_true_eq]
  split
  next hlt => simp [hlt.le]
  next hge =>
    split
    next hgt => simp [hgt]
    next hle => simp [not_lt.mp hle]

@[simp] theorem isPositive_fin (q : ℚ) : (fin q).isPositive = decide (0 ≤ q) := rfl

/-- Amounts of units add up as natural numbers. -/
theorem plus_ofNat (a b : ℕ) : (ofNat a).plus (ofNat b) = ofNat (a + b) := by
  rw [ofNat, ofNat, plus_fin, ← Nat.cast_add]
  rfl

/-- Sums may be regrouped, infinities and `NaN` among them included. -/
theorem plus_assoc (x y z : BigNumber) : (x.plus y).plus z = x.plus (y.plus z) := by
  cases x <;> cases y <;> cases z <;> simp [plus, add_assoc]

theorem zero_plus (x : BigNumber) : (ofNat 0).plus x = x := by
  cases x <;> simp [ofNat, plus]

/-- `NaN` stays `NaN` in a product. -/
theorem nan_multipliedBy (x : BigNumber) : nan.multipliedBy x = nan := by
  cases x <;> simp [multipliedBy, sgn, infinityOfSign]

/-- A product with zero is lost if the other factor is not finite. -/
theorem multipliedBy_zero (x : BigNumber) :
    x.multipliedBy (fin 0) = fin 0 ∨ x.multipliedBy (fin 0) = nan := by
  cases x with
  | fin q => exact Or.inl (by rw [multipliedBy_fin, mul_zero])
  | nan => exact Or.inr rfl
  | infinity => exact Or.inr rfl
  | negInfinity => exact Or.inr rfl

/-! ## Signs -/

@[simp] theorem isNegative_fin (q : ℚ) : (fin q).isNegative = decide (q < 0) := rfl

/-- The sign of a product is decided by `sgn`; this is what it means for
`isNegative`. -/
theorem sgn_nonneg_iff {x : BigNumber} : 0 ≤ x.sgn ↔ x.isNegative = false := by
  cases x with
  | fin q =>
    rw [isNegative_fin, decide_eq_false_iff_not, sgn]
    split
    next hpos => simp [hpos.le]
    next hpos =>
      split
      next hneg => simp [hneg]
      next hneg => simp [not_lt.mp hneg]
  | nan => simp [sgn, isNegative]
  | infinity => simp [sgn, isNegative]
  | negInfinity => simp [sgn, isNegative]

/-- The infinity of a sign that is not negative, or `NaN`. -/
theorem isNegative_infinityOfSign {s : ℤ} (h : 0 ≤ s) : (infinityOfSign s).isNegative = false := by
  unfold infinityOfSign
  rcases h.lt_or_eq with hpos | rfl
  · rw [if_pos hpos]
    rfl
  · rfl

/-- A product of values none of which is negative is not. -/
theorem isNegative_multipliedBy {x y : BigNumber} (hx : x.isNegative = false)
    (hy : y.isNegative = false) : (x.multipliedBy y).isNegative = false := by
  have hsgn := isNegative_infinityOfSign
    (mul_nonneg (sgn_nonneg_iff.mpr hx) (sgn_nonneg_iff.mpr hy))
  -- a factor that is not finite leaves the product of the signs, which is not negative
  cases x with
  | fin a =>
    cases y with
    | fin b =>
      simp only [isNegative_fin, decide_eq_false_iff_not, not_lt] at hx hy
      simpa using mul_nonneg hx hy
    | nan => exact hsgn
    | infinity => exact hsgn
    | negInfinity => exact hsgn
  | nan => exact hsgn
  | infinity => exact hsgn
  | negInfinity => exact hsgn

/-! ## Order -/

@[simp] theorem isLessThan_irrefl (x : BigNumber) : x.isLessThan x = false := by
  cases x <;> simp [isLessThan]

/-- The order is transitive: `NaN` is below and above nothing. -/
theorem isLessThan_trans {x y z : BigNumber} (hxy : x.isLessThan y = true)
    (hyz : y.isLessThan z = true) : x.isLessThan z = true := by
  cases x <;> cases y <;> cases z <;> simp_all [isLessThan]
  exact hxy.trans hyz

theorem ne_of_isLessThan {x y : BigNumber} (h : x.isLessThan y = true) : x ≠ y := by
  rintro rfl
  rw [isLessThan_irrefl] at h
  cases h

/-- No two values are below each other. -/
theorem isLessThan_asymm {x y : BigNumber} (hxy : x.isLessThan y = true) :
    ¬y.isLessThan x = true := fun hyx => ne_of_isLessThan (isLessThan_trans hxy hyx) rfl

/-- Only `NaN` escapes the linear order. -/
theorem isLessThan_or_of_lt {x y z : BigNumber} (hxz : x.isLessThan z = true) (hy : y ≠ nan) :
    x.isLessThan y = true ∨ y.isLessThan z = true := by
  -- all cases but that of three numbers are decided by the constructors
  cases x <;> cases y <;> cases z <;> simp_all [isLessThan]
  next a b c => exact lt_or_ge a b |>.imp_right (fun h => lt_of_le_of_lt h hxz)

/-- What is below something is not `NaN`. -/
theorem ne_nan_of_isLessThan_left {x y : BigNumber} (h : x.isLessThan y = true) : x ≠ nan := by
  rintro rfl
  simp [isLessThan] at h

/-- What something is below is not `NaN`. -/
theorem ne_nan_of_isLessThan_right {x y : BigNumber} (h : x.isLessThan y = true) : y ≠ nan := by
  rintro rfl
  cases x <;> simp [isLessThan] at h

/-- Values that are not `NaN` and of which none is below the other are equal. -/
theorem eq_of_not_isLessThan {x y : BigNumber} (hx : x ≠ nan) (hy : y ≠ nan)
    (hxy : x.isLessThan y = false) (hyx : y.isLessThan x = false) : x = y := by
  cases x <;> cases y <;> simp_all [isLessThan]
  next a b => exact le_antisymm hyx hxy

/-- What can still be improved on by a search that starts at `Infinity`. -/
theorem isLessThan_infinity_iff {x : BigNumber} :
    x.isLessThan infinity = true ↔ x ≠ nan ∧ x ≠ infinity := by
  cases x <;> simp [isLessThan]

/-! ## Values that are not finite -/

/-- `NaN`, or the infinity of the given sign. -/
def Lost (s : ℤ) (x : BigNumber) : Prop := x = nan ∨ x = infinityOfSign s

theorem infinityOfSign_cases (s : ℤ) :
    infinityOfSign s = infinity ∨ infinityOfSign s = negInfinity ∨ infinityOfSign s = nan := by
  unfold infinityOfSign
  split
  next => exact Or.inl rfl
  next =>
    split
    next => exact Or.inr (Or.inl rfl)
    next => exact Or.inr (Or.inr rfl)

/-- A finite summand changes nothing about a value that is lost. -/
theorem Lost.plus_fin {s : ℤ} {x : BigNumber} (hx : Lost s x) (q : ℚ) :
    Lost s (x.plus (fin q)) := by
  rcases hx with rfl | rfl
  · exact Or.inl rfl
  · unfold Lost
    -- the infinity stays, and a sign of zero has given `NaN` already
    rcases infinityOfSign_cases s with h | h | h
    · exact Or.inr (by rw [h]; rfl)
    · exact Or.inr (by rw [h]; rfl)
    · exact Or.inl (by rw [h]; rfl)

/-- The sum of two lost values of the same sign is lost. -/
theorem Lost.plus {s : ℤ} {x y : BigNumber} (hx : Lost s x) (hy : Lost s y) :
    Lost s (x.plus y) := by
  rcases hx with rfl | rfl
  · refine Or.inl ?_
    cases y <;> rfl
  -- infinities of one sign add up to themselves, and those of two signs never meet here
  · rcases hy with rfl | rfl
    · refine Or.inl ?_
      cases infinityOfSign s <;> rfl
    · unfold Lost
      rcases infinityOfSign_cases s with h | h | h
      · exact Or.inr (by rw [h]; rfl)
      · exact Or.inr (by rw [h]; rfl)
      · exact Or.inl (by rw [h]; rfl)

theorem Lost.ne_fin {s : ℤ} {x : BigNumber} (hx : Lost s x) (q : ℚ) : x ≠ fin q := by
  rcases hx with rfl | rfl
  · exact BigNumber.noConfusion
  · rcases infinityOfSign_cases s with h | h | h
    · rw [h]
      exact BigNumber.noConfusion
    · rw [h]
      exact BigNumber.noConfusion
    · rw [h]
      exact BigNumber.noConfusion

/-- What is lost to `Infinity` or `NaN` is below no bound. -/
theorem Lost.not_isLessThanOrEqualTo {s : ℤ} {x : BigNumber} (hx : Lost s x) (hs : 0 < s)
    (q : ℚ) : x.isLessThanOrEqualTo (fin q) = false := by
  rcases hx with rfl | rfl
  · rfl
  · rw [infinityOfSign, if_pos hs]
    rfl

theorem sgn_intCast (z : ℤ) : (fin z).sgn = z.sign := by
  rcases lt_trichotomy z 0 with hneg | rfl | hpos
  · have hq : (z : ℚ) < 0 := by exact_mod_cast hneg
    rw [sgn, if_neg hq.not_gt, if_pos hq, Int.sign_eq_neg_one_of_neg hneg]
  · rfl
  · have hq : (0 : ℚ) < z := by exact_mod_cast hpos
    rw [sgn, if_pos hq, Int.sign_eq_one_of_pos hpos]

/-- A whole number divided by zero: an infinity of its sign, or `NaN` for zero.
-/
theorem intCast_dividedBy_zero (z : ℤ) :
    (fin z).dividedBy (ofNat 0) = infinityOfSign z.sign := by
  rw [ofNat, Nat.cast_zero, dividedBy, if_pos rfl, sgn_intCast]

/-- Multiples of an infinity. -/
theorem lost_multipliedBy {s : ℤ} (hs : s = 1 ∨ s = -1) (n : ℕ) :
    Lost s ((ofNat n).multipliedBy (infinityOfSign s)).integerValue := by
  -- nothing times an infinity is `NaN`
  rcases Nat.eq_zero_or_pos n with rfl | hn
  · rcases hs with rfl | rfl
    · exact Or.inl rfl
    · exact Or.inl rfl
  · have hsgn : (ofNat n).sgn = 1 := by
      rw [ofNat, sgn, if_pos (by exact_mod_cast hn)]
    rcases hs with rfl | rfl
    · refine Or.inr ?_
      show (infinityOfSign ((ofNat n).sgn * 1)).integerValue = _
      rw [hsgn]
      rfl
    · refine Or.inr ?_
      show (infinityOfSign ((ofNat n).sgn * -1)).integerValue = _
      rw [hsgn]
      rfl

/-! ## Positive values -/

/-- A product of positive values is positive, if they are infinite as well. -/
theorem isGreaterThan_multipliedBy {x y : BigNumber} (hx : x.isGreaterThan (fin 0) = true)
    (hy : y.isGreaterThan (fin 0) = true) : (x.multipliedBy y).isGreaterThan (fin 0) = true := by
  -- what is positive is a positive number or `Infinity`, and products of these are too
  cases x with
  | fin a =>
    rw [isGreaterThan_fin, decide_eq_true_iff] at hx
    cases y with
    | fin b =>
      rw [isGreaterThan_fin, decide_eq_true_iff] at hy
      simpa using mul_pos hx hy
    | infinity => simp [multipliedBy, sgn, hx, infinityOfSign, isGreaterThan, isLessThan]
    | nan => simp [isGreaterThan, isLessThan] at hy
    | negInfinity => simp [isGreaterThan, isLessThan] at hy
  | infinity =>
    cases y with
    | fin b =>
      rw [isGreaterThan_fin, decide_eq_true_iff] at hy
      simp [multipliedBy, sgn, hy, infinityOfSign, isGreaterThan, isLessThan]
    | infinity => rfl
    | nan => simp [isGreaterThan, isLessThan] at hy
    | negInfinity => simp [isGreaterThan, isLessThan] at hy
  | nan => simp [isGreaterThan, isLessThan] at hx
  | negInfinity => simp [isGreaterThan, isLessThan] at hx

/-! Positive multiples keep what is not finite, so they calculate as usual. -/

/-- Scaling by a positive number leaves what is not finite as it is. -/
theorem multipliedBy_of_pos (x : BigNumber) {p : ℚ} (hp : 0 < p) :
    x.multipliedBy (fin p) = match x with
      | fin q => fin (q * p)
      | lost => lost := by
  have hsgn : (fin p).sgn = 1 := if_pos hp
  cases x with
  | fin q => rfl
  | nan => rw [nan_multipliedBy]
  | infinity =>
    show infinityOfSign (1 * (fin p).sgn) = infinity
    rw [hsgn]
    rfl
  | negInfinity =>
    show infinityOfSign (-1 * (fin p).sgn) = negInfinity
    rw [hsgn]
    rfl

theorem multipliedBy_one (x : BigNumber) : x.multipliedBy (fin 1) = x := by
  rw [multipliedBy_of_pos x one_pos]
  cases x with
  | fin q => exact congrArg fin (mul_one q)
  | nan => rfl
  | infinity => rfl
  | negInfinity => rfl

/-- Two scalings are one. -/
theorem multipliedBy_multipliedBy (x : BigNumber) {p r : ℚ} (hp : 0 < p) (hr : 0 < r) :
    (x.multipliedBy (fin p)).multipliedBy (fin r) = x.multipliedBy (fin (p * r)) := by
  rw [multipliedBy_of_pos x hp, multipliedBy_of_pos _ hr, multipliedBy_of_pos x (mul_pos hp hr)]
  cases x with
  | fin q => exact congrArg fin (mul_assoc q p r)
  | nan => rfl
  | infinity => rfl
  | negInfinity => rfl

/-- Scaled values add up as their factors do. -/
theorem multipliedBy_plus (x : BigNumber) {p r : ℚ} (hp : 0 < p) (hr : 0 < r) :
    (x.multipliedBy (fin p)).plus (x.multipliedBy (fin r)) = x.multipliedBy (fin (p + r)) := by
  rw [multipliedBy_of_pos x hp, multipliedBy_of_pos x hr, multipliedBy_of_pos x (add_pos hp hr)]
  cases x with
  | fin q => exact congrArg fin (mul_add q p r).symm
  | nan => rfl
  | infinity => rfl
  | negInfinity => rfl

end BigNumber

/-! ## Numbers

What `toNumber` yields: a double, or one of the three special values. -/

/-- A number of the language, as far as the services look at it: a decimal that
was read from its printed form, or one of the values that are not finite. -/
inductive Number where
  | nan
  | infinity
  | negInfinity
  | fin (x : Double)
  deriving DecidableEq

namespace Number

/-- `x > y` on numbers. -/
def gt : Number → Number → Bool
  | fin x, fin y => y.val < x.val
  | infinity, fin _ => true
  | infinity, negInfinity => true
  | fin _, negInfinity => true
  | _, _ => false

end Number

/-- `toNumber()`. -/
def BigNumber.toNumber : BigNumber → Number
  | .nan => .nan
  | .infinity => .infinity
  | .negInfinity => .negInfinity
  | .fin q => .fin (Double.ofRat q)

end MxExchange.Num
