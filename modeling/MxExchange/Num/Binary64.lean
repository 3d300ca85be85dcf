import MxExchange.Num.Rounding

/-!
# Doubles as rationals

A finite IEEE-754 double is the rational it denotes, and an operation on
doubles is the exact operation followed by `roundDouble`: round to nearest,
ties to even, 53 significant bits, nothing below `2 ^ -1074`. Overflow is
left out (the exponent is unbounded above): the programs modelled on top of
this compute with percentages.

Three facts carry everything: a rounded value is a double
(`roundDouble_isDouble`), no double is closer (`roundDouble_nearest`), and
hence rounding is monotone (`roundDouble_mono`) and fixes doubles
(`roundDouble_of_isDouble`).

A double is handed to decimal code through its printed form, the *shortest*
decimal that rounds back to it (`Double.toDecimal`), not through its exact
binary value: the double nearest to one tenth prints as `0.1`. Nothing else
is used of the printed form than that it rounds back (`roundDouble_toDecimal`),
which bounds it by any double above and below.
-/

namespace MxExchange.Num

/-! ## Representable values -/

/-- A significand below `2 ^ 53` in absolute value, and an exponent that is
not below the smallest one. -/
def IsDouble (q : ℚ) : Prop :=
  ∃ m e : ℤ, |m| < 2 ^ 53 ∧ -1074 ≤ e ∧ q = m * 2 ^ e

/-- Whole numbers below `2 ^ 53` are doubles. -/
theorem isDouble_intCast {z : ℤ} (h : |z| < 2 ^ 53) : IsDouble z :=
  ⟨z, 0, h, by norm_num, by simp⟩

/-- The gap under one: a double below it misses it by at least its last bit. -/
theorem isDouble_le_of_lt_one {q : ℚ} (hq : IsDouble q) (h : q < 1) :
    q ≤ 1 - 2 ^ (-53 : ℤ) := by
  obtain ⟨m, e, hm, -, rfl⟩ := hq
  rcases le_or_gt 0 e with he | he
  · -- an integer below one
    lift e to ℕ using he
    have hz : m * 2 ^ e ≤ 0 := by
      have h' : ((m * 2 ^ e : ℤ) : ℚ) < 1 := by push_cast; exact_mod_cast h
      have : m * 2 ^ e < 1 := by exact_mod_cast h'
      omega
    have hzq : (m : ℚ) * 2 ^ (e : ℤ) ≤ 0 := by exact_mod_cast hz
    have hbit : (2 : ℚ) ^ (-53 : ℤ) ≤ 1 := by norm_num
    linarith
  · obtain ⟨k, rfl⟩ : ∃ k : ℕ, e = -k := ⟨e.natAbs, by omega⟩
    have hk : (0 : ℚ) < 2 ^ k := by positivity
    rw [zpow_neg, zpow_natCast, ← div_eq_mul_inv] at h ⊢
    rcases le_or_gt k 53 with hle | hgt
    · -- the significand is below `2 ^ k`
      rw [div_lt_one hk] at h
      have hm1 : m + 1 ≤ 2 ^ k := by
        have : m < 2 ^ k := by exact_mod_cast h
        omega
      have hmq : (m : ℚ) + 1 ≤ 2 ^ k := by exact_mod_cast hm1
      have hinv : (2 : ℚ) ^ (-53 : ℤ) ≤ 1 / 2 ^ k := by
        rw [one_div, ← zpow_natCast, ← zpow_neg]
        exact zpow_le_zpow_right₀ (by norm_num) (by omega)
      have hsub : (m : ℚ) / 2 ^ k ≤ 1 - 1 / 2 ^ k := by
        rw [one_sub_div hk.ne']
        exact div_le_div_of_nonneg_right (by linarith) hk.le
      linarith
    · -- at most one half
      have hmq : (m : ℚ) ≤ 2 ^ 53 := by exact_mod_cast (abs_lt.mp hm).2.le
      have hpow : (2 : ℚ) ^ 54 ≤ 2 ^ k := pow_le_pow_right₀ (by norm_num) hgt
      have hhalf : (m : ℚ) / 2 ^ k ≤ 1 / 2 := by
        rw [div_le_iff₀ hk]
        linarith
      have hbit : (2 : ℚ) ^ (-53 : ℤ) ≤ 1 / 2 := by norm_num
      linarith

/-- Exponent of the last bit kept when rounding `q`. -/
def unitExp (q : ℚ) : ℤ := max (Int.log 2 |q| - 52) (-1074)

/-- The double nearest to `q`, a tie going to the even significand. -/
def roundDouble (q : ℚ) : ℚ := roundHalfEven (q / 2 ^ unitExp q) * 2 ^ unitExp q

theorem unit_pos (e : ℤ) : (0 : ℚ) < 2 ^ e := zpow_pos (by norm_num) e

@[simp] theorem roundDouble_zero : roundDouble 0 = 0 := by
  simp [roundDouble, roundHalfEven]

/-- In units of its last kept bit a value has at most 53 bits. -/
theorem abs_div_unit_lt (q : ℚ) : |q / 2 ^ unitExp q| < 2 ^ 53 := by
  rw [abs_div, abs_of_pos (unit_pos _), div_lt_iff₀ (unit_pos _)]
  have hlog : |q| < 2 ^ (Int.log 2 |q| + 1) := by
    exact_mod_cast Int.lt_zpow_succ_log_self (by norm_num : 1 < 2) |q|
  have hexp : Int.log 2 |q| + 1 ≤ 53 + unitExp q := by
    have := le_max_left (Int.log 2 |q| - 52) (-1074)
    unfold unitExp
    omega
  calc |q| < 2 ^ (Int.log 2 |q| + 1) := hlog
    _ ≤ (2 : ℚ) ^ (53 + unitExp q) := zpow_le_zpow_right₀ (by norm_num) hexp
    _ = 2 ^ 53 * 2 ^ unitExp q := by
      rw [zpow_add₀ (by norm_num : (2 : ℚ) ≠ 0)]
      norm_cast

/-- What rounding yields is a double. A carry out of the top bit renormalises. -/
theorem roundDouble_isDouble (q : ℚ) : IsDouble (roundDouble q) := by
  have hlt := abs_lt.mp (abs_div_unit_lt q)
  have hfl : ⌊q / 2 ^ unitExp q⌋ < 2 ^ 53 := by
    rw [Int.floor_lt]
    exact_mod_cast hlt.2
  have hfg : -(2 ^ 53 : ℤ) ≤ ⌊q / 2 ^ unitExp q⌋ := by
    rw [Int.le_floor]
    exact_mod_cast hlt.1.le
  -- rounding up may give the significand one bit too many, and then the exponent takes
  -- it
  have hbounds : -(2 ^ 53 : ℤ) ≤ roundHalfEven (q / 2 ^ unitExp q) ∧
      roundHalfEven (q / 2 ^ unitExp q) ≤ 2 ^ 53 := by
    rcases roundHalfEven_cases (q / 2 ^ unitExp q) with ⟨he, -⟩ | ⟨he, -⟩ <;>
      rw [he] <;> omega
  have hmin : -1074 ≤ unitExp q := le_max_right _ _
  have hcarry : ∀ s : ℤ, (s : ℚ) * 2 ^ 53 * 2 ^ unitExp q
      = ((s * 2 ^ 52 : ℤ) : ℚ) * 2 ^ (unitExp q + 1) := by
    intro s
    rw [zpow_add₀ (by norm_num : (2 : ℚ) ≠ 0)]
    push_cast
    ring
  unfold roundDouble
  rcases eq_or_ne (roundHalfEven (q / 2 ^ unitExp q)) (2 ^ 53) with htop | htop
  · refine ⟨2 ^ 52, unitExp q + 1, by norm_num, by omega, ?_⟩
    have := hcarry 1
    rw [htop]
    push_cast at this ⊢
    linarith
  · rcases eq_or_ne (roundHalfEven (q / 2 ^ unitExp q)) (-2 ^ 53) with hbot | hbot
    · refine ⟨-2 ^ 52, unitExp q + 1, by norm_num, by omega, ?_⟩
      have := hcarry (-1)
      rw [hbot]
      push_cast at this ⊢
      linarith
    · exact ⟨_, unitExp q, by rw [abs_lt]; omega, hmin, rfl⟩

/-! ## Rounding to nearest -/

/-- No multiple of the unit of `q` is closer to `q` than its rounding. -/
theorem roundDouble_nearest_grid (q : ℚ) (z : ℤ) :
    |q - roundDouble q| ≤ |q - z * 2 ^ unitExp q| := by
  have hu := unit_pos (unitExp q)
  have hscale : ∀ y : ℚ, |q - y * 2 ^ unitExp q|
      = |q / 2 ^ unitExp q - y| * 2 ^ unitExp q := by
    intro y
    rw [← abs_of_pos hu, ← abs_mul, abs_of_pos hu, sub_mul, div_mul_cancel₀ _ hu.ne']
  unfold roundDouble
  rw [hscale, hscale]
  exact mul_le_mul_of_nonneg_right (roundHalfEven_nearest _ z) hu.le

/-- A double whose last bit is not finer than the unit is on the grid. -/
theorem exists_grid {m e f : ℤ} (h : e ≤ f) :
    ∃ z : ℤ, (m : ℚ) * 2 ^ f = z * 2 ^ e := by
  refine ⟨m * 2 ^ (f - e).toNat, ?_⟩
  have hsplit : (2 : ℚ) ^ f = 2 ^ (f - e).toNat * 2 ^ e := by
    rw [← zpow_natCast, ← zpow_add₀ (by norm_num : (2 : ℚ) ≠ 0)]
    congr 1
    omega
  rw [hsplit]
  push_cast
  ring

/-- A value with bits to spare is at least the power of two its unit stands for. -/
theorem unit_le_abs {q : ℚ} (hq : q ≠ 0) (h : -1074 < unitExp q) :
    (2 : ℚ) ^ 52 * 2 ^ unitExp q ≤ |q| := by
  have hnorm : unitExp q = Int.log 2 |q| - 52 := by
    rcases max_choice (Int.log 2 |q| - 52) (-1074) with hm | hm
    · exact hm
    · exact absurd (hm ▸ h : (-1074 : ℤ) < -1074) (lt_irrefl _)
  have hle := Int.zpow_log_le_self (b := 2) (by norm_num) (abs_pos.mpr hq)
  have hsplit : (2 : ℚ) ^ 52 * 2 ^ unitExp q = 2 ^ Int.log 2 |q| := by
    rw [← zpow_natCast, ← zpow_add₀ (by norm_num : (2 : ℚ) ≠ 0), hnorm]
    congr 1
    norm_num
  rw [hsplit]
  exact_mod_cast hle

/-- A double with a bit finer than the unit is below that power of two. -/
theorem abs_le_unit {m e f : ℤ} (hm : |m| < 2 ^ 53) (h : f < e) :
    |(m : ℚ) * 2 ^ f| ≤ 2 ^ 52 * 2 ^ e := by
  have hmq : |(m : ℚ)| ≤ 2 ^ 53 := by exact_mod_cast hm.le
  have hfu : (2 : ℚ) ^ f ≤ 2 ^ (e - 1) := zpow_le_zpow_right₀ (by norm_num) (by omega)
  have hhalf : (2 : ℚ) ^ (e - 1) = 2 ^ e / 2 := by
    rw [zpow_sub₀ (by norm_num : (2 : ℚ) ≠ 0), zpow_one]
  rw [abs_mul, abs_of_pos (unit_pos f)]
  calc |(m : ℚ)| * 2 ^ f ≤ 2 ^ 53 * (2 ^ e / 2) := by
        rw [← hhalf]
        exact mul_le_mul hmq hfu (unit_pos f).le (by norm_num)
    _ = 2 ^ 52 * 2 ^ e := by ring

/-- Between `r` and a larger `q` of either sign lies the point `c` of that
sign: it is at most as far from `q` as `r` is. -/
theorem exists_between_of_abs_le {q r c : ℚ} (hr : |r| ≤ c) (hc : c ≤ |q|) :
    |q - c| ≤ |q - r| ∨ |q - -c| ≤ |q - r| := by
  have htri : |q| - |r| ≤ |q - r| := abs_sub_abs_le_abs_sub q r
  rcases le_or_gt 0 q with hpos | hneg
  · rw [abs_of_nonneg hpos] at hc htri
    left
    rw [abs_of_nonneg (by linarith : 0 ≤ q - c)]
    linarith
  · rw [abs_of_neg hneg] at hc htri
    right
    rw [abs_of_nonpos (by linarith : q - -c ≤ 0)]
    linarith

/-- No double is closer to `q` than its rounding. -/
theorem roundDouble_nearest (q : ℚ) {r : ℚ} (hr : IsDouble r) :
    |q - roundDouble q| ≤ |q - r| := by
  obtain ⟨m, f, hm, hf, rfl⟩ := hr
  rcases le_or_gt (unitExp q) f with hle | hlt
  · obtain ⟨z, hz⟩ := exists_grid (m := m) hle
    rw [hz]
    exact roundDouble_nearest_grid q z
  · rcases eq_or_ne q 0 with rfl | hq
    · rw [roundDouble_zero, sub_self, abs_zero]
      exact abs_nonneg _
    · -- finer than the grid, hence below the power of two under `|q|`
      have hpow : ∀ s : ℤ, |q - roundDouble q| ≤ |q - (s * 2 ^ 52) * 2 ^ unitExp q| := by
        intro s
        have := roundDouble_nearest_grid q (s * 2 ^ 52)
        rwa [Int.cast_mul, Int.cast_pow, Int.cast_ofNat] at this
      rcases exists_between_of_abs_le (abs_le_unit hm hlt) (unit_le_abs hq (by omega)) with h | h
      · refine le_trans ?_ h
        have := hpow 1
        rwa [Int.cast_one, one_mul] at this
      · refine le_trans ?_ h
        have := hpow (-1)
        rwa [Int.cast_neg, Int.cast_one, neg_mul, one_mul, neg_mul] at this

/-- A double is its own rounding. -/
theorem roundDouble_of_isDouble {q : ℚ} (h : IsDouble q) : roundDouble q = q := by
  have h0 := roundDouble_nearest q h
  rw [sub_self, abs_zero] at h0
  have h1 := abs_nonpos_iff.mp h0
  linarith

/-- Rounding preserves the order: two values rounded past each other would
both have to sit on the midpoint. -/
theorem roundDouble_mono {p q : ℚ} (h : p ≤ q) : roundDouble p ≤ roundDouble q := by
  rcases eq_or_lt_of_le h with rfl | hlt
  · exact le_rfl
  · by_contra hcon
    have hcross := not_le.mp hcon
    have hp := roundDouble_nearest p (roundDouble_isDouble q)
    have hq := roundDouble_nearest q (roundDouble_isDouble p)
    have hp' := sq_le_sq.mpr hp
    have hq' := sq_le_sq.mpr hq
    nlinarith

/-- Rounding does not change the sign. -/
theorem roundDouble_nonneg {q : ℚ} (h : 0 ≤ q) : 0 ≤ roundDouble q := by
  have := roundDouble_mono h
  rwa [roundDouble_zero] at this

/-- A strictly positive value that rounds to zero is below every positive
double, in particular below every gap between doubles. -/
theorem roundDouble_pos_of_isDouble_le {q r : ℚ} (hr : IsDouble r) (h0 : 0 < r) (h : r ≤ q) :
    0 < roundDouble q := by
  have := roundDouble_mono h
  rw [roundDouble_of_isDouble hr] at this
  linarith

/-! ## The type -/

/-- A finite double. -/
@[ext] structure Double where
  val : ℚ
  isDouble : IsDouble val

namespace Double

instance : DecidableEq Double := fun x y =>
  decidable_of_iff (x.val = y.val) Double.ext_iff.symm

/-- The double a decimal literal denotes. -/
def ofRat (q : ℚ) : Double := ⟨roundDouble q, roundDouble_isDouble q⟩

/-- The operators on numbers: exact, then rounded. -/
def mul (x y : Double) : Double := ofRat (x.val * y.val)

def sub (x y : Double) : Double := ofRat (x.val - y.val)

def div (x y : Double) : Double := ofRat (x.val / y.val)

/-- A whole number below `2 ^ 53` is itself as a number. -/
theorem ofRat_intCast_val {z : ℤ} (h : |z| < 2 ^ 53) : (ofRat (z : ℚ)).val = z :=
  roundDouble_of_isDouble (isDouble_intCast h)

theorem mul_val_nonneg {x y : Double} (hx : 0 ≤ x.val) (hy : 0 ≤ y.val) :
    0 ≤ (x.mul y).val :=
  roundDouble_nonneg (mul_nonneg hx hy)

theorem div_val_nonneg {x y : Double} (hx : 0 ≤ x.val) (hy : 0 ≤ y.val) :
    0 ≤ (x.div y).val :=
  roundDouble_nonneg (div_nonneg hx hy)

end Double

/-! ## The printed form -/

/-- A decimal with `k` significant digits that rounds to `x`, if there is
one: the nearest first, then the other neighbour. -/
def digitsAt (x : ℚ) (k : ℕ) : Option ℚ :=
  let unit := (10 : ℚ) ^ (Int.log 10 x + 1 - k)
  ([roundHalfEven (x / unit), ⌊x / unit⌋, ⌊x / unit⌋ + 1].map fun s => (s : ℚ) * unit).find?
    fun d => roundDouble d = x

/-- The shortest decimal that rounds to `x`. Seventeen digits always
suffice, so the default is never taken. -/
def shortestDecimal (x : ℚ) : ℚ :=
  ((List.range 17).findSome? fun k => digitsAt x (k + 1)).getD x

/-- Digits are taken only if they read back as the number. -/
theorem roundDouble_of_digitsAt {x d : ℚ} {k : ℕ} (h : digitsAt x k = some d) :
    roundDouble d = x := by
  have := List.find?_some h
  simpa using this

/-- Reading back what is printed gives the number. -/
theorem roundDouble_shortestDecimal {x : ℚ} (h : IsDouble x) :
    roundDouble (shortestDecimal x) = x := by
  unfold shortestDecimal
  cases hf : (List.range 17).findSome? fun k => digitsAt x (k + 1) with
  | none => exact roundDouble_of_isDouble h
  | some d =>
    obtain ⟨k, -, hk⟩ := List.exists_of_findSome?_eq_some hf
    exact roundDouble_of_digitsAt hk

namespace Double

/-- `String(x)`, read as a decimal. -/
def toDecimal (x : Double) : ℚ :=
  if 0 ≤ x.val then shortestDecimal x.val else -shortestDecimal (-x.val)

/-- The same for a number as a value of the decimal library. -/
theorem roundDouble_toDecimal {x : Double} (h : 0 ≤ x.val) :
    roundDouble x.toDecimal = x.val := by
  rw [toDecimal, if_pos h]
  exact roundDouble_shortestDecimal x.isDouble

/-- A positive number prints as a positive decimal. -/
theorem toDecimal_pos {x : Double} (h : 0 < x.val) : 0 < x.toDecimal := by
  by_contra hcon
  have := roundDouble_mono (not_lt.mp hcon)
  rw [roundDouble_toDecimal h.le, roundDouble_zero] at this
  linarith

theorem toDecimal_of_val_eq_zero {x : Double} (h : x.val = 0) : x.toDecimal = 0 := by
  rw [toDecimal, if_pos h.ge, h]
  decide +kernel

/-- Multiplying by one is exact. -/
theorem one_mul (x : Double) : (ofRat 1).mul x = x := by
  have hone : (ofRat 1).val = 1 := by
    have := ofRat_intCast_val (z := 1) (by norm_num)
    simpa using this
  ext
  show roundDouble ((ofRat 1).val * x.val) = x.val
  rw [hone, MulOneClass.one_mul, roundDouble_of_isDouble x.isDouble]

theorem toDecimal_zero_mul (x : Double) : ((ofRat 0).mul x).toDecimal = 0 := by
  apply toDecimal_of_val_eq_zero
  show roundDouble (roundDouble 0 * x.val) = 0
  rw [roundDouble_zero, zero_mul, roundDouble_zero]

/-- Printing does not change the sign. -/
theorem toDecimal_nonneg {x : Double} (h : 0 ≤ x.val) : 0 ≤ x.toDecimal := by
  rcases h.eq_or_lt with h0 | hpos
  · exact (toDecimal_of_val_eq_zero h0.symm).ge
  · exact (toDecimal_pos hpos).le

example : (ofRat (1 / 10)).toDecimal = 1 / 10 := by decide +kernel

end Double

end MxExchange.Num
