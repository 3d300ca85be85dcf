import MxExchange.AutoRouter.Service
import MxExchange.Num.Cutoffs

/-!
# Two checks of a spread

A swap that loses too much of its value is stopped, by `isSpreadTooBig` for one
pair and by `getTokenPriceDeviationPercent` hop by hop for a route. The first
multiplies either value by what `MAX_SWAP_SPREAD` leaves of one, as that prints;
the second takes the quotient, at twenty decimals, from one and compares doubles.

Both look at the share that the smaller value is of the larger one, and stop what
is below a cutoff (`isSpreadTooBig_iff`, `isReported_iff`). But the cutoffs are not
the same number, so the checks accept the same hops as long as no share lies in
between (`spreadChecked_iff`).
-/

namespace MxExchange.AutoRouter

open MxExchange.Num MxExchange.Pair MxExchange.Collections

/-- `pair.utils.ts`. -/
def isSpreadTooBig (MAX_SWAP_SPREAD : Double) (amountInUSD amountOutUSD : BigNumber) : Bool :=
  let share := BigNumber.ofDouble ((Double.ofRat 1).sub MAX_SWAP_SPREAD)
  amountOutUSD.isLessThan (amountInUSD.multipliedBy share) ||
    amountInUSD.isLessThan (amountOutUSD.multipliedBy share)

/-! ## A hop -/

/-- A step of a route: what goes in, and what comes out. -/
structure RouteHop where
  tokenInID : TokenID
  amountIn : BigNumber
  tokenOutID : TokenID
  amountOut : BigNumber

/-- The hops of a route with the amounts at both their ends. -/
def routeHops (tokenRoute : List TokenID) (intermediaryAmounts : List BigNumber) :
    List RouteHop :=
  (hops tokenRoute).zipIdx.map fun (hop, index) =>
    ⟨hop.1, intermediaryAmounts[index]?.getD .nan, hop.2,
      intermediaryAmounts[index + 1]?.getD .nan⟩

namespace RouteHop

/-- What goes into a hop, in dollars. -/
def amountInUSD (env : Env) (hop : RouteHop) : BigNumber :=
  computeValueUSD hop.amountIn (getTokenMetadata env hop.tokenInID).decimals
    (env.tokenPriceUSD hop.tokenInID)

/-- What comes out of it, in dollars. -/
def amountOutUSD (env : Env) (hop : RouteHop) : BigNumber :=
  computeValueUSD hop.amountOut (getTokenMetadata env hop.tokenOutID).decimals
    (env.tokenPriceUSD hop.tokenOutID)

/-- The check of a route, on this hop alone. -/
def isReported (env : Env) (hop : RouteHop) : Bool :=
  (getTokenPriceDeviationPercent env [hop.tokenInID, hop.tokenOutID]
    [hop.amountIn, hop.amountOut]).isSome

/-- The check of the utility, on this hop. -/
def isTooBig (env : Env) (hop : RouteHop) : Bool :=
  isSpreadTooBig env.MAX_SWAP_SPREAD (hop.amountInUSD env) (hop.amountOutUSD env)

/-- One side is worth nothing, the other something. -/
def IsOneSided (env : Env) (hop : RouteHop) : Prop :=
  (hop.amountInUSD env = .fin 0 ∧ (hop.amountOutUSD env).isGreaterThan (.fin 0) = true) ∨
    (hop.amountOutUSD env = .fin 0 ∧ (hop.amountInUSD env).isGreaterThan (.fin 0) = true)

end RouteHop

/-- The checks agree on a route and on its hops, and one-sided hops are stopped. -/
structure SpreadChecked (env : Env) (tokenRoute : List TokenID)
    (intermediaryAmounts : List BigNumber) : Prop where
  route : (getTokenPriceDeviationPercent env tokenRoute intermediaryAmounts).isSome = true ↔
    ∃ hop ∈ routeHops tokenRoute intermediaryAmounts, hop.isTooBig env = true
  hop : ∀ hop ∈ routeHops tokenRoute intermediaryAmounts,
    (hop.isReported env = true ↔ hop.isTooBig env = true)
  oneSided : ∀ hop ∈ routeHops tokenRoute intermediaryAmounts, hop.IsOneSided env →
    hop.isReported env = true

/-! ## The share of the smaller value -/

/-- What the smaller of two values is of the larger one, if they compare. -/
def valueShare : BigNumber → BigNumber → Option ℚ
  | .fin a, .fin b => if a = 0 ∧ b = 0 then none else some (min a b / max a b)
  | .fin _, .infinity => some 0
  | .infinity, .fin _ => some 0
  | _, _ => none

section Share

variable {M : Double} {x y : BigNumber} {a b c q : ℚ}

/-- A share is between zero and one. -/
theorem valueShare_bounds (hx : x.isNegative = false) (hy : y.isNegative = false)
    (h : valueShare x y = some q) : 0 ≤ q ∧ q ≤ 1 := by
  cases x with
  | nan => cases y <;> cases h
  | negInfinity => cases y <;> cases h
  | infinity =>
    cases y with
    | fin b =>
      cases h
      exact ⟨le_refl 0, zero_le_one⟩
    | nan => cases h
    | infinity => cases h
    | negInfinity => cases h
  | fin a =>
    cases y with
    | nan => cases h
    | negInfinity => cases h
    | infinity =>
      cases h
      exact ⟨le_refl 0, zero_le_one⟩
    | fin b =>
      rw [BigNumber.isNegative_fin, decide_eq_false_iff_not, not_lt] at hx hy
      -- the smaller value over the larger one, unless both are zero
      rw [valueShare] at h
      split at h
      · cases h
      · obtain rfl := Option.some.inj h
        have hmax : 0 ≤ max a b := le_max_of_le_left hx
        exact ⟨div_nonneg (le_min hx hy) hmax, div_le_one_of_le₀ min_le_max hmax⟩

/-- Without a price there is no share. -/
theorem valueShare_of_nan (h : x = .nan ∨ y = .nan) : valueShare x y = none := by
  rcases h with rfl | rfl
  · cases y <;> rfl
  · cases x <;> rfl

theorem exists_some_lt_iff : (∃ q', some q = some q' ∧ q' < c) ↔ q < c := by
  constructor
  · rintro ⟨q', hq', hlt⟩
    obtain rfl := Option.some.inj hq'
    exact hlt
  · intro hlt
    exact ⟨q, rfl, hlt⟩

/-! ## What a route reports -/

/-- The smaller value is the dividend. -/
def deviation (amountInUSD amountOutUSD : BigNumber) : BigNumber :=
  if amountInUSD.isLessThan amountOutUSD then
    (BigNumber.fin 1).minus (amountInUSD.dividedBy amountOutUSD)
  else (BigNumber.fin 1).minus (amountOutUSD.dividedBy amountInUSD)

/-- What is below it is reported on a route. -/
def reportedCutoff (M : Double) : ℚ := cutoffAbove BigNumber.DECIMAL_PLACES M

/-- The deviation is what the cut-off share leaves of one. -/
theorem deviation_fin (ha : 0 ≤ a) (hb : 0 ≤ b) (hne : ¬(a = 0 ∧ b = 0)) :
    deviation (.fin a) (.fin b) =
      .fin (1 - truncatePlaces BigNumber.DECIMAL_PLACES (min a b / max a b)) := by
  rw [deviation, BigNumber.isLessThan_fin]
  by_cases hlt : a < b
  · rw [if_pos (decide_eq_true hlt), BigNumber.dividedBy_fin a (ne_of_gt (ha.trans_lt hlt)),
      BigNumber.minus_fin, min_eq_left hlt.le, max_eq_right hlt.le]
  · have hle : b ≤ a := not_lt.mp hlt
    have hne' : a ≠ 0 := fun h0 => hne ⟨h0, le_antisymm (h0 ▸ hle) hb⟩
    rw [if_neg (by simpa using hle), BigNumber.dividedBy_fin b hne', BigNumber.minus_fin,
      min_eq_right hle, max_eq_left hle]

/-- The same for values that may be infinite. -/
theorem deviation_eq (hx : x.isNegative = false) (hy : y.isNegative = false) :
    deviation x y = match valueShare x y with
      | some q => .fin (1 - truncatePlaces BigNumber.DECIMAL_PLACES q)
      | none => .nan := by
  have hone : (BigNumber.fin 1).minus (.fin 0) =
      .fin (1 - truncatePlaces BigNumber.DECIMAL_PLACES 0) := by
    rw [BigNumber.minus_fin, truncatePlaces_zero]
  cases x with
  | nan => cases y <;> rfl
  | negInfinity => cases hx
  | infinity =>
    cases y with
    | nan => rfl
    | negInfinity => cases hy
    | infinity => rfl
    | fin b => exact hone
  | fin a =>
    cases y with
    | nan => rfl
    | negInfinity => cases hy
    | infinity => exact hone
    | fin b =>
      rw [BigNumber.isNegative_fin, decide_eq_false_iff_not, not_lt] at hx hy
      rw [valueShare]
      by_cases hzero : a = 0 ∧ b = 0
      · rw [if_pos hzero, hzero.1, hzero.2]
        rfl
      · rw [if_neg hzero]
        exact deviation_fin hx hy hzero

/-- The deviation is reported if the share is below the cutoff of the report. -/
theorem deviation_gt_iff (hx : x.isNegative = false) (hy : y.isNegative = false) :
    (deviation x y).toNumber.gt (.fin M) = true ↔
      ∃ q, valueShare x y = some q ∧ q < reportedCutoff M := by
  rw [deviation_eq hx hy]
  cases hshare : valueShare x y with
  | none =>
    refine iff_of_false Bool.false_ne_true ?_
    rintro ⟨q, hq, -⟩
    cases hq
  | some q =>
    obtain ⟨h0, h1⟩ := valueShare_bounds hx hy hshare
    have hgt :
        (BigNumber.fin (1 - truncatePlaces BigNumber.DECIMAL_PLACES q)).toNumber.gt (.fin M)
            = true ↔
          M.val < roundDouble (1 - truncatePlaces BigNumber.DECIMAL_PLACES q) :=
      decide_eq_true_iff
    rw [hgt, lt_roundDouble_sub_iff h0 h1, exists_some_lt_iff, reportedCutoff]

/-- A spread of one or more is never reported. -/
theorem zero_lt_reportedCutoff_iff : 0 < reportedCutoff M ↔ M.val < 1 := by
  rw [reportedCutoff, ← lt_roundDouble_sub_iff (le_refl 0) zero_le_one, truncatePlaces_zero,
    sub_zero]
  have hone : roundDouble 1 = 1 := by
    have h := roundDouble_of_isDouble (isDouble_intCast (z := 1) (by norm_num))
    rwa [Int.cast_one] at h
  rw [hone]

/-! ## What is stopped on one pair -/

/-- What is below it is stopped on one pair: `1 - MAX_SWAP_SPREAD`, printed. -/
def tooBigCutoff (M : Double) : ℚ := ((Double.ofRat 1).sub M).toDecimal

/-- An infinite value times a positive factor is above every finite one. -/
theorem isLessThan_mul_infinity (a c : ℚ) :
    (BigNumber.fin a).isLessThan (BigNumber.infinity.multipliedBy (.fin c)) = true ↔ 0 < c := by
  have hsign : BigNumber.infinity.multipliedBy (.fin c) =
      BigNumber.infinityOfSign (BigNumber.fin c).sgn := by
    show BigNumber.infinityOfSign (1 * (BigNumber.fin c).sgn) = _
    rw [Int.one_mul]
  rw [hsign, BigNumber.sgn]
  by_cases hpos : 0 < c
  · rw [if_pos hpos]
    exact iff_of_true rfl hpos
  · rw [if_neg hpos]
    refine iff_of_false ?_ hpos
    by_cases hneg : c < 0
    · rw [if_pos hneg]
      exact Bool.false_ne_true
    · rw [if_neg hneg]
      exact Bool.false_ne_true

theorem infinity_not_isLessThan (x : BigNumber) : BigNumber.infinity.isLessThan x = false := by
  cases x <;> rfl

theorem not_isLessThan_nan (x : BigNumber) : x.isLessThan .nan = false := by
  cases x <;> rfl

/-- Of the two comparisons one is about the smaller value and decides. -/
theorem lt_mul_or_lt_mul_iff (ha : 0 ≤ a) (hab : a ≤ b) (hb : 0 < b) :
    b < a * c ∨ a < b * c ↔ a / b < c := by
  rw [div_lt_iff₀' hb]
  constructor
  · rintro (h | h)
    · -- the larger value is below a multiple of the smaller one, so the smaller
      -- one is below that multiple of the larger one
      have hc : 0 < c := pos_of_mul_pos_right (hb.trans h) ha
      exact (hab.trans_lt h).trans_le (mul_le_mul_of_nonneg_right hab hc.le)
    · exact h
  · exact Or.inr

/-- The two comparisons in terms of the share. -/
theorem lt_mul_or_iff_valueShare (ha : 0 ≤ a) (hb : 0 ≤ b) :
    b < a * c ∨ a < b * c ↔ ∃ q, valueShare (.fin a) (.fin b) = some q ∧ q < c := by
  rw [valueShare]
  by_cases hzero : a = 0 ∧ b = 0
  · rw [if_pos hzero, hzero.1, hzero.2, zero_mul]
    refine iff_of_false (by simp) ?_
    rintro ⟨q, hq, -⟩
    cases hq
  · rw [if_neg hzero, exists_some_lt_iff]
    rcases le_total a b with hle | hle
    · have hpos : 0 < b := lt_of_le_of_ne hb fun h0 =>
        hzero ⟨le_antisymm (h0 ▸ hle) ha, h0.symm⟩
      rw [min_eq_left hle, max_eq_right hle]
      exact lt_mul_or_lt_mul_iff ha hle hpos
    · have hpos : 0 < a := lt_of_le_of_ne ha fun h0 =>
        hzero ⟨h0.symm, le_antisymm (h0 ▸ hle) hb⟩
      rw [min_eq_right hle, max_eq_left hle, or_comm]
      exact lt_mul_or_lt_mul_iff hb hle hpos

/-- Without a price no spread is too big. -/
theorem not_isSpreadTooBig_of_nan (h : x = .nan ∨ y = .nan) : isSpreadTooBig M x y = false := by
  rw [isSpreadTooBig, Bool.or_eq_false_iff]
  rcases h with rfl | rfl
  · rw [BigNumber.nan_multipliedBy]
    exact ⟨not_isLessThan_nan y, rfl⟩
  · rw [BigNumber.nan_multipliedBy]
    exact ⟨rfl, not_isLessThan_nan x⟩

/-- The spread is too big if the share is below the cutoff of the check. -/
theorem isSpreadTooBig_iff (hx : x.isNegative = false) (hy : y.isNegative = false) :
    isSpreadTooBig M x y = true ↔ ∃ q, valueShare x y = some q ∧ q < tooBigCutoff M := by
  by_cases hnan : x = .nan ∨ y = .nan
  · rw [not_isSpreadTooBig_of_nan hnan, valueShare_of_nan hnan]
    refine iff_of_false Bool.false_ne_true ?_
    rintro ⟨q, hq, -⟩
    cases hq
  obtain ⟨hx', hy'⟩ := not_or.mp hnan
  rw [isSpreadTooBig, BigNumber.ofDouble, Bool.or_eq_true, ← tooBigCutoff]
  -- amounts are not negative, so each is finite or `Infinity`
  cases x with
  | nan => exact absurd rfl hx'
  | negInfinity => cases hx
  | infinity =>
    rw [infinity_not_isLessThan]
    cases y with
    | nan => exact absurd rfl hy'
    | negInfinity => cases hy
    | infinity =>
      rw [infinity_not_isLessThan]
      refine iff_of_false (by decide) ?_
      rintro ⟨q, hq, -⟩
      cases hq
    | fin b =>
      rw [isLessThan_mul_infinity, valueShare, exists_some_lt_iff]
      exact or_iff_left Bool.false_ne_true
  | fin a =>
    cases y with
    | nan => exact absurd rfl hy'
    | negInfinity => cases hy
    | infinity =>
      rw [infinity_not_isLessThan, isLessThan_mul_infinity, valueShare, exists_some_lt_iff]
      exact or_iff_right Bool.false_ne_true
    | fin b =>
      rw [BigNumber.isNegative_fin, decide_eq_false_iff_not, not_lt] at hx hy
      rw [BigNumber.multipliedBy_fin, BigNumber.multipliedBy_fin, BigNumber.isLessThan_fin,
        BigNumber.isLessThan_fin, decide_eq_true_iff, decide_eq_true_iff]
      exact lt_mul_or_iff_valueShare hx hy

/-- Two cutoffs divide the shares in the same way if none lies in between. -/
theorem lt_iff_lt_iff_apart {r : ℚ} : (q < r ↔ q < c) ↔ q < min c r ∨ max c r ≤ q := by
  rw [lt_min_iff, max_le_iff]
  constructor
  · intro h
    rcases lt_or_ge q c with hlt | hge
    · exact Or.inl ⟨hlt, h.mpr hlt⟩
    · exact Or.inr ⟨hge, not_lt.mp fun hlt => absurd (h.mp hlt) (not_lt.mpr hge)⟩
  · rintro (⟨hc, hr⟩ | ⟨hc, hr⟩)
    · exact iff_of_true hr hc
    · exact iff_of_false (not_lt.mpr hr) (not_lt.mpr hc)

end Share

/-! ## Hop by hop -/

section Hops

variable {env : Env} {tokenRoute : List TokenID} {intermediaryAmounts : List BigNumber}
  {hop : RouteHop}

theorem isSome_ite_some {α : Type} (b : Bool) (a : α) :
    (if b then some a else none).isSome = b := by
  cases b <;> rfl

theorem RouteHop.isReported_eq (env : Env) (hop : RouteHop) : hop.isReported env =
    (deviation (hop.amountInUSD env) (hop.amountOutUSD env)).toNumber.gt
      (.fin env.MAX_SWAP_SPREAD) := by
  have hone : getTokenPriceDeviationPercent env [hop.tokenInID, hop.tokenOutID]
      [hop.amountIn, hop.amountOut] =
      if (deviation (hop.amountInUSD env) (hop.amountOutUSD env)).toNumber.gt
        (.fin env.MAX_SWAP_SPREAD) then
          some (deviation (hop.amountInUSD env) (hop.amountOutUSD env)).toNumber else none := by
    rw [getTokenPriceDeviationPercent]
    exact List.findSome?_singleton
  rw [RouteHop.isReported, hone, isSome_ite_some]

/-- A deviation is answered if some hop of the route is reported. -/
theorem isSome_getTokenPriceDeviationPercent_iff :
    (getTokenPriceDeviationPercent env tokenRoute intermediaryAmounts).isSome = true ↔
      ∃ hop ∈ routeHops tokenRoute intermediaryAmounts, hop.isReported env = true := by
  rw [getTokenPriceDeviationPercent, List.findSome?_isSome_iff]
  simp only [routeHops, List.mem_map, exists_exists_and_eq_and]
  refine exists_congr fun ⟨hop, index⟩ => and_congr_right fun _ => ?_
  rw [RouteHop.isReported_eq]
  exact Bool.eq_iff_iff.mp (isSome_ite_some _ _)

/-- No amount of a hop is negative, if none of the route is. -/
theorem isNegative_of_mem_routeHops
    (hamounts : ∀ amount ∈ intermediaryAmounts, amount.isNegative = false)
    (hhop : hop ∈ routeHops tokenRoute intermediaryAmounts) :
    hop.amountIn.isNegative = false ∧ hop.amountOut.isNegative = false := by
  have hgetD : ∀ index : ℕ, (intermediaryAmounts[index]?.getD .nan).isNegative = false := by
    intro index
    cases hget : intermediaryAmounts[index]? with
    | none => rfl
    | some amount => exact hamounts amount (List.mem_of_getElem? hget)
  obtain ⟨⟨tokens, index⟩, -, rfl⟩ := List.mem_map.mp hhop
  exact ⟨hgetD index, hgetD (index + 1)⟩

/-- Values in dollars are not negative. -/
theorem isNegative_computeValueUSD {amount priceUSD : BigNumber} (decimals : ℕ)
    (hamount : amount.isNegative = false) (hprice : priceUSD.isNegative = false) :
    (computeValueUSD amount decimals priceUSD).isNegative = false := by
  refine BigNumber.isNegative_multipliedBy (BigNumber.isNegative_multipliedBy hamount ?_) hprice
  rw [BigNumber.isNegative_fin, decide_eq_false_iff_not, not_lt]
  positivity

/-- The share of the smaller side of a hop is not from one of the cutoffs up to
the other. -/
def RouteHop.IsApart (env : Env) (hop : RouteHop) : Prop :=
  ∀ q, valueShare (hop.amountInUSD env) (hop.amountOutUSD env) = some q →
    q < min (tooBigCutoff env.MAX_SWAP_SPREAD) (reportedCutoff env.MAX_SWAP_SPREAD) ∨
      max (tooBigCutoff env.MAX_SWAP_SPREAD) (reportedCutoff env.MAX_SWAP_SPREAD) ≤ q

/-- Both tests agree on a hop unless its share lies between the two cutoffs. -/
theorem isReported_iff_isTooBig_iff (hin : (hop.amountInUSD env).isNegative = false)
    (hout : (hop.amountOutUSD env).isNegative = false) :
    (hop.isReported env = true ↔ hop.isTooBig env = true) ↔ hop.IsApart env := by
  rw [RouteHop.isReported_eq, RouteHop.isTooBig, deviation_gt_iff hin hout,
    isSpreadTooBig_iff hin hout, RouteHop.IsApart]
  cases hshare : valueShare (hop.amountInUSD env) (hop.amountOutUSD env) with
  | none => simp
  | some q =>
    rw [exists_some_lt_iff, exists_some_lt_iff, lt_iff_lt_iff_apart]
    constructor
    · intro h q' hq'
      obtain rfl := Option.some.inj hq'
      exact h
    · intro h
      exact h q rfl

/-- A hop with one side worth nothing has a share of zero. -/
theorem valueShare_of_isOneSided (h : hop.IsOneSided env) :
    valueShare (hop.amountInUSD env) (hop.amountOutUSD env) = some 0 := by
  have hright : ∀ {y : BigNumber}, y.isGreaterThan (.fin 0) = true →
      valueShare (.fin 0) y = some 0 ∧ valueShare y (.fin 0) = some 0 := by
    intro y hy
    cases y with
    | nan => cases hy
    | negInfinity => cases hy
    | infinity => exact ⟨rfl, rfl⟩
    | fin b =>
      rw [BigNumber.isGreaterThan_fin, decide_eq_true_iff] at hy
      rw [valueShare, valueShare, if_neg fun h0 => hy.ne' h0.2, if_neg fun h0 => hy.ne' h0.1,
        min_eq_left hy.le, min_eq_right hy.le, zero_div, zero_div]
      exact ⟨rfl, rfl⟩
  rcases h with ⟨hzero, hpos⟩ | ⟨hzero, hpos⟩
  · rw [hzero]
    exact (hright hpos).1
  · rw [hzero]
    exact (hright hpos).2

/-- Such a hop is reported whenever anything is. -/
theorem isReported_of_isOneSided_iff (hin : (hop.amountInUSD env).isNegative = false)
    (hout : (hop.amountOutUSD env).isNegative = false) (h : hop.IsOneSided env) :
    hop.isReported env = true ↔ env.MAX_SWAP_SPREAD.val < 1 := by
  rw [RouteHop.isReported_eq, deviation_gt_iff hin hout, valueShare_of_isOneSided h,
    exists_some_lt_iff, zero_lt_reportedCutoff_iff]

end Hops

/-! ## When the checks agree -/

/-- They do when no share is from one of the cutoffs up to the other, and a whole
value is more than the spread that is allowed. -/
theorem spreadChecked_iff (env : Env) (tokenRoute : List TokenID)
    (intermediaryAmounts : List BigNumber)
    (hamounts : ∀ amount ∈ intermediaryAmounts, amount.isNegative = false)
    (hprices : ∀ tokenID, (env.tokenPriceUSD tokenID).isNegative = false) :
    SpreadChecked env tokenRoute intermediaryAmounts ↔
      ∀ hop ∈ routeHops tokenRoute intermediaryAmounts,
        hop.IsApart env ∧ (hop.IsOneSided env → env.MAX_SWAP_SPREAD.val < 1) := by
  have hvalues : ∀ hop ∈ routeHops tokenRoute intermediaryAmounts,
      (hop.amountInUSD env).isNegative = false ∧ (hop.amountOutUSD env).isNegative = false := by
    intro hop hhop
    obtain ⟨hin, hout⟩ := isNegative_of_mem_routeHops hamounts hhop
    exact ⟨isNegative_computeValueUSD _ hin (hprices _),
      isNegative_computeValueUSD _ hout (hprices _)⟩
  constructor
  · intro h hop hhop
    obtain ⟨hin, hout⟩ := hvalues hop hhop
    refine ⟨(isReported_iff_isTooBig_iff hin hout).mp (h.hop hop hhop), fun hone => ?_⟩
    exact (isReported_of_isOneSided_iff hin hout hone).mp (h.oneSided hop hhop hone)
  · intro h
    have hhops : ∀ hop ∈ routeHops tokenRoute intermediaryAmounts,
        (hop.isReported env = true ↔ hop.isTooBig env = true) := by
      intro hop hhop
      obtain ⟨hin, hout⟩ := hvalues hop hhop
      exact (isReported_iff_isTooBig_iff hin hout).mpr (h hop hhop).1
    refine ⟨?_, hhops, ?_⟩
    · rw [isSome_getTokenPriceDeviationPercent_iff]
      exact exists_congr fun hop => and_congr_right fun hhop => hhops hop hhop
    · intro hop hhop hone
      obtain ⟨hin, hout⟩ := hvalues hop hhop
      exact (isReported_of_isOneSided_iff hin hout hone).mpr ((h hop hhop).2 hone)

/-! ## A share in between -/

/-- A hundred units of 18 decimals for one unit of the last decimal less than the
allowed 95. -/
def sampleRouteAmounts : List BigNumber :=
  [.ofNat (100 * 10 ^ 18), .ofNat (95 * 10 ^ 18 - 1)]

theorem spreadChecked_sample :
    SpreadChecked onePairEnv ["TOKA-1", "TOKB-1"] sampleRouteAmounts ↔
      ∀ hop ∈ routeHops ["TOKA-1", "TOKB-1"] sampleRouteAmounts, hop.IsApart onePairEnv ∧
        (hop.IsOneSided onePairEnv → onePairEnv.MAX_SWAP_SPREAD.val < 1) :=
  have hprice : (BigNumber.fin 1).isNegative = false := by decide
  spreadChecked_iff onePairEnv ["TOKA-1", "TOKB-1"] sampleRouteAmounts (by decide)
    fun _ => hprice

theorem not_spreadChecked_sample :
    ¬SpreadChecked onePairEnv ["TOKA-1", "TOKB-1"] sampleRouteAmounts := by
  intro h
  have hroute := h.route
  revert hroute
  decide +kernel

end MxExchange.AutoRouter
