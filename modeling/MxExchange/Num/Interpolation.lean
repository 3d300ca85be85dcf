import Mathlib.Data.List.Chain
import Mathlib.Tactic.Linarith
import Mathlib.Tactic.Ring

/-!
# Interpolation in whole numbers

A curve through knots, straight between two of them, with values rounded
down. The segment of an argument is the first one that does not end before
it, so a segment of length zero, between two knots with one abscissa, is
never used to the right of its start.

Rounding down keeps everything that is asked of the curve: between two knots
it stays between their values (`le_lerp`, `lerp_le`), at a knot it is the
knot's value, and it does not decrease (`lerp_mono`, and `interpolate_mono`
across the segments).
-/

namespace MxExchange.Num

/-- A quotient that is not larger, without the division. -/
theorem div_le_div_of_cross {a b c d : ℕ} (hb : 0 < b) (hd : 0 < d) (h : a * d ≤ c * b) :
    a / b ≤ c / d := by
  rw [Nat.le_div_iff_mul_le hd]
  have hscaled : a / b * d * b ≤ c * b :=
    calc a / b * d * b = a / b * b * d := mul_right_comm _ _ _
      _ ≤ a * d := Nat.mul_le_mul_right d (Nat.div_mul_le_self a b)
      _ ≤ c * b := h
  exact Nat.le_of_mul_le_mul_right hscaled hb

/-- A point that the curve goes through. -/
structure Knot where
  x : ℕ
  y : ℕ
  deriving DecidableEq

/-! ## One segment -/

/-- The value over `x` of the line through two knots. -/
def lerp (p n : Knot) (x : ℕ) : ℕ :=
  ((n.x - x) * p.y + (x - p.x) * n.y) / (n.x - p.x)

section Segment

variable {p n : Knot} {x x' : ℕ}

/-- Between two knots the curve is not below the lower one. -/
theorem le_lerp (hlt : p.x < n.x) (hy : p.y ≤ n.y) (hp : p.x ≤ x) (hn : x ≤ n.x) :
    p.y ≤ lerp p n x := by
  rw [lerp, Nat.le_div_iff_mul_le (by omega)]
  calc p.y * (n.x - p.x) = (n.x - x) * p.y + (x - p.x) * p.y := by
        rw [← add_mul, mul_comm]
        congr 1
        omega
    _ ≤ (n.x - x) * p.y + (x - p.x) * n.y :=
        Nat.add_le_add_left (Nat.mul_le_mul_left _ hy) _

/-- Nor is it above the higher one. -/
theorem lerp_le (hlt : p.x < n.x) (hy : p.y ≤ n.y) (hp : p.x ≤ x) (hn : x ≤ n.x) :
    lerp p n x ≤ n.y := by
  have hsum : (n.x - x) * p.y + (x - p.x) * n.y ≤ (n.x - p.x) * n.y :=
    calc (n.x - x) * p.y + (x - p.x) * n.y ≤ (n.x - x) * n.y + (x - p.x) * n.y :=
          Nat.add_le_add_right (Nat.mul_le_mul_left _ hy) _
      _ = (n.x - p.x) * n.y := by
          rw [← add_mul]
          congr 1
          omega
  exact Nat.div_le_of_le_mul hsum

/-- It goes through the right knot. -/
theorem lerp_right (hlt : p.x < n.x) : lerp p n n.x = n.y := by
  rw [lerp, Nat.sub_self, zero_mul, zero_add, Nat.mul_div_cancel_left _ (by omega)]

/-- Between two knots it rises. -/
theorem lerp_mono (hy : p.y ≤ n.y) (hp : p.x ≤ x) (h : x ≤ x') (hn : x' ≤ n.x) :
    lerp p n x ≤ lerp p n x' := by
  -- What moves from one weight to the other is the step.
  obtain ⟨d, rfl⟩ := Nat.exists_eq_add_of_le h
  have hleft : n.x - x = (n.x - (x + d)) + d := by omega
  have hright : x + d - p.x = (x - p.x) + d := by omega
  apply Nat.div_le_div_right
  rw [hleft, hright, add_mul, add_mul]
  have := Nat.mul_le_mul_left d hy
  omega

end Segment

/-! ## A curve -/

/-- The curve from a knot on; none to the right of its last knot. -/
def interpolate : Knot → List Knot → ℕ → Option ℕ
  | _, [], _ => none
  | p, n :: knots, x => if x ≤ n.x then some (lerp p n x) else interpolate n knots x

/-- Neither abscissas nor values go down. -/
def Ascending (p : Knot) (knots : List Knot) : Prop :=
  List.IsChain (fun p n => p.x ≤ n.x ∧ p.y ≤ n.y) (p :: knots)

/-- The last knot. -/
def lastKnot (p : Knot) (knots : List Knot) : Knot := (p :: knots).getLast (by simp)

section Curve

variable {p n : Knot} {knots : List Knot} {x x' v v' : ℕ}

theorem lastKnot_cons : lastKnot p (n :: knots) = lastKnot n knots :=
  List.getLast_cons (by simp)

theorem ascending_cons : Ascending p (n :: knots) ↔
    (p.x ≤ n.x ∧ p.y ≤ n.y) ∧ Ascending n knots :=
  List.isChain_cons_cons

/-- The last knot is the highest. -/
theorem Ascending.le_lastKnot (h : Ascending p knots) : p.y ≤ (lastKnot p knots).y := by
  induction knots generalizing p with
  | nil => exact le_rfl
  | cons n knots ih =>
    obtain ⟨hstep, hrest⟩ := ascending_cons.mp h
    rw [lastKnot_cons]
    exact hstep.2.trans (ih hrest)

/-- There is a value up to the last knot. -/
theorem interpolate_isSome (hp : p.x < x) (hx : x ≤ (lastKnot p knots).x) :
    ∃ v, interpolate p knots x = some v := by
  induction knots generalizing p with
  | nil => exact absurd hx (not_le.mpr hp)
  | cons n knots ih =>
    rw [interpolate]
    split
    next => exact ⟨_, rfl⟩
    next hlt =>
      rw [lastKnot_cons] at hx
      exact ih (not_le.mp hlt) hx

/-- Over all segments the curve stays between its first and its last knot. -/
theorem interpolate_bounds (h : Ascending p knots) (hp : p.x < x)
    (hv : interpolate p knots x = some v) : p.y ≤ v ∧ v ≤ (lastKnot p knots).y := by
  induction knots generalizing p with
  | nil => cases hv
  | cons n knots ih =>
    obtain ⟨⟨-, hy⟩, hrest⟩ := ascending_cons.mp h
    rw [lastKnot_cons]
    rw [interpolate] at hv
    split at hv
    next hle =>
      obtain rfl := Option.some.inj hv
      have hlt : p.x < n.x := by omega
      exact ⟨le_lerp hlt hy hp.le hle, (lerp_le hlt hy hp.le hle).trans hrest.le_lastKnot⟩
    next hlt =>
      obtain ⟨hlower, hupper⟩ := ih hrest (not_le.mp hlt) hv
      exact ⟨hy.trans hlower, hupper⟩

/-- Over all segments it rises, knots in between included. -/
theorem interpolate_mono (h : Ascending p knots) (hp : p.x < x) (hx : x ≤ x')
    (hv : interpolate p knots x = some v) (hv' : interpolate p knots x' = some v') : v ≤ v' := by
  induction knots generalizing p with
  | nil => cases hv
  | cons n knots ih =>
    obtain ⟨⟨-, hy⟩, hrest⟩ := ascending_cons.mp h
    rw [interpolate] at hv hv'
    split at hv'
    next hle' =>
      rw [if_pos (hx.trans hle')] at hv
      obtain rfl := Option.some.inj hv
      obtain rfl := Option.some.inj hv'
      exact lerp_mono hy hp.le hx hle'
    next hlt' =>
      split at hv
      next hle =>
        -- over the joint: up to its value, and on from there
        obtain rfl := Option.some.inj hv
        have hlower := (interpolate_bounds hrest (not_le.mp hlt') hv').1
        exact (lerp_le (by omega) hy hp.le hle).trans hlower
      next hlt => exact ih hrest (not_le.mp hlt) hv hv'

/-- The curve goes through its knots, if no two share an abscissa. -/
theorem interpolate_knot (h : List.IsChain (fun p n => p.x < n.x) (p :: knots)) (hn : n ∈ knots) :
    interpolate p knots n.x = some n.y := by
  induction knots generalizing p with
  | nil => cases hn
  | cons m knots ih =>
    obtain ⟨hlt, hrest⟩ := List.isChain_cons_cons.mp h
    rw [interpolate]
    rcases List.mem_cons.mp hn with rfl | hmem
    · rw [if_pos le_rfl, lerp_right hlt]
    · have htrans : IsTrans Knot (fun p n => p.x < n.x) := ⟨fun _ _ _ => lt_trans⟩
      have hafter : m.x < n.x := hrest.rel_cons hmem
      rw [if_neg (by omega)]
      exact ih hrest hmem

end Curve

end MxExchange.Num
