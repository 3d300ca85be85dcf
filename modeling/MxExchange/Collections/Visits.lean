import Mathlib.Algebra.BigOperators.Group.List.Basic
import Mathlib.Algebra.Order.BigOperators.Group.List
import Mathlib.Algebra.Order.Group.Nat
import Mathlib.Tactic.Linarith

/-!
# What several queries return

Each query returns the elements of a list it matches, and an element that two
queries match is returned twice. A sum over all that is returned counts every
element as often as queries match it (`sum_visits`); it is the sum over the
elements that are matched at all exactly if those matched more than once add
nothing (`sum_visits_eq_iff`).
-/

namespace MxExchange.Collections

variable {α : Type} {queries : List (α → Bool)} {l : List α} {f g weight : α → ℕ}

/-- The elements the queries return, one query after the other. -/
def visits (queries : List (α → Bool)) (l : List α) : List α :=
  queries.flatMap fun query => l.filter query

/-- How many of the queries match. -/
def matching (queries : List (α → Bool)) (x : α) : ℕ := queries.countP fun query => query x

/-- Elements that are filtered out weigh nothing. -/
theorem sum_map_filter (p : α → Bool) (l : List α) :
    ((l.filter p).map weight).sum = (l.map fun x => if p x then weight x else 0).sum := by
  induction l with
  | nil => rfl
  | cons x l ih =>
    rw [List.map_cons, List.sum_cons, ← ih]
    cases hp : p x with
    | true => rw [List.filter_cons_of_pos hp, List.map_cons, List.sum_cons, if_pos rfl]
    | false => rw [List.filter_cons_of_neg (by rw [hp]; decide), if_neg (by decide), zero_add]

/-- Each element counts as often as queries match it. -/
theorem sum_visits (queries : List (α → Bool)) (l : List α) :
    ((visits queries l).map weight).sum =
      (l.map fun x => matching queries x * weight x).sum := by
  induction queries with
  | nil => simp [visits, matching]
  | cons query queries ih =>
    have hhead : ∀ x, matching (query :: queries) x * weight x =
        (if query x then weight x else 0) + matching queries x * weight x := by
      intro x
      rw [matching, List.countP_cons, add_mul, add_comm]
      split
      next => rw [one_mul]; rfl
      next => rw [zero_mul]; rfl
    show ((l.filter query ++ visits queries l).map weight).sum = _
    rw [List.map_append, List.sum_append, ih, sum_map_filter, ← List.sum_map_add]
    exact congrArg List.sum (List.map_congr_left fun x _ => (hhead x).symm)

/-- Two sums, one below the other term by term, agree if they agree term by term. -/
theorem sum_map_eq_iff_of_le (h : ∀ x ∈ l, f x ≤ g x) :
    (l.map g).sum = (l.map f).sum ↔ ∀ x ∈ l, g x = f x := by
  induction l with
  | nil => simp
  | cons x l ih =>
    have hrest : ∀ y ∈ l, f y ≤ g y := fun y hy => h y (List.mem_cons_of_mem _ hy)
    have hhead := h x (List.mem_cons_self ..)
    have hsum : (l.map f).sum ≤ (l.map g).sum := List.sum_le_sum hrest
    rw [List.map_cons, List.map_cons, List.sum_cons, List.sum_cons, List.forall_mem_cons,
      ← ih hrest]
    omega

/-- The sum over what the queries return is the sum over what they match. -/
theorem sum_visits_eq_iff :
    ((visits queries l).map weight).sum =
        ((l.filter fun x => 0 < matching queries x).map weight).sum ↔
      ∀ x ∈ l, 1 < matching queries x → weight x = 0 := by
  rw [sum_visits, sum_map_filter, sum_map_eq_iff_of_le]
  · refine forall₂_congr fun x _ => ?_
    simp only [decide_eq_true_eq]
    split
    next hpos =>
      constructor
      · intro heq hmany
        by_contra hweight
        have hlt : 1 * weight x < matching queries x * weight x :=
          Nat.mul_lt_mul_of_pos_right hmany (Nat.pos_of_ne_zero hweight)
        omega
      · intro himp
        rcases Nat.lt_or_ge 1 (matching queries x) with hmany | hone
        · rw [himp hmany, mul_zero]
        · rw [Nat.le_antisymm hone hpos, one_mul]
    next hzero =>
      have hnone : matching queries x = 0 := Nat.eq_zero_of_not_pos hzero
      rw [hnone, zero_mul]
      simp
  · intro x _
    split
    next hpos =>
      exact Nat.le_mul_of_pos_left _ (by simpa using hpos)
    next => exact Nat.zero_le _

end MxExchange.Collections
