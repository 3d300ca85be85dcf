import Mathlib.Order.Basic
import Mathlib.Order.Lattice
import Mathlib.Data.Nat.Init

/-!
# Climbing until the first step down

A search that goes through the values of a sequence one by one, keeps the best
one, and stops at the first that is not better than it, ends on the first peak
(`climb_spec`). The peak is the smallest place with the greatest value where
the sequence never gets above it again, and in particular where it only falls
from there on (`IsFirstPeak.best_of_falls`).
-/

namespace MxExchange.Collections

variable {α : Type} [LinearOrder α] (value : ℕ → α)

/-- The loop, for so many rounds, from a place on and with the best value so far
and its place. -/
def climb : ℕ → ℕ → α × ℕ → α × ℕ
  | 0, _, best => best
  | rounds + 1, iterator, best =>
    if best.1 < value iterator then climb rounds (iterator + 1) (value iterator, iterator) else best

/-- The values rise from `start` to `peak`, and there they stop rising, or
there are no more. -/
structure IsFirstPeak (start last peak : ℕ) : Prop where
  start_le : start ≤ peak
  le_last : peak ≤ last
  rises : ∀ n, start ≤ n → n < peak → value n < value (n + 1)
  stops : peak < last → value (peak + 1) ≤ value peak

variable {value}

/-- The climb ends at the first peak, or where its rounds end. -/
theorem climb_spec (rounds start : ℕ) :
    ∃ peak, climb value rounds (start + 1) (value start, start) = (value peak, peak) ∧
      IsFirstPeak value start (start + rounds) peak := by
  induction rounds generalizing start with
  | zero =>
    exact ⟨start, rfl, le_rfl, le_rfl, fun n hstart hlt => absurd hlt (not_lt.mpr hstart),
      fun hlt => absurd hlt (lt_irrefl _)⟩
  | succ rounds ih =>
    unfold climb
    split
    next hbetter =>
      obtain ⟨peak, hclimb, hpeak⟩ := ih (start + 1)
      refine ⟨peak, hclimb, ?_, ?_, ?_, ?_⟩
      · exact (Nat.le_succ start).trans hpeak.start_le
      · have hlast := hpeak.le_last
        omega
      · intro n hstart hlt
        rcases Nat.eq_or_lt_of_le hstart with rfl | hlater
        · exact hbetter
        · exact hpeak.rises n hlater hlt
      · intro hlt
        exact hpeak.stops (by omega)
    next hworse =>
      refine ⟨start, rfl, le_rfl, Nat.le_add_right _ _, ?_, fun _ => not_lt.mp hworse⟩
      exact fun n hstart hlt => absurd hlt (not_lt.mpr hstart)

namespace IsFirstPeak

variable {start last peak : ℕ} (h : IsFirstPeak value start last peak)
include h

/-- Until the first peak values rise. -/
theorem lt_peak {n : ℕ} (hstart : start ≤ n) (hlt : n < peak) : value n < value peak := by
  -- by induction on the place after `n`
  have hrun : ∀ m, n + 1 ≤ m → m ≤ peak → value n < value m := by
    intro m hm
    induction m, hm using Nat.le_induction with
    | base => exact fun _ => h.rises n hstart hlt
    | succ m hm ih =>
      intro hle
      exact (ih (by omega)).trans (h.rises m (by omega) hle)
  exact hrun peak hlt le_rfl

/-- What only falls from the peak on stays below it. -/
theorem best_of_falls (hfalls : ∀ n, peak ≤ n → n < last → value (n + 1) ≤ value n) {n : ℕ}
    (hstart : start ≤ n) (hlast : n ≤ last) : value n ≤ value peak := by
  rcases Nat.lt_or_ge n peak with hlt | hge
  · exact (h.lt_peak hstart hlt).le
  · induction n, hge using Nat.le_induction with
    | base => exact le_rfl
    | succ n hn ih =>
      exact (hfalls n hn hlast).trans (ih (h.start_le.trans hn) (by omega))

/-- The climb does not start where the next value is no better. -/
theorem eq_start_iff (hlast : start < last) :
    peak = start ↔ value (start + 1) ≤ value start := by
  constructor
  · intro heq
    have hstops := h.stops
    rw [heq] at hstops
    exact hstops hlast
  · intro hworse
    rcases Nat.eq_or_lt_of_le h.start_le with heq | hlt
    · exact heq.symm
    · exact absurd (h.rises start le_rfl hlt) (not_lt.mpr hworse)

end IsFirstPeak

end MxExchange.Collections
