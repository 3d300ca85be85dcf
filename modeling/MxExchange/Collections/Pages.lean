import Mathlib.Data.Int.Notation
import Mathlib.Data.List.Basic

/-!
# Lists in pages

A list is shown in pages of a size, by an offset and a limit. `Lists` is what
a listing owes its reader: no page is longer than the size, and enough pages
one after the other are the list. `slice` is `Array.prototype.slice`, which
takes two indices: those of a page are its offset and the limit further on
(`lists_slice`). With the limit for the second only the first page is ever
shown (`lists_slice_limit_iff`).
-/

namespace MxExchange.Collections

variable {α β : Type} {n : ℕ}

/-- What a negative index counts from, and what one past the end is cut to. -/
def sliceIndex (l : List α) (index : ℤ) : ℕ :=
  (if index < 0 then max 0 (l.length + index) else min index l.length).toNat

/-- `slice(start, stop)`: negative positions count from the end, and both are
clipped. -/
def slice (l : List α) (start stop : ℤ) : List α :=
  (l.drop (sliceIndex l start)).take (sliceIndex l stop - sliceIndex l start)

/-- The pages are those of the list, in pages of at most `n`. -/
structure Lists (page : ℕ → List α) (n : ℕ) (l : List α) : Prop where
  length_le : ∀ k, (page k).length ≤ n
  flatMap : ∀ pages, l.length ≤ pages * n → (List.range pages).flatMap page = l

/-- From a position on, so many elements. -/
theorem slice_natCast (l : List α) (start stop : ℕ) :
    slice l start stop = (l.drop start).take (stop - start) := by
  have hindex : ∀ i : ℕ, sliceIndex l i = min i l.length := by
    intro i
    unfold sliceIndex
    rw [if_neg (by omega)]
    omega
  rw [slice, hindex, hindex]
  rcases Nat.le_total start l.length with hle | hle
  · rw [Nat.min_eq_left hle]
    rcases Nat.le_total stop l.length with hstop | hstop
    · rw [Nat.min_eq_left hstop]
    · -- the list ends before the second index
      rw [Nat.min_eq_right hstop, List.take_of_length_le (by simp),
        List.take_of_length_le (by rw [List.length_drop]; omega)]
  · rw [Nat.min_eq_right hle, List.drop_of_length_le hle, List.drop_of_length_le (Nat.le_refl _),
      List.take_nil, List.take_nil]

/-- A list that is no longer than the limit is its first page. -/
theorem slice_zero_of_length_le {l : List α} {stop : ℤ} (h : l.length ≤ stop) :
    slice l 0 stop = l := by
  obtain ⟨n, rfl⟩ : ∃ n : ℕ, stop = n := ⟨stop.toNat, by omega⟩
  have hslice := slice_natCast l 0 n
  rw [List.drop_zero, Nat.sub_zero, List.take_of_length_le (by omega)] at hslice
  exact hslice

/-- It does not matter whether a page is mapped or the whole list. -/
theorem slice_map (f : α → β) (l : List α) (start stop : ℤ) :
    slice (l.map f) start stop = (slice l start stop).map f := by
  simp only [slice, sliceIndex, List.length_map, List.map_take, List.map_drop]

/-- Up to the limit behind the offset the pages are those of the list. -/
theorem lists_slice (n : ℕ) (l : List α) :
    Lists (fun k => slice l ((k * n : ℕ) : ℤ) ((k * n + n : ℕ) : ℤ)) n l := by
  have hpage : ∀ k : ℕ, slice l ((k * n : ℕ) : ℤ) ((k * n + n : ℕ) : ℤ) =
      (l.drop (k * n)).take n := by
    intro k
    rw [slice_natCast, Nat.add_sub_cancel_left]
  refine ⟨?_, ?_⟩
  · intro k
    rw [hpage, List.length_take]
    omega
  · intro pages hpages
    have hfront : ∀ m : ℕ, (List.range m).flatMap (fun k => slice l ((k * n : ℕ) : ℤ)
        ((k * n + n : ℕ) : ℤ)) = l.take (m * n) := by
      intro m
      induction m with
      | zero => rw [Nat.zero_mul, List.take_zero, List.range_zero, List.flatMap_nil]
      | succ m ih =>
        rw [List.range_succ, List.flatMap_append, ih, List.flatMap_singleton, hpage,
          Nat.succ_mul, List.take_add]
    rw [hfront, List.take_of_length_le hpages]

/-- With the limit for the second index nothing is on the later pages. -/
theorem slice_limit_of_pos {k : ℕ} (hk : 0 < k) (n : ℕ) (l : List α) :
    slice l ((k * n : ℕ) : ℤ) (n : ℤ) = [] := by
  have hle : n ≤ k * n := Nat.le_mul_of_pos_left n hk
  rw [slice_natCast, Nat.sub_eq_zero_of_le hle, List.take_zero]

/-- Pages that are cut with the page size as their end: only the first of them
has elements. -/
theorem flatMap_slice_limit {pages : ℕ} (hpages : 0 < pages) (n : ℕ) (l : List α) :
    (List.range pages).flatMap (fun k => slice l ((k * n : ℕ) : ℤ) (n : ℤ)) = l.take n := by
  obtain ⟨more, rfl⟩ := Nat.exists_eq_succ_of_ne_zero (Nat.ne_of_gt hpages)
  have hlater : (List.range more).flatMap
      (fun k => slice l (((k + 1) * n : ℕ) : ℤ) (n : ℤ)) = [] := by
    rw [List.flatMap_eq_nil_iff]
    intro k _
    exact slice_limit_of_pos (Nat.succ_pos k) n l
  rw [List.range_succ_eq_map, List.flatMap_cons, List.flatMap_map, hlater, List.append_nil,
    slice_natCast, Nat.zero_mul, List.drop_zero, Nat.sub_zero]

/-- Such pages list what fits on the first of them. -/
theorem lists_slice_limit_iff (hn : 1 ≤ n) (l : List α) :
    Lists (fun k => slice l ((k * n : ℕ) : ℤ) (n : ℤ)) n l ↔ l.length ≤ n := by
  constructor
  · intro h
    have hall := h.flatMap (l.length + 1) (by
      have := Nat.le_mul_of_pos_right (l.length + 1) hn
      omega)
    rw [flatMap_slice_limit (Nat.succ_pos _)] at hall
    have hlength := congrArg List.length hall
    rw [List.length_take] at hlength
    omega
  · intro hle
    refine ⟨?_, ?_⟩
    · intro k
      rw [slice_natCast, List.length_take]
      omega
    · intro pages hpages
      rcases Nat.eq_zero_or_pos pages with rfl | hpos
      · -- no page at all is enough for the empty list
        have hnil : l = [] := List.length_eq_zero_iff.mp (by omega)
        rw [hnil]
        rfl
      · rw [flatMap_slice_limit hpos, List.take_of_length_le hle]

end MxExchange.Collections
