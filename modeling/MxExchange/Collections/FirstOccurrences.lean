import Mathlib.Data.List.Nodup

/-!
# First occurrences

`[...new Set(list)]` is the list without what occurs in it before, which is
`List.eraseDups`. It keeps the order in which elements come first, so lists
with the same elements need not agree. They do if there is one element at
most (`eraseDups_eq_of_same`).
-/

namespace MxExchange.Collections

variable {α : Type} [DecidableEq α]

/-- Only first occurrences are left. -/
theorem nodup_eraseDups : ∀ l : List α, l.eraseDups.Nodup
  | [] => by
    rw [List.eraseDups_nil]
    exact List.nodup_nil
  | a :: l => by
    rw [List.eraseDups_cons, List.nodup_cons]
    refine ⟨?_, nodup_eraseDups _⟩
    rw [List.mem_eraseDups, List.mem_filter]
    simp
  termination_by l => l.length
  decreasing_by exact Nat.lt_succ_of_le (List.length_filter_le _ _)

/-- The first two elements stay where they are. -/
theorem exists_eraseDups_of_ne {a b : α} (h : b ≠ a) (l : List α) :
    ∃ rest, (a :: b :: l).eraseDups = a :: b :: rest := by
  have hkept : (!b == a) = true := by simpa using h
  rw [List.eraseDups_cons, List.filter_cons, if_pos hkept, List.eraseDups_cons]
  exact ⟨_, rfl⟩

/-- A list of one element over and over. -/
theorem eraseDups_of_same {a : α} {l : List α} (hmem : a ∈ l) (hsame : ∀ b ∈ l, b = a) :
    l.eraseDups = [a] := by
  cases l with
  | nil => exact absurd hmem List.not_mem_nil
  | cons b l =>
    obtain rfl := hsame b List.mem_cons_self
    have hrest : l.filter (fun c => !c == b) = [] := by
      refine List.filter_eq_nil_iff.mpr fun c hc => ?_
      rw [hsame c (List.mem_cons_of_mem _ hc)]
      simp
    rw [List.eraseDups_cons, hrest, List.eraseDups_nil]

/-- Lists of one value, however often it occurs, come to the same. -/
theorem eraseDups_eq_of_same {l l' : List α} (hmem : ∀ a, a ∈ l ↔ a ∈ l')
    (hsame : ∀ a ∈ l, ∀ b ∈ l, a = b) : l.eraseDups = l'.eraseDups := by
  cases l with
  | nil =>
    have hnil : l' = [] := List.eq_nil_iff_forall_not_mem.mpr fun a ha =>
      absurd ((hmem a).mpr ha) List.not_mem_nil
    rw [hnil]
  | cons a l =>
    have ha : a ∈ a :: l := List.mem_cons_self
    rw [eraseDups_of_same ha fun b hb => hsame b hb a ha,
      eraseDups_of_same ((hmem a).mp ha) fun b hb => hsame b ((hmem b).mpr hb) a ha]

end MxExchange.Collections
