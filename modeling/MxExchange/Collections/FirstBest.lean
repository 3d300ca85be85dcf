import Mathlib.Data.List.Basic

/-!
# The first best element of a list

A loop that keeps the best value seen so far, starting from a sentinel, and
replaces it only by a strictly better one, ends with the *first* of the best
elements, or with the sentinel if nothing beats it.

The comparison need not be total. Values that do not beat the sentinel are
never kept and never stand in the way, so transitivity is asked of all
values but comparability only of those that beat it (`Comparison`): a `NaN`
among the values is harmless. Where no two values tie the loop is a function
of the values alone, not of their order (`firstBest_perm`).
-/

namespace MxExchange.Collections

variable {β : Type}

/-- What the loop needs from `better x y`, "`x` is better than `y`". -/
structure Comparison (better : β → β → Bool) (init : β) : Prop where
  trans : ∀ {x y z}, better x y = true → better y z = true → better x z = true
  irrefl : ∀ x, better x x = false
  split : ∀ {x y z}, better x z = true → better y init = true →
    better x y = true ∨ better y z = true

/-- The loop: `best` and the index it was found at, from position `i` on. -/
def scanBest (better : β → β → Bool) : ℕ → β × Option ℕ → List β → β × Option ℕ
  | _, acc, [] => acc
  | i, (best, index), x :: xs =>
    scanBest better (i + 1) (if better x best then (x, some i) else (best, index)) xs

/-- `x`, at position `i`, beats the sentinel, nothing is better, and
everything before it is worse. -/
structure IsFirstBest (better : β → β → Bool) (init : β) (l : List β) (i : ℕ) (x : β) :
    Prop where
  get : l[i]? = some x
  beats : better x init = true
  best : ∀ y ∈ l, better y x = false
  first : ∀ (j : ℕ) (y : β), j < i → l[j]? = some y → better y init = true → better x y = true

/-- The best of a list is in it. -/
theorem IsFirstBest.mem {better : β → β → Bool} {init : β} {l : List β} {i : ℕ} {x : β}
    (h : IsFirstBest better init l i x) : x ∈ l := List.mem_of_getElem? h.get

/-- There is one first best element at most. -/
theorem IsFirstBest.unique {better : β → β → Bool} {init : β} {l : List β} {i j : ℕ} {x y : β}
    (hx : IsFirstBest better init l i x) (hy : IsFirstBest better init l j y) :
    i = j ∧ x = y := by
  rcases Nat.lt_trichotomy i j with hlt | heq | hgt
  · have := hy.first i x hlt hx.get hx.beats
    rw [hx.best y hy.mem] at this
    exact absurd this (by simp)
  · subst heq
    exact ⟨rfl, Option.some.inj (hx.get.symm.trans hy.get)⟩
  · have := hx.first j y hgt hy.get hy.beats
    rw [hy.best x hx.mem] at this
    exact absurd this (by simp)

/-- The loop state after `pre`: still the sentinel, or the first best of it. -/
def ScanInv (better : β → β → Bool) (init : β) (pre : List β) (acc : β × Option ℕ) : Prop :=
  (acc = (init, none) ∧ ∀ y ∈ pre, better y init = false) ∨
  ∃ i, acc.2 = some i ∧ IsFirstBest better init pre i acc.1

/-- A value that beats one that nothing so far beats. -/
theorem not_better_concat {better : β → β → Bool} {init best x : β} {pre : List β}
    (hc : Comparison better init) (hbest : ∀ y ∈ pre, better y best = false)
    (hx : better x best = true) : ∀ y ∈ pre ++ [x], better y x = false := by
  intro y hy
  rcases List.mem_append.mp hy with hy' | hy'
  · by_contra hyx
    have := hc.trans (by simpa using hyx) hx
    rw [hbest y hy'] at this
    exact absurd this (by simp)
  · rw [List.mem_singleton.mp hy']
    exact hc.irrefl x

/-- One round of the loop. -/
theorem scanInv_step {better : β → β → Bool} {init : β} (hc : Comparison better init)
    {pre : List β} {best : β} {index : Option ℕ} {x : β}
    (h : ScanInv better init pre (best, index)) :
    ScanInv better init (pre ++ [x])
      (if better x best then (x, some pre.length) else (best, index)) := by
  have hlast : (pre ++ [x])[pre.length]? = some x := by simp
  rcases h with ⟨hacc, hnone⟩ | ⟨i, hidx, hbest⟩
  · obtain ⟨rfl, rfl⟩ := Prod.mk.inj hacc
    by_cases hx : better x best = true
    · -- the first value that beats the sentinel
      rw [if_pos hx]
      refine Or.inr ⟨pre.length, rfl, hlast, hx, not_better_concat hc hnone hx, ?_⟩
      intro j y hj hy hyinit
      rw [List.getElem?_append_left hj] at hy
      rw [hnone y (List.mem_of_getElem? hy)] at hyinit
      exact absurd hyinit (by simp)
    · rw [if_neg hx]
      refine Or.inl ⟨rfl, ?_⟩
      intro y hy
      rcases List.mem_append.mp hy with hy' | hy'
      · exact hnone y hy'
      · rw [List.mem_singleton.mp hy']
        simpa using hx
  · dsimp only at hidx hbest
    have hi : i < pre.length := (List.getElem?_eq_some_iff.mp hbest.get).1
    by_cases hx : better x best = true
    · -- a strictly better value: better than everything before it
      rw [if_pos hx]
      refine Or.inr ⟨pre.length, rfl, hlast, hc.trans hx hbest.beats,
        not_better_concat hc hbest.best hx, ?_⟩
      intro j y hj hy hyinit
      rw [List.getElem?_append_left hj] at hy
      rcases hc.split hx hyinit with h | h
      · exact h
      · rw [hbest.best y (List.mem_of_getElem? hy)] at h
        exact absurd h (by simp)
    · rw [if_neg hx]
      refine Or.inr ⟨i, hidx, ?_, hbest.beats, ?_, ?_⟩
      · rw [List.getElem?_append_left hi]
        exact hbest.get
      · intro y hy
        rcases List.mem_append.mp hy with hy' | hy'
        · exact hbest.best y hy'
        · rw [List.mem_singleton.mp hy']
          simpa using hx
      · intro j y hj hy
        rw [List.getElem?_append_left (by omega)] at hy
        exact hbest.first j y hj hy

/-- The scan goes through the list from left to right, and knows the first best
of what it has seen. -/
theorem scanInv_scanBest {better : β → β → Bool} {init : β} (hc : Comparison better init) :
    ∀ (l pre : List β) (acc : β × Option ℕ), ScanInv better init pre acc →
      ScanInv better init (pre ++ l) (scanBest better pre.length acc l) := by
  intro l
  induction l with
  | nil => intro pre acc h; simpa [scanBest] using h
  | cons x l ih =>
    intro pre acc h
    obtain ⟨best, index⟩ := acc
    have := ih (pre ++ [x]) _ (scanInv_step hc h (x := x))
    rw [List.length_append, List.length_singleton, List.append_assoc] at this
    exact this

/-- The whole list, from the start. -/
theorem scanInv_init {better : β → β → Bool} {init : β} (hc : Comparison better init)
    (l : List β) : ScanInv better init l (scanBest better 0 (init, none) l) :=
  scanInv_scanBest hc l [] (init, none) (Or.inl ⟨rfl, by simp⟩)

/-- The loop ends with an index exactly when it is the first best element's. -/
theorem scanBest_eq_some_iff {better : β → β → Bool} {init : β} (hc : Comparison better init)
    {l : List β} {x : β} {i : ℕ} :
    scanBest better 0 (init, none) l = (x, some i) ↔ IsFirstBest better init l i x := by
  rcases scanInv_init hc l with ⟨hacc, hnone⟩ | ⟨j, hidx, hbest⟩
  · rw [hacc]
    constructor
    · intro h
      exact absurd (Prod.mk.inj h).2 (by simp)
    · intro h
      have := h.beats
      rw [hnone x h.mem] at this
      exact absurd this (by simp)
  · constructor
    · intro h
      rw [h] at hidx hbest
      rw [Option.some.inj hidx]
      exact hbest
    · intro h
      obtain ⟨rfl, rfl⟩ := hbest.unique h
      exact Prod.ext rfl hidx

/-- The loop ends without an index exactly when nothing beats the sentinel. -/
theorem scanBest_eq_none_iff {better : β → β → Bool} {init : β} (hc : Comparison better init)
    {l : List β} :
    (scanBest better 0 (init, none) l).2 = none ↔ ∀ y ∈ l, better y init = false := by
  rcases scanInv_init hc l with ⟨hacc, hnone⟩ | ⟨j, hidx, hbest⟩
  · rw [hacc]
    exact ⟨fun _ => hnone, fun _ => rfl⟩
  · rw [hidx]
    constructor
    · intro h
      exact absurd h (by simp)
    · intro h
      have := hbest.beats
      rw [h _ hbest.mem] at this
      exact absurd this (by simp)

/-! ## The value alone

A loop that keeps no index. When no two different values tie for best it
does not matter in which order it meets them. -/

/-- The loop without its index. -/
def firstBest (better : β → β → Bool) (init : β) (l : List β) : β :=
  l.foldl (fun best x => if better x best then x else best) init

/-- The last element wins only if it is better than all before. -/
theorem firstBest_concat (better : β → β → Bool) (init x : β) (l : List β) :
    firstBest better init (l ++ [x]) =
      if better x (firstBest better init l) then x else firstBest better init l := by
  rw [firstBest, List.foldl_append]
  rfl

/-- The value of the scan without its index. -/
theorem scanBest_fst (better : β → β → Bool) (l : List β) (i : ℕ) (best : β)
    (index : Option ℕ) :
    (scanBest better i (best, index) l).1 = firstBest better best l := by
  induction l generalizing i best index with
  | nil => rfl
  | cons x l ih =>
    by_cases hx : better x best = true
    · have hbest : firstBest better best (x :: l) = firstBest better x l := by
        simp [firstBest, hx]
      rw [scanBest, if_pos hx, ih, hbest]
    · have hbest : firstBest better best (x :: l) = firstBest better best l := by
        simp [firstBest, hx]
      rw [scanBest, if_neg hx, ih, hbest]

/-- The loop ends with the sentinel, or with a first best element. -/
theorem firstBest_cases {better : β → β → Bool} {init : β} (hc : Comparison better init)
    (l : List β) :
    (firstBest better init l = init ∧ ∀ y ∈ l, better y init = false) ∨
    ∃ i, IsFirstBest better init l i (firstBest better init l) := by
  rw [← scanBest_fst better l 0 init none]
  rcases scanInv_init hc l with ⟨hacc, hnone⟩ | ⟨i, -, hbest⟩
  · exact Or.inl ⟨by rw [hacc], hnone⟩
  · exact Or.inr ⟨i, hbest⟩

/-- Without ties the order of the list is of no consequence. -/
theorem firstBest_perm {better : β → β → Bool} {init : β} (hc : Comparison better init)
    {l l' : List β} (hperm : l.Perm l')
    (hties : ∀ x ∈ l, ∀ y ∈ l, better x init = true → better y init = true →
      better x y = false → better y x = false → x = y) :
    firstBest better init l = firstBest better init l' := by
  rcases firstBest_cases hc l with ⟨heq, hnone⟩ | ⟨i, hbest⟩
  · rcases firstBest_cases hc l' with ⟨heq', -⟩ | ⟨j, hbest'⟩
    · rw [heq, heq']
    · have := hbest'.beats
      rw [hnone _ (hperm.mem_iff.mpr hbest'.mem)] at this
      exact absurd this (by simp)
  · rcases firstBest_cases hc l' with ⟨-, hnone'⟩ | ⟨j, hbest'⟩
    · have := hbest.beats
      rw [hnone' _ (hperm.mem_iff.mp hbest.mem)] at this
      exact absurd this (by simp)
    · have hmem' := hperm.mem_iff.mpr hbest'.mem
      have hmem := hperm.mem_iff.mp hbest.mem
      exact hties _ hbest.mem _ hmem' hbest.beats hbest'.beats (hbest'.best _ hmem)
        (hbest.best _ hmem')

end MxExchange.Collections
