import Mathlib.Data.Int.Notation
import Mathlib.Data.List.Basic

/-!
# `Array.prototype.sort` with a comparator

The language fixes the outcome of a sort only for a consistent comparator, one
that compares the items like numbers of theirs: then they come out in order, and
equal ones as they were. For any other it leaves the order to the engine. So an
engine is a parameter here (`ArraySort`), and what holds of a sort has to hold
for each of them.

There is one, insertion from the end (`ArraySort.insertion`), and for a
comparator that is not consistent there are as many as there are orders
(`ArraySort.deviating`).
-/

namespace MxExchange.Collections

/-- What a comparator returns, `null` as none. -/
abbrev Compare (α : Type) := α → α → Option ℤ

section Comparators

variable {α : Type} (compare : Compare α)

/-- `null` counts as zero. -/
def Before (a b : α) : Prop := (compare a b).getD 0 < 0

instance : DecidableRel (Before compare) := fun a b =>
  inferInstanceAs (Decidable ((compare a b).getD 0 < 0))

/-- A consistent comparator for some items: its results are numbers, and they
put the items into classes that are in order. -/
structure Consistent (items : List α) : Prop where
  number : ∀ a ∈ items, ∀ b ∈ items, (compare a b).isSome
  refl : ∀ a ∈ items, compare a a = some 0
  symm : ∀ a ∈ items, ∀ b ∈ items, compare a b = some 0 → compare b a = some 0
  trans : ∀ a ∈ items, ∀ b ∈ items, ∀ c ∈ items,
    compare a b = some 0 → compare b c = some 0 → compare a c = some 0
  before_trans : ∀ a ∈ items, ∀ b ∈ items, ∀ c ∈ items,
    Before compare a b → Before compare b c → Before compare a c
  after_trans : ∀ a ∈ items, ∀ b ∈ items, ∀ c ∈ items,
    0 < (compare a b).getD 0 → 0 < (compare b c).getD 0 → 0 < (compare a c).getD 0

end Comparators

/-- What the language promises of `sort`: a permutation of the items, and, if
the comparator is consistent on them, a stable sorted one. -/
structure ArraySort (α : Type) where
  sort : Compare α → List α → List α
  perm : ∀ compare items, (sort compare items).Perm items
  sorted : ∀ compare items, Consistent compare items →
    (sort compare items).Pairwise fun a b => ¬Before compare b a
  stable : ∀ compare items, Consistent compare items → ∀ a ∈ items,
    (sort compare items).filter (fun b => compare a b = some 0) =
      items.filter fun b => compare a b = some 0

section Engines

variable {α : Type} {compare : Compare α} {items : List α}

namespace Consistent

/-- Read the other way round, it is as consistent. -/
theorem swap (h : Consistent compare items) : Consistent (fun a b => compare b a) items where
  number := fun a ha b hb => h.number b hb a ha
  refl := h.refl
  symm := fun a ha b hb => h.symm b hb a ha
  trans := fun a ha b hb c hc hab hbc => h.trans c hc b hb a ha hbc hab
  before_trans := fun a ha b hb c hc hab hbc => h.before_trans c hc b hb a ha hbc hab
  after_trans := fun a ha b hb c hc hab hbc => h.after_trans c hc b hb a ha hbc hab

variable (h : Consistent compare items) {a b c : α} (ha : a ∈ items) (hb : b ∈ items)
  (hc : c ∈ items)
include h ha hb

/-- Two items that are both before each other contradict consistency. -/
theorem not_before_of_before (hab : Before compare a b) : ¬Before compare b a := by
  intro hba
  have hself := h.before_trans a ha b hb a ha hab hba
  rw [Before, h.refl a ha] at hself
  exact absurd hself (by decide)

/-- Either one is before the other or they are equal. -/
theorem trichotomy : Before compare a b ∨ compare a b = some 0 ∨ Before compare b a := by
  obtain ⟨v, hv⟩ := Option.isSome_iff_exists.mp (h.number a ha b hb)
  obtain ⟨w, hw⟩ := Option.isSome_iff_exists.mp (h.number b hb a ha)
  rcases Int.lt_trichotomy v 0 with hneg | rfl | hpos
  · refine Or.inl ?_
    rw [Before, hv]
    exact hneg
  · exact Or.inr (Or.inl hv)
  · refine Or.inr (Or.inr ?_)
    rw [Before, hw, Option.getD_some]
    rcases Int.lt_trichotomy w 0 with hneg | rfl | hwpos
    · exact hneg
    · rw [h.symm b hb a ha hw] at hv
      exact absurd (Option.some.inj hv) (Int.ne_of_lt hpos)
    · -- both after each other, so after itself
      have hself := h.after_trans a ha b hb a ha (by rw [hv]; exact hpos) (by rw [hw]; exact hwpos)
      rw [h.refl a ha] at hself
      exact absurd hself (by decide)

include hc in
/-- What is before a third is before it, or the third is. -/
theorem before_or_before (hac : Before compare a c) :
    Before compare a b ∨ Before compare b c := by
  rcases h.trichotomy ha hb with hab | hab | hba
  · exact Or.inl hab
  · rcases h.trichotomy hb hc with hbc | hbc | hcb
    · exact Or.inr hbc
    · rw [Before, h.trans a ha b hb c hc hab hbc] at hac
      exact absurd hac (by decide)
    · exact Or.inl (h.before_trans a ha c hc b hb hac hcb)
  · exact Or.inr (h.before_trans b hb a ha c hc hba hac)

end Consistent

/-! ## Insertion from the end -/

/-- Into a sorted list, last item first. -/
def insertFromEnd (compare : Compare α) (x : α) : List α → List α
  | [] => [x]
  | y :: ys => if Before compare x y then y :: insertFromEnd compare x ys else x :: y :: ys

/-- One sort that keeps the promise, for any comparator. -/
def insertionSort (compare : Compare α) (items : List α) : List α :=
  (items.foldl (fun sorted x => insertFromEnd compare x sorted) []).reverse

/-- Nothing is lost on the way to its place. -/
theorem insertFromEnd_perm (compare : Compare α) (x : α) (l : List α) :
    (insertFromEnd compare x l).Perm (x :: l) := by
  induction l with
  | nil => exact List.Perm.refl _
  | cons y ys ih =>
    rw [insertFromEnd]
    split
    next => exact (ih.cons y).trans (List.Perm.swap x y ys)
    next => exact List.Perm.refl _

theorem foldl_insertFromEnd_perm (compare : Compare α) (l sorted : List α) :
    (l.foldl (fun sorted x => insertFromEnd compare x sorted) sorted).Perm (l ++ sorted) := by
  induction l generalizing sorted with
  | nil => exact List.Perm.refl _
  | cons x l ih =>
    exact (ih _).trans (((insertFromEnd_perm compare x sorted).append_left l).trans
      List.perm_middle)

theorem insertionSort_perm (compare : Compare α) (l : List α) :
    (insertionSort compare l).Perm l := by
  have h := foldl_insertFromEnd_perm compare l []
  rw [List.append_nil] at h
  exact (List.reverse_perm _).trans h

section Sorted

variable (h : Consistent compare items)
include h

/-- A sorted list stays sorted as an item is put in. -/
theorem insertFromEnd_pairwise {x : α} (hx : x ∈ items) {l : List α} (hl : ∀ y ∈ l, y ∈ items)
    (hsorted : l.Pairwise fun a b => ¬Before compare a b) :
    (insertFromEnd compare x l).Pairwise fun a b => ¬Before compare a b := by
  induction l with
  | nil => exact List.pairwise_singleton _ _
  | cons y ys ih =>
    obtain ⟨hy, hys⟩ := List.pairwise_cons.mp hsorted
    have hmem := List.forall_mem_cons.mp hl
    rw [insertFromEnd]
    split
    next hxy =>
      refine List.pairwise_cons.mpr ⟨fun z hz => ?_, ih hmem.2 hys⟩
      rcases List.mem_cons.mp ((insertFromEnd_perm compare x ys).mem_iff.mp hz) with rfl | hz
      · exact h.not_before_of_before hx hmem.1 hxy
      · exact hy z hz
    next hxy =>
      refine List.pairwise_cons.mpr ⟨fun z hz => ?_, hsorted⟩
      rcases List.mem_cons.mp hz with rfl | hz
      · exact hxy
      · exact fun hxz =>
          (h.before_or_before hx hmem.1 (hmem.2 z hz) hxz).elim hxy (hy z hz)

/-- Items put in one by one are sorted in the end. -/
theorem foldl_insertFromEnd_pairwise {l sorted : List α} (hl : ∀ y ∈ l, y ∈ items)
    (hmem : ∀ y ∈ sorted, y ∈ items) (hsorted : sorted.Pairwise fun a b => ¬Before compare a b) :
    (l.foldl (fun sorted x => insertFromEnd compare x sorted) sorted).Pairwise
      fun a b => ¬Before compare a b := by
  induction l generalizing sorted with
  | nil => exact hsorted
  | cons x l ih =>
    obtain ⟨hx, hl⟩ := List.forall_mem_cons.mp hl
    refine ih hl (fun y hy => ?_) (insertFromEnd_pairwise h hx hmem hsorted)
    rcases List.mem_cons.mp ((insertFromEnd_perm compare x sorted).mem_iff.mp hy) with rfl | hy
    · exact hx
    · exact hmem y hy

/-- Of a class, what is inserted stands behind those that are there. -/
theorem filter_insertFromEnd {a x : α} (ha : a ∈ items) (hx : x ∈ items) {l : List α}
    (hl : ∀ y ∈ l, y ∈ items) :
    (insertFromEnd compare x l).filter (fun b => compare a b = some 0) =
      (x :: l).filter fun b => compare a b = some 0 := by
  induction l with
  | nil => rfl
  | cons y ys ih =>
    obtain ⟨hy, hys⟩ := List.forall_mem_cons.mp hl
    rw [insertFromEnd]
    split
    next hxy =>
      rw [List.filter_cons, ih hys]
      by_cases hax : compare a x = some 0
      · -- what is passed over is not of the class
        have hay : compare a y ≠ some 0 := by
          intro hay
          have hsame := h.trans x hx a ha y hy (h.symm a ha x hx hax) hay
          rw [Before, hsame] at hxy
          exact absurd hxy (by decide)
        simp [hax, hay]
      · simp [List.filter_cons, hax]
    next => rfl

/-- Items that compare alike stay in their order: each is put behind the ones of
its kind. -/
theorem filter_foldl_insertFromEnd {a : α} (ha : a ∈ items) {l sorted : List α}
    (hl : ∀ y ∈ l, y ∈ items) (hmem : ∀ y ∈ sorted, y ∈ items) :
    (l.foldl (fun sorted x => insertFromEnd compare x sorted) sorted).filter
        (fun b => compare a b = some 0) =
      (l.reverse ++ sorted).filter fun b => compare a b = some 0 := by
  induction l generalizing sorted with
  | nil => rfl
  | cons x l ih =>
    obtain ⟨hx, hl⟩ := List.forall_mem_cons.mp hl
    have hinsert : ∀ y ∈ insertFromEnd compare x sorted, y ∈ items := by
      intro y hy
      rcases List.mem_cons.mp ((insertFromEnd_perm compare x sorted).mem_iff.mp hy) with rfl | hy
      · exact hx
      · exact hmem y hy
    rw [List.foldl_cons, ih hl hinsert, List.filter_append, filter_insertFromEnd h ha hx hmem,
      List.reverse_cons, List.append_assoc, List.singleton_append, List.filter_append]

end Sorted

/-- What a comparator that is not consistent leaves as well. -/
def ArraySort.insertion (α : Type) : ArraySort α where
  sort := insertionSort
  perm := insertionSort_perm
  sorted := by
    intro compare items h
    exact List.pairwise_reverse.mpr
      (foldl_insertFromEnd_pairwise h (fun _ hy => hy) (List.forall_mem_nil _) List.Pairwise.nil)
  stable := by
    intro compare items h a ha
    rw [insertionSort, List.filter_reverse, filter_foldl_insertFromEnd h ha (fun _ hy => hy)
      (List.forall_mem_nil _),
      List.append_nil, List.filter_reverse, List.reverse_reverse]

open Classical in
/-- An engine that leaves some items in any order one likes, where it may. -/
noncomputable def ArraySort.deviating (target order : List α) (horder : order.Perm target) :
    ArraySort α where
  sort compare items :=
    if items = target ∧ ¬Consistent compare items then order else insertionSort compare items
  perm := by
    intro compare items
    split
    next htarget => exact htarget.1 ▸ horder
    next => exact insertionSort_perm compare items
  sorted := by
    intro compare items h
    rw [if_neg fun hand => hand.2 h]
    exact (ArraySort.insertion α).sorted compare items h
  stable := by
    intro compare items h
    rw [if_neg fun hand => hand.2 h]
    exact (ArraySort.insertion α).stable compare items h

/-- The engine answers as it likes where the comparator is not consistent. -/
theorem ArraySort.sort_deviating {target order : List α} (horder : order.Perm target)
    (h : ¬Consistent compare target) :
    (ArraySort.deviating target order horder).sort compare target = order :=
  if_pos ⟨rfl, h⟩

end Engines

end MxExchange.Collections
