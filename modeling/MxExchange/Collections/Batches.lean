import Mathlib.Data.List.Basic

/-!
# Lists in batches

A loop that collects elements, hands over what it has whenever that is
`size` of them, and hands over the rest at its end. `batchesFrom` is what
such a loop hands over if it has collected something already: everything, in
order and once (`flatten_batches`).
-/

namespace MxExchange.Collections

variable {α : Type} {size : ℕ}

/-- A batch is full with `size` items, and the last one may not be. -/
def batchesFrom (size : ℕ) : List α → List α → List (List α)
  | collected, [] => if 0 < collected.length then [collected] else []
  | collected, x :: rest =>
    if (collected ++ [x]).length = size then
      (collected ++ [x]) :: batchesFrom size [] rest
    else batchesFrom size (collected ++ [x]) rest

/-- The batches of a whole list. -/
def batches (size : ℕ) (l : List α) : List (List α) := batchesFrom size [] l

/-- What has been collected comes first. -/
theorem flatten_batchesFrom (collected l : List α) :
    (batchesFrom size collected l).flatten = collected ++ l := by
  induction l generalizing collected with
  | nil =>
    unfold batchesFrom
    split
    next => simp
    next h => simp [List.length_eq_zero_iff.mp (Nat.eq_zero_of_not_pos h)]
  | cons x rest ih =>
    unfold batchesFrom
    split
    next => rw [List.flatten_cons, ih, List.nil_append, List.append_assoc, List.singleton_append]
    next => rw [ih, List.append_assoc, List.singleton_append]

/-- No item is lost, doubled or moved by batching. -/
theorem flatten_batches (l : List α) : (batches size l).flatten = l :=
  flatten_batchesFrom [] l

/-- Nothing is handed over only if there is nothing. -/
theorem batches_eq_nil_iff {l : List α} : batches size l = [] ↔ l = [] := by
  constructor
  · intro h
    have hflat : (batches size l).flatten = l := flatten_batches l
    rw [← hflat, h, List.flatten_nil]
  · rintro rfl
    rfl

/-- Something of each batch is something of the list. -/
theorem flatMap_batches_sublist {f : List α → List α} (hf : ∀ batch, (f batch).Sublist batch)
    (l : List α) : ((batches size l).flatMap f).Sublist l := by
  have hflat : ∀ ls : List (List α), (ls.flatMap f).Sublist ls.flatten := by
    intro ls
    induction ls with
    | nil => exact List.Sublist.refl _
    | cons batch ls ih =>
      rw [List.flatMap_cons, List.flatten_cons]
      exact (hf batch).append ih
  have h := hflat (batches size l)
  rwa [flatten_batches] at h

end MxExchange.Collections
