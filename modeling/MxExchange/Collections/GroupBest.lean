import MxExchange.Collections.JsMap
import Mathlib.Data.List.Induction
import Mathlib.Data.List.Nodup

/-!
# The best element of each group

One pass over a list that keeps, under the key of each element, the best
element with that key so far: the first one met, until a strictly better one
comes. No more is asked of `better` than that it is transitive and
irreflexive, so elements that do not compare are harmless.

A second pass that asks of each element whether it is the one that was kept
finds exactly one for each key, if no element occurs twice
(`existsUnique_kept`).
-/

namespace MxExchange.Collections

variable {κ α : Type}

/-- What the pass needs of `better x y`, "`x` is better than `y`". -/
structure Strict (better : α → α → Bool) : Prop where
  trans : ∀ {x y z}, better x y = true → better y z = true → better x z = true
  irrefl : ∀ x, better x x = false

/-- An element of the group than which none is better. -/
structure IsBestOf (key : α → κ) (better : α → α → Bool) (l : List α) (k : κ) (x : α) :
    Prop where
  mem : x ∈ l
  key_eq : key x = k
  best : ∀ y ∈ l, key y = k → better y x = false

section Best

variable {key : α → κ} {better : α → α → Bool} {l : List α} {k : κ} {x y : α}

/-- An element that is not better, or not of the group, changes nothing. -/
theorem IsBestOf.append (h : IsBestOf key better l k y)
    (hx : key x = k → better x y = false) : IsBestOf key better (l ++ [x]) k y where
  mem := List.mem_append_left _ h.mem
  key_eq := h.key_eq
  best z hz hzk := by
    rcases List.mem_append.mp hz with hz' | hz'
    · exact h.best z hz' hzk
    · rw [List.mem_singleton.mp hz'] at hzk ⊢
      exact hx hzk

/-- A newcomer that nothing before beats is the best of its key. -/
theorem isBestOf_append_self (hirrefl : better x x = false)
    (hrest : ∀ y ∈ l, key y = key x → better y x = false) :
    IsBestOf key better (l ++ [x]) (key x) x where
  mem := List.mem_append_right _ List.mem_cons_self
  key_eq := rfl
  best z hz hzk := by
    rcases List.mem_append.mp hz with hz' | hz'
    · exact hrest z hz' hzk
    · rw [List.mem_singleton.mp hz']
      exact hirrefl

end Best

section Pass

variable [DecidableEq κ] (key : α → κ) (better : α → α → Bool)

/-- One element. -/
def keepBest (best : JsMap κ α) (x : α) : JsMap κ α :=
  let kept := (JsMap.get best (key x)).getD x
  JsMap.set best (key x) (if better x kept then x else kept)

/-- The best of each key, the keys in the order they came up. -/
def groupBest (l : List α) : JsMap κ α := l.foldl (keepBest key better) []

variable {key better} {l : List α} {k : κ} {x y : α}

/-- One more element meets the best of its key so far. -/
theorem groupBest_concat :
    groupBest key better (l ++ [x]) = keepBest key better (groupBest key better l) x := by
  rw [groupBest, List.foldl_append]
  rfl

/-- The other keys are left alone. -/
theorem get_keepBest_of_ne {best : JsMap κ α} (h : key x ≠ k) :
    JsMap.get (keepBest key better best x) k = JsMap.get best k := by
  rw [keepBest, JsMap.get_set_ne _ fun heq => h heq.symm]

/-- What the pass keeps: for every key that occurs, and only for those, a
best element. -/
theorem get_groupBest (key : α → κ) (h : Strict better) (l : List α) (k : κ) :
    match JsMap.get (groupBest key better l) k with
    | some x => IsBestOf key better l k x
    | none => ∀ x ∈ l, key x ≠ k := by
  induction l using List.reverseRecOn with
  | nil => simp [groupBest]
  | append_singleton l x ih =>
    rw [groupBest_concat]
    by_cases hkey : key x = k
    · subst hkey
      rw [keepBest, JsMap.get_set_self]
      dsimp only
      cases hkept : JsMap.get (groupBest key better l) (key x) with
      | none =>
        rw [hkept] at ih
        rw [Option.getD_none, ite_self]
        exact isBestOf_append_self (h.irrefl x) fun y hy hyk => absurd hyk (ih y hy)
      | some y =>
        rw [hkept] at ih
        rw [Option.getD_some]
        dsimp only at ih
        split
        next hbetter =>
          -- nothing is better than what beats the best so far
          refine isBestOf_append_self (h.irrefl x) fun z hz hzk => ?_
          by_contra hzx
          have hzy := h.trans (eq_true_of_ne_false hzx) hbetter
          rw [ih.best z hz hzk] at hzy
          cases hzy
        next hnot => exact ih.append fun _ => eq_false_of_ne_true hnot
    · rw [get_keepBest_of_ne hkey]
      cases hkept : JsMap.get (groupBest key better l) k with
      | none =>
        rw [hkept] at ih
        intro y hy
        rcases List.mem_append.mp hy with hy' | hy'
        · exact ih y hy'
        · rw [List.mem_singleton.mp hy']
          exact hkey
      | some y =>
        rw [hkept] at ih
        exact IsBestOf.append ih fun heq => absurd heq hkey

/-- What is kept of a key is the best of its elements. -/
theorem isBestOf_of_get (h : Strict better)
    (hget : JsMap.get (groupBest key better l) k = some x) : IsBestOf key better l k x := by
  have hspec := get_groupBest key h l k
  rw [hget] at hspec
  exact hspec

/-- Every key that occurs has its best. -/
theorem exists_get_groupBest (key : α → κ) (h : Strict better) (hx : x ∈ l) :
    ∃ y, JsMap.get (groupBest key better l) (key x) = some y := by
  have hspec := get_groupBest key h l (key x)
  cases hkept : JsMap.get (groupBest key better l) (key x) with
  | none =>
    rw [hkept] at hspec
    exact absurd rfl (hspec x hx)
  | some y => exact ⟨y, rfl⟩

/-- The second pass: each key that occurs is found once. -/
theorem existsUnique_kept (h : Strict better) (hnodup : l.Nodup) (hk : ∃ x ∈ l, key x = k) :
    ∃! i : ℕ, ∃ x, l[i]? = some x ∧ key x = k ∧
      JsMap.get (groupBest key better l) (key x) = some x := by
  obtain ⟨x, hx, rfl⟩ := hk
  obtain ⟨y, hy⟩ := exists_get_groupBest key h hx
  have hbest := isBestOf_of_get h hy
  obtain ⟨i, hi, hiy⟩ := List.getElem_of_mem hbest.mem
  refine ⟨i, ⟨y, by rw [List.getElem?_eq_getElem hi, hiy], hbest.key_eq, ?_⟩, ?_⟩
  · rw [hbest.key_eq]
    exact hy
  · rintro j ⟨z, hz, hkey, hkept⟩
    rw [hkey, hy] at hkept
    obtain ⟨hj, -⟩ := List.getElem?_eq_some_iff.mp hz
    refine (List.getElem?_inj hj hnodup).mp ?_
    rw [hz, List.getElem?_eq_getElem hi, hiy, hkept]

end Pass

end MxExchange.Collections
