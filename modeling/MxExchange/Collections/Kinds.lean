import Mathlib.Data.List.Basic
import Mathlib.Data.List.Dedup
import Mathlib.Data.List.Perm.Basic

/-!
# Things of several kinds

Things are listed by kind, each kind with its own test and its own way of showing
a thing. One more list shows them all together, each as the one kind that a
function finds for it. The function `Sorts` the things if it finds a kind that
the thing is of, whenever there is one.

Then the lists by kind have what the one list has, and besides it what is shown
again: the things that are also of a kind other than the one found
(`listings_perm`). Where no thing is of two kinds nothing is shown again
(`shownAgain_eq_nil`).
-/

namespace MxExchange.Collections.Kinds

variable {ι α β : Type}

/-- The kind found for a thing is one it is of, and if it is of any, one is found. -/
structure Sorts (isOf : ι → α → Bool) (kindOf : α → Option ι) (things : List α) : Prop where
  sound : ∀ a ∈ things, ∀ k, kindOf a = some k → isOf k a = true
  complete : ∀ a ∈ things, ∀ k, isOf k a = true → kindOf a ≠ none

/-- The things of a kind, as they are shown. What cannot be shown is left out. -/
def listing (isOf : ι → α → Bool) (shown : ι → α → Option β) (things : List α) (k : ι) : List β :=
  (things.filter (isOf k)).filterMap (shown k)

/-- All things of some kind, each shown as the kind found for it. -/
def together (kindOf : α → Option ι) (shown : ι → α → Option β) (things : List α) : List β :=
  things.filterMap fun a => (kindOf a).bind fun k => shown k a

/-- Going through the things, what each is shown as is added, if it is anything. -/
theorem together_eq_flatMap {kindOf : α → Option ι} {shown : ι → α → Option β} {things : List α}
    {pushed : α → List β}
    (h : ∀ a, pushed a = ((kindOf a).bind fun k => shown k a).toList) :
    things.flatMap pushed = together kindOf shown things := by
  rw [together, List.filterMap_eq_flatMap_toList]
  exact congrArg things.flatMap (funext h)

/-- A thing is in the list of a kind that shows everything of a first test by a second. -/
theorem listing_eq {isOf : ι → α → Bool} {shown : ι → α → Option β} {things : List α} {k : ι}
    {asked admitted : α → Bool} (h : ∀ a, isOf k a = (asked a && admitted a)) :
    listing isOf shown things k = ((things.filter asked).filter admitted).filterMap (shown k) := by
  rw [listing, List.filter_filter]
  congr 2
  funext a
  rw [h, Bool.and_comm]

variable [DecidableEq ι]

/-- The things that are shown as a kind other than the one found for them. -/
def shownAgain (isOf : ι → α → Bool) (kindOf : α → Option ι) (shown : ι → α → Option β)
    (things : List α) (kinds : List ι) : List β :=
  kinds.flatMap fun k =>
    (things.filter fun a => isOf k a && decide (kindOf a ≠ some k)).filterMap (shown k)

/-- A single thing is found in the list of its kind. -/
theorem flatMap_kindOf {kinds : List ι} (hnodup : kinds.Nodup) (found : Option ι)
    (hmem : ∀ k, found = some k → k ∈ kinds) (shown : ι → List β) :
    kinds.flatMap (fun k => if found = some k then shown k else []) =
      (found.map shown).getD [] := by
  cases found with
  | none => exact List.flatMap_eq_nil_iff.mpr fun k _ => if_neg (by simp)
  | some k =>
    have hk := hmem k rfl
    clear hmem
    induction kinds with
    | nil => exact absurd hk List.not_mem_nil
    | cons k' kinds ih =>
      obtain ⟨hk', hnodup⟩ := List.nodup_cons.mp hnodup
      rw [List.flatMap_cons]
      by_cases heq : k = k'
      · subst heq
        rw [if_pos rfl, List.flatMap_eq_nil_iff.mpr, List.append_nil]
        · rfl
        · intro other hother
          rw [if_neg]
          intro hsame
          exact hk' (Option.some.inj hsame ▸ hother)
      · rw [if_neg fun hsame => heq (Option.some.inj hsame), List.nil_append]
        exact ih hnodup ((List.mem_cons.mp hk).resolve_left heq)

/-- Sorted by the kind found for them, things are neither lost nor repeated. -/
theorem flatMap_filter_perm {kinds : List ι} (hnodup : kinds.Nodup) (kindOf : α → Option ι)
    (shown : ι → α → Option β) (things : List α)
    (hmem : ∀ a ∈ things, ∀ k, kindOf a = some k → k ∈ kinds) :
    (kinds.flatMap fun k =>
      (things.filter fun a => decide (kindOf a = some k)).filterMap (shown k)).Perm
        (together kindOf shown things) := by
  induction things with
  | nil => simp [together]
  | cons a things ih =>
    have hsplit : (fun k => ((a :: things).filter fun a => decide (kindOf a = some k)).filterMap
        (shown k)) = fun k => (if kindOf a = some k then (shown k a).toList else []) ++
          (things.filter fun a => decide (kindOf a = some k)).filterMap (shown k) := by
      funext k
      by_cases hk : kindOf a = some k
      · rw [List.filter_cons_of_pos (by rw [decide_eq_true_iff]; exact hk), if_pos hk,
          List.filterMap_cons]
        cases shown k a <;> rfl
      · rw [List.filter_cons_of_neg (by rw [decide_eq_true_iff]; exact hk), if_neg hk,
          List.nil_append]
    have hhead : ((kindOf a).map fun k => (shown k a).toList).getD [] ++
        together kindOf shown things = together kindOf shown (a :: things) := by
      unfold together
      rw [List.filterMap_cons]
      cases kindOf a with
      | none => rfl
      | some k =>
        show (shown k a).toList ++ _ = match shown k a with
          | none => _
          | some b => b :: _
        cases shown k a <;> rfl
    rw [hsplit, ← hhead, ← flatMap_kindOf hnodup (kindOf a) (hmem a List.mem_cons_self)]
    refine (List.flatMap_append_perm kinds _ _).symm.trans ?_
    exact (ih fun other hother => hmem other (List.mem_cons_of_mem a hother)).append_left _

/-- **All lists together** have what the one list has, and what is shown again. -/
theorem listings_perm {isOf : ι → α → Bool} {kindOf : α → Option ι} {things : List α}
    (h : Sorts isOf kindOf things) (shown : ι → α → Option β) {kinds : List ι}
    (hnodup : kinds.Nodup) (hall : ∀ k, k ∈ kinds) :
    (kinds.flatMap (listing isOf shown things)).Perm
      (together kindOf shown things ++ shownAgain isOf kindOf shown things kinds) := by
  have hkind : ∀ k ∈ kinds, (listing isOf shown things k).Perm
      ((things.filter fun a => decide (kindOf a = some k)).filterMap (shown k) ++
        (things.filter fun a => isOf k a && decide (kindOf a ≠ some k)).filterMap (shown k)) := by
    intro k _
    have hfound : (things.filter (isOf k)).filter (fun a => decide (kindOf a = some k)) =
        things.filter fun a => decide (kindOf a = some k) := by
      rw [List.filter_filter]
      apply List.filter_congr
      intro a ha
      rw [Bool.and_eq_left_iff_imp, decide_eq_true_iff]
      exact h.sound a ha k
    have hother : (things.filter (isOf k)).filter (fun a => !decide (kindOf a = some k)) =
        things.filter fun a => isOf k a && decide (kindOf a ≠ some k) := by
      rw [List.filter_filter]
      apply List.filter_congr
      intro a _
      rw [Bool.and_comm, decide_not]
    rw [← hfound, ← hother, ← List.filterMap_append]
    exact (List.filter_append_perm _ _).symm.filterMap _
  refine (List.Perm.flatMap_left kinds hkind).trans ?_
  refine (List.flatMap_append_perm kinds _ _).symm.trans ?_
  exact (flatMap_filter_perm hnodup kindOf shown things fun _ _ k _ => hall k).append_right _

/-- Things of one kind at most are shown once. -/
theorem shownAgain_eq_nil {isOf : ι → α → Bool} {kindOf : α → Option ι} {things : List α}
    (h : Sorts isOf kindOf things) (shown : ι → α → Option β) (kinds : List ι)
    (hone : ∀ a ∈ things, ∀ k k', isOf k a = true → isOf k' a = true → k = k') :
    shownAgain isOf kindOf shown things kinds = [] := by
  unfold shownAgain
  rw [List.flatMap_eq_nil_iff]
  intro k _
  rw [List.filter_eq_nil_iff.mpr]
  · rfl
  · intro a ha hshown
    rw [Bool.and_eq_true, decide_eq_true_iff] at hshown
    obtain ⟨found, hfound⟩ := Option.ne_none_iff_exists'.mp (h.complete a ha k hshown.1)
    apply hshown.2
    rw [hfound, hone a ha k found hshown.1 (h.sound a ha found hfound)]

end MxExchange.Collections.Kinds
