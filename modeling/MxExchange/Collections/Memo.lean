import MxExchange.Collections.JsMap

/-!
# Answers kept under a key

A call is answered from a cache under a key made from it, and otherwise
computed and kept, unless the computation fails. The key need not tell two
calls apart. What the cache holds is then the answer of the first call under
each key that did not fail (`Remembers`), and that is what every later call
under the key is answered with (`Remembers.answer`).
-/

namespace MxExchange.Collections

variable {α κ ε ν : Type} [DecidableEq κ]

/-- The entry if there is one, and otherwise what is computed. -/
def getOrCompute (key : κ) (compute : Except ε ν) (cache : JsMap κ ν) : Except ε ν × JsMap κ ν :=
  match JsMap.get cache key with
  | some value => (.ok value, cache)
  | none =>
    match compute with
    | .ok value => (.ok value, JsMap.set cache key value)
    | .error e => (.error e, cache)

/-- The first call under a key that did not fail. -/
def firstKept (key : α → κ) (raw : α → Except ε ν) (calls : List α) (k : κ) : Option α :=
  calls.find? fun call => key call = k ∧ (raw call).toOption.isSome

/-- The cache holds what the calls so far have left there. -/
def Remembers (key : α → κ) (raw : α → Except ε ν) (calls : List α) (cache : JsMap κ ν) : Prop :=
  ∀ k, JsMap.get cache k = (firstKept key raw calls k).bind fun call => (raw call).toOption

/-- A call overwrites nothing. -/
theorem get_getOrCompute_of_some {key k : κ} {compute : Except ε ν} {cache : JsMap κ ν} {value : ν}
    (h : JsMap.get cache k = some value) :
    JsMap.get (getOrCompute key compute cache).2 k = some value := by
  unfold getOrCompute
  cases hget : JsMap.get cache key with
  | some _ => exact h
  | none =>
    cases compute with
    | error e => exact h
    | ok other =>
      have hne : k ≠ key := by
        rintro rfl
        rw [hget] at h
        cases h
      exact (JsMap.get_set_ne cache hne other).trans h

/-- What a call that cannot fail is answered with is there afterwards. -/
theorem getOrCompute_ok (key : κ) (value : ν) (cache : JsMap κ ν) :
    ∃ kept, (getOrCompute key (.ok value : Except ε ν) cache).1 = .ok kept ∧
      JsMap.get (getOrCompute key (.ok value : Except ε ν) cache).2 key = some kept := by
  unfold getOrCompute
  cases hget : JsMap.get cache key with
  | some kept => exact ⟨kept, rfl, hget⟩
  | none => exact ⟨value, rfl, JsMap.get_set_self cache key value⟩

section Memo

variable {key : α → κ} {raw : α → Except ε ν} {calls : List α} {cache : JsMap κ ν} {k : κ}

/-- A later call is kept only if its key has none yet, and if it succeeds. -/
theorem firstKept_concat (call : α) :
    firstKept key raw (calls ++ [call]) k =
      (firstKept key raw calls k).or
        (if key call = k ∧ (raw call).toOption.isSome then some call else none) := by
  rw [firstKept, List.find?_append, List.find?_singleton]
  simp only [decide_eq_true_eq]
  rfl

/-- What is kept comes from a call with this key that succeeded. -/
theorem of_firstKept_eq_some {call : α} (h : firstKept key raw calls k = some call) :
    key call = k ∧ ∃ value, raw call = .ok value := by
  have hfound := List.find?_some (p := fun call => key call = k ∧ (raw call).toOption.isSome) h
  obtain ⟨hkey, hkept⟩ := of_decide_eq_true hfound
  refine ⟨hkey, ?_⟩
  cases hraw : raw call with
  | ok value => exact ⟨value, rfl⟩
  | error e =>
    rw [hraw] at hkept
    cases hkept

theorem firstKept_singleton {call : α} {value : ν} (hkey : key call = k)
    (hvalue : raw call = .ok value) : firstKept key raw [call] k = some call := by
  rw [firstKept, List.find?_singleton, if_pos]
  rw [decide_eq_true_eq, hvalue]
  exact ⟨hkey, rfl⟩

theorem remembers_nil : Remembers key raw [] ([] : JsMap κ ν) := fun _ => rfl

/-- The entry of a call's key, if an earlier call has left one. -/
theorem Remembers.get_some (h : Remembers key raw calls cache) {first : α} {value : ν}
    (hfirst : firstKept key raw calls k = some first) (hvalue : raw first = .ok value) :
    JsMap.get cache k = some value := by
  rw [h k, hfirst, Option.bind_some, hvalue]
  rfl

/-- A key without a call has no entry. -/
theorem Remembers.get_none (h : Remembers key raw calls cache)
    (hnone : firstKept key raw calls k = none) : JsMap.get cache k = none := by
  rw [h k, hnone, Option.bind_none]

/-- A call is answered as the first of its key was. -/
theorem Remembers.answer (h : Remembers key raw calls cache) (call : α) :
    (getOrCompute (key call) (raw call) cache).1 =
      raw ((firstKept key raw calls (key call)).getD call) := by
  unfold getOrCompute
  cases hfirst : firstKept key raw calls (key call) with
  | some first =>
    obtain ⟨-, value, hvalue⟩ := of_firstKept_eq_some hfirst
    rw [h.get_some hfirst hvalue, Option.getD_some, hvalue]
  | none =>
    rw [h.get_none hfirst, Option.getD_none]
    cases raw call <;> rfl

/-- There is an entry exactly for the keys with a call that was kept. -/
theorem Remembers.firstKept_isSome_iff (h : Remembers key raw calls cache) :
    JsMap.get cache k ≠ none ↔ firstKept key raw calls k ≠ none := by
  cases hfirst : firstKept key raw calls k with
  | some first =>
    obtain ⟨-, value, hvalue⟩ := of_firstKept_eq_some hfirst
    rw [h.get_some hfirst hvalue]
    exact iff_of_true (Option.some_ne_none _) (Option.some_ne_none _)
  | none =>
    rw [h.get_none hfirst]
    exact iff_of_false (fun hne => hne rfl) (fun hne => hne rfl)

/-- A call that fails, or whose key is taken, leaves nothing. -/
theorem Remembers.skip (h : Remembers key raw calls cache) {call : α}
    (hnothing : JsMap.get cache (key call) ≠ none ∨ (raw call).toOption.isSome = false) :
    Remembers key raw (calls ++ [call]) cache := by
  intro k
  rw [firstKept_concat, h k]
  cases hfirst : firstKept key raw calls k with
  | some first => rfl
  | none =>
    have hnot : ¬(key call = k ∧ (raw call).toOption.isSome) := by
      rintro ⟨rfl, hkept⟩
      rcases hnothing with htaken | hfailed
      · exact (h.firstKept_isSome_iff.mp htaken) hfirst
      · rw [hfailed] at hkept
        cases hkept
    rw [if_neg hnot]
    rfl

/-- What a call leaves behind. -/
theorem Remembers.getOrCompute (h : Remembers key raw calls cache) (call : α) :
    Remembers key raw (calls ++ [call]) (getOrCompute (key call) (raw call) cache).2 := by
  unfold Collections.getOrCompute
  cases hget : JsMap.get cache (key call) with
  | some value =>
    refine h.skip (Or.inl ?_)
    rw [hget]
    exact Option.some_ne_none _
  | none =>
    cases hraw : raw call with
    | error e =>
      refine h.skip (Or.inr ?_)
      rw [hraw]
      rfl
    | ok value =>
      intro k
      rw [firstKept_concat]
      show JsMap.get (JsMap.set cache (key call) value) k = _
      rw [JsMap.get_set]
      by_cases hk : key call = k
      · subst hk
        have hnone : firstKept key raw calls (key call) = none := by
          by_contra hsome
          exact (h.firstKept_isSome_iff.mpr hsome) hget
        rw [if_pos rfl, hnone, if_pos ⟨rfl, by rw [hraw]; rfl⟩, Option.none_or,
          Option.bind_some, hraw]
        rfl
      · rw [if_neg (Ne.symm hk), if_neg (fun hand => hk hand.1), Option.or_none, h k]

end Memo

end MxExchange.Collections
