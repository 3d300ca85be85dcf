import Mathlib.Data.List.Basic

/-!
# Insertion-ordered maps

JavaScript's `Map`: an association list in insertion order, where setting a
key that is present overwrites its value in place. `set_get_self` is the
property backtracking code relies on: writing back the value a key had
leaves the very same map.
-/

namespace MxExchange.Collections

variable {κ ν : Type} [DecidableEq κ]

/-- The entries, the oldest first. A key has one value if the map was built by
`set`. -/
abbrev JsMap (κ ν : Type) := List (κ × ν)

namespace JsMap

/-- `map.get(key)`, where `none` is `undefined`. -/
def get : JsMap κ ν → κ → Option ν
  | [], _ => none
  | (k', v) :: m, k => if k' = k then some v else get m k

/-- `map.set(key, value)`: a new key goes to the end, one that is there keeps
its place. -/
def set : JsMap κ ν → κ → ν → JsMap κ ν
  | [], k, v => [(k, v)]
  | (k', v') :: m, k, v => if k' = k then (k, v) :: m else (k', v') :: set m k v

/-- `map.keys()`. -/
def keys (m : JsMap κ ν) : List κ := m.map Prod.fst

@[simp] theorem get_nil (k : κ) : get ([] : JsMap κ ν) k = none := rfl

@[simp] theorem get_set_self (m : JsMap κ ν) (k : κ) (v : ν) : get (set m k v) k = some v := by
  induction m with
  | nil => simp [set, get]
  | cons e m ih =>
    by_cases h : e.1 = k
    · simp [set, get, h]
    · simp [set, get, h, ih]

@[simp] theorem get_set_ne (m : JsMap κ ν) {k k' : κ} (h : k' ≠ k) (v : ν) :
    get (set m k v) k' = get m k' := by
  induction m with
  | nil => simp [set, get, h.symm]
  | cons e m ih =>
    by_cases he : e.1 = k
    · have hk' : e.1 ≠ k' := fun heq => h (heq.symm.trans he)
      simp [set, get, he, h.symm]
    · by_cases hk' : e.1 = k'
      · subst hk'
        simp [set, get, he]
      · simp [set, get, he, hk', ih]

/-- What is read after a write: what was written, or under another key what was
there before. -/
theorem get_set (m : JsMap κ ν) (k k' : κ) (v : ν) :
    get (set m k v) k' = if k' = k then some v else get m k' := by
  by_cases h : k' = k
  · rw [if_pos h, h, get_set_self]
  · rw [if_neg h, get_set_ne m h]

/-- Only the later of two writes to a key counts. -/
@[simp] theorem set_set (m : JsMap κ ν) (k : κ) (v v' : ν) :
    set (set m k v) k v' = set m k v' := by
  induction m with
  | nil => simp [set]
  | cons e m ih =>
    by_cases he : e.1 = k
    · simp [set, he]
    · simp [set, he, ih]

/-- Writing back what is there changes nothing, not even the order. -/
theorem set_get_self {m : JsMap κ ν} {k : κ} {v : ν} (h : get m k = some v) : set m k v = m := by
  induction m with
  | nil => simp at h
  | cons e m ih =>
    obtain ⟨k', v'⟩ := e
    by_cases he : k' = k
    · simp only [get, he, if_true, Option.some.injEq] at h
      simp [set, he, h]
    · simp only [get, he, if_false] at h
      simp [set, he, ih h]

/-- The keys are what `get` finds something for. -/
theorem mem_keys_iff {m : JsMap κ ν} {k : κ} : k ∈ keys m ↔ get m k ≠ none := by
  induction m with
  | nil => simp [keys]
  | cons e m ih =>
    by_cases he : e.1 = k
    · simp [keys, get, he]
    · have : k ≠ e.1 := fun h => he h.symm
      rw [keys, List.map_cons, List.mem_cons]
      simp only [get, he, if_false, this, false_or]
      exact ih

theorem mem_keys_set {m : JsMap κ ν} {k k' : κ} {v : ν} :
    k' ∈ keys (set m k v) ↔ k' = k ∨ k' ∈ keys m := by
  rw [mem_keys_iff, mem_keys_iff, get_set]
  by_cases h : k' = k <;> simp [h]

/-- The order of the keys: a write adds its key at the end, if at all. -/
theorem keys_set (m : JsMap κ ν) (k : κ) (v : ν) :
    keys (set m k v) = if k ∈ keys m then keys m else keys m ++ [k] := by
  induction m with
  | nil => rfl
  | cons e m ih =>
    -- a key that is there keeps its place, another one is put behind all
    by_cases he : e.1 = k
    · simp [set, keys, he]
    · have hne : k ≠ e.1 := fun h => he h.symm
      have hset : keys (set (e :: m) k v) = e.1 :: keys (set m k v) := by
        simp [set, he, keys]
      rw [hset, ih]
      by_cases hk : k ∈ keys m <;> simp_all [keys]

/-- No write makes a key appear twice. -/
theorem nodup_keys_set {m : JsMap κ ν} (h : (keys m).Nodup) (k : κ) (v : ν) :
    (keys (set m k v)).Nodup := by
  rw [keys_set]
  split
  next => exact h
  next hk => exact List.nodup_append.mpr ⟨h, by simp, by
      intro x hx y hy
      rw [List.mem_singleton.mp hy]
      exact fun heq => hk (heq ▸ hx)⟩

/-! ## One value for a key -/

/-- What `get` finds is an entry. -/
theorem mem_of_get {m : JsMap κ ν} {k : κ} {v : ν} (h : get m k = some v) : (k, v) ∈ m := by
  induction m with
  | nil => cases h
  | cons e m ih =>
    rw [get] at h
    split at h
    next hk =>
      subst hk
      rw [Option.some.inj h.symm]
      exact List.mem_cons_self
    next => exact List.mem_cons_of_mem e (ih h)

section Distinct

variable {β : Type} {m : JsMap κ ν}

/-- A key without entries has none to collect. -/
theorem flatMap_key_of_not_mem {k : κ} (h : k ∉ keys m) (f : ν → List β) :
    (m.flatMap fun e => if e.1 = k then f e.2 else []) = [] := by
  rw [List.flatMap_eq_nil_iff]
  intro e he
  rw [if_neg]
  rintro rfl
  exact h (List.mem_map_of_mem he)

/-- All entries of a key are the one that `get` finds. -/
theorem flatMap_key (h : (keys m).Nodup) (k : κ) (f : ν → List β) :
    (m.flatMap fun e => if e.1 = k then f e.2 else []) = ((get m k).map f).getD [] := by
  induction m with
  | nil => rfl
  | cons e m ih =>
    obtain ⟨hnot, hnodup⟩ := List.nodup_cons.mp h
    by_cases hk : e.1 = k
    · subst hk
      rw [List.flatMap_cons, if_pos rfl, flatMap_key_of_not_mem hnot, List.append_nil]
      simp [get]
    · rw [List.flatMap_cons, if_neg hk, List.nil_append, ih hnodup, get, if_neg hk]

/-- The same for the values themselves: one at most. -/
theorem filterMap_key (h : (keys m).Nodup) (k : κ) :
    (m.filterMap fun e => if e.1 = k then some e.2 else none) = (get m k).toList := by
  have hlists : (fun e : κ × ν => (if e.1 = k then some e.2 else none).toList) =
      fun e => if e.1 = k then [e.2] else [] := by
    funext e
    split <;> rfl
  rw [List.filterMap_eq_flatMap_toList, hlists, flatMap_key h k fun v => [v]]
  cases get m k <;> rfl

end Distinct

end JsMap

end MxExchange.Collections
