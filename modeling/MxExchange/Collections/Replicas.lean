import MxExchange.Collections.Runs
import Mathlib.Logic.Function.Basic

/-!
# Copies of a shared store

Several processes read the values of a source. They share a store of values
they have loaded, and each keeps copies of its own in front of it. A change
of the source is an event: the one process that works through the events
writes what they carry to the store, and then sends the others the keys it
has written, so that they drop their copies.

A process that has no copy asks the store, and loads the value if the store
has none. What it has loaded goes to the store first, and then it makes its
copy of what it knows the store to have had (`store`, `take`): the others can
do anything in between.

A copy may be old, but then something that will drop it is on its way: its
event is waiting, or its key has been written and is still to be sent, or
has been sent and has not arrived (`Covered`). Fetching a value takes time,
and a value on its way into the store or into a copy must not be overtaken:
if it never is (`Ordered`), a process never gets an old value that nothing
will drop (`inv_step`, `Inv.value_covered`).
-/

namespace MxExchange.Collections

/-- How far a process has got with a value it has no copy of. -/
inductive Found (ν : Type) where
  | asking
  | shared (v : ν)
  | missing
  | loaded (v : ν)

/-- The value is in the store, and is to be copied. -/
def Found.isShared {ν : Type} : Found ν → Bool
  | shared _ => true
  | _ => false

/-- The value is to be stored. -/
def Found.isLoaded {ν : Type} : Found ν → Bool
  | loaded _ => true
  | _ => false

/-- A process on its way to the value of a key. -/
structure Fetch (κ ν ρ : Type) where
  process : ρ
  key : κ
  found : Found ν

/-- `writes` is what is left to write of the event taken up, `written` are
its keys that nobody has been told of, `told` the keys on their way to a
process. -/
structure Replicas (κ ν ρ : Type) where
  source : κ → ν
  waiting : List (List (κ × ν))
  writes : List (κ × ν)
  written : List κ
  shared : κ → Option ν
  copy : ρ → κ → Option ν
  told : ρ → List κ
  fetches : List (Fetch κ ν ρ)

namespace Replicas

/-- What can happen next. -/
inductive Action (κ ν ρ : Type) where
  | change (event : List (κ × ν))
  | takeUp
  | write
  | publish
  | delete (r : ρ) (i : ℕ)
  | fetch (r : ρ) (k : κ)
  | look (i : ℕ)
  | load (i : ℕ)
  | store (i : ℕ)
  | take (i : ℕ)
  | expireShared (k : κ)
  | expireCopy (r : ρ) (k : κ)

section Step

variable {κ ν ρ : Type} [DecidableEq κ] [DecidableEq ρ]

/-- The source after the changes of an event. -/
def changed (source : κ → ν) (event : List (κ × ν)) : κ → ν :=
  event.foldl (fun source w => Function.update source w.1 w.2) source

/-- The copies after process `r` has set one of its own. -/
def setCopy (copy : ρ → κ → Option ν) (r : ρ) (k : κ) (v : Option ν) : ρ → κ → Option ν :=
  Function.update copy r (Function.update (copy r) k v)

/-- `handler` is the process that works through the events. -/
def step (handler : ρ) (s : Replicas κ ν ρ) : Action κ ν ρ → Option (Replicas κ ν ρ)
  | .change event => some { s with
      source := changed s.source event
      waiting := s.waiting ++ [event] }
  | .takeUp =>
    match s.writes, s.written, s.waiting with
    | [], [], event :: waiting => some { s with writes := event, waiting := waiting }
    | _, _, _ => none
  | .write =>
    match s.writes with
    | (k, v) :: writes => some { s with
        shared := Function.update s.shared k (some v)
        copy := setCopy s.copy handler k (some v)
        writes := writes
        written := s.written ++ [k] }
    | [] => none
  | .publish =>
    match s.writes with
    | [] => some { s with told := fun r => s.told r ++ s.written, written := [] }
    | _ :: _ => none
  | .delete r i =>
    match (s.told r)[i]? with
    | some k => some { s with
        copy := setCopy s.copy r k none
        told := Function.update s.told r ((s.told r).eraseIdx i) }
    | none => none
  | .fetch r k =>
    match s.copy r k with
    | some _ => some s
    | none => some { s with fetches := s.fetches ++ [⟨r, k, .asking⟩] }
  | .look i =>
    match s.fetches[i]? with
    | some ⟨r, k, .asking⟩ =>
      match s.shared k with
      | some v => some { s with fetches := s.fetches.set i ⟨r, k, .shared v⟩ }
      | none => some { s with fetches := s.fetches.set i ⟨r, k, .missing⟩ }
    | _ => none
  | .load i =>
    match s.fetches[i]? with
    | some ⟨r, k, .missing⟩ =>
      some { s with fetches := s.fetches.set i ⟨r, k, .loaded (s.source k)⟩ }
    | _ => none
  | .store i =>
    match s.fetches[i]? with
    | some ⟨r, k, .loaded v⟩ => some { s with
        shared := Function.update s.shared k (some v)
        fetches := s.fetches.set i ⟨r, k, .shared v⟩ }
    | _ => none
  | .take i =>
    match s.fetches[i]? with
    | some ⟨r, k, .shared v⟩ => some { s with
        copy := setCopy s.copy r k (some v)
        fetches := s.fetches.eraseIdx i }
    | _ => none
  | .expireShared k => some { s with shared := Function.update s.shared k none }
  | .expireCopy r k => some { s with copy := setCopy s.copy r k none }

/-- Nothing has changed yet, and nothing is stored anywhere. -/
def start (source : κ → ν) : Replicas κ ν ρ where
  source := source
  waiting := []
  writes := []
  written := []
  shared := fun _ => none
  copy := fun _ _ => none
  told := fun _ => []
  fetches := []

/-- What a process gets: its copy, or what is stored, or what it loads. -/
def value (s : Replicas κ ν ρ) (r : ρ) (k : κ) : ν :=
  (s.copy r k).getD ((s.shared k).getD (s.source k))

/-- A value on its way is not overtaken: a key is not written while somebody
is about to store what it has loaded for it, and a process drops no copy it
is just about to set to what it has seen in the store or put there. -/
def Ordered (s : Replicas κ ν ρ) : Action κ ν ρ → Prop
  | .write => ∀ f ∈ s.fetches, f.found.isLoaded = true → s.writes.head?.map Prod.fst ≠ some f.key
  | .delete r i => ∀ f ∈ s.fetches, f.found.isShared = true → f.process = r →
      (s.told r)[i]? ≠ some f.key
  | _ => True

instance (s : Replicas κ ν ρ) : (a : Action κ ν ρ) → Decidable (s.Ordered a)
  | .write => inferInstanceAs (Decidable (∀ f ∈ s.fetches, f.found.isLoaded = true →
      s.writes.head?.map Prod.fst ≠ some f.key))
  | .delete r i => inferInstanceAs (Decidable (∀ f ∈ s.fetches, f.found.isShared = true →
      f.process = r → (s.told r)[i]? ≠ some f.key))
  | .change _ | .takeUp | .publish | .fetch _ _ | .look _ | .load _ | .store _
  | .take _ | .expireShared _ | .expireCopy _ _ => .isTrue trivial

end Step

/-! ## The invariant -/

section Invariant

variable {κ ν ρ : Type} {s s' : Replicas κ ν ρ} {k : κ} {v : ν} {r : ρ}

/-- What is still to be written, in this order. -/
def pending (s : Replicas κ ν ρ) : List (κ × ν) := s.writes ++ s.waiting.flatten

/-- The value is the one of the source, or the store will be overwritten. -/
def Fresh (s : Replicas κ ν ρ) (k : κ) (v : ν) : Prop :=
  s.source k = v ∨ k ∈ s.pending.map Prod.fst

/-- The value is the one of the source, or its copy at `r` will be dropped. -/
def Covered (s : Replicas κ ν ρ) (r : ρ) (k : κ) (v : ν) : Prop :=
  s.Fresh k v ∨ k ∈ s.written ∨ k ∈ s.told r

/-- What a process has found out for a key is safe to keep. -/
def FetchOk (s : Replicas κ ν ρ) (f : Fetch κ ν ρ) : Prop :=
  match f.found with
  | .asking => True
  | .shared v => s.Covered f.process f.key v
  | .missing => True
  | .loaded v => s.Fresh f.key v

/-- What holds of every state of an ordered run. -/
structure Inv [DecidableEq κ] (s : Replicas κ ν ρ) : Prop where
  /-- Once all is written, the store has what the source has. -/
  latest : changed s.source s.pending = s.source
  shared : ∀ k v, s.shared k = some v → s.Fresh k v
  copy : ∀ r k v, s.copy r k = some v → s.Covered r k v
  fetches : ∀ f ∈ s.fetches, s.FetchOk f

variable [DecidableEq κ]

/-! ### What an event does to the source -/

@[simp] theorem changed_nil (source : κ → ν) : changed source [] = source := rfl

theorem changed_cons (source : κ → ν) (w : κ × ν) (event : List (κ × ν)) :
    changed source (w :: event) = changed (Function.update source w.1 w.2) event := rfl

/-- Events change the source one after the other. -/
theorem changed_append (source : κ → ν) (event event' : List (κ × ν)) :
    changed source (event ++ event') = changed (changed source event) event' :=
  List.foldl_append

/-- An event leaves the other keys alone. -/
theorem changed_of_not_mem {event : List (κ × ν)} (h : k ∉ event.map Prod.fst)
    (source : κ → ν) : changed source event k = source k := by
  induction event generalizing source with
  | nil => rfl
  | cons w event ih =>
    rw [List.map_cons, List.mem_cons, not_or] at h
    rw [changed_cons, ih h.2, Function.update_of_ne h.1]

/-- For the keys of an event it does not matter what the source was. -/
theorem changed_of_mem {event : List (κ × ν)} (h : k ∈ event.map Prod.fst)
    (source source' : κ → ν) : changed source event k = changed source' event k := by
  induction event generalizing source source' with
  | nil => exact absurd h List.not_mem_nil
  | cons w event ih =>
    rw [changed_cons, changed_cons]
    by_cases hk : k ∈ event.map Prod.fst
    · exact ih hk _ _
    · -- the last time the key is written is right here
      have hw : k = w.1 := by
        rw [List.map_cons, List.mem_cons] at h
        exact h.resolve_right hk
      rw [changed_of_not_mem hk, changed_of_not_mem hk, hw, Function.update_self,
        Function.update_self]

/-- What is to be written makes up for every change of the source, that of a new
event included. -/
theorem latest_append {source : κ → ν} {pending : List (κ × ν)} (event : List (κ × ν))
    (h : changed source pending = source) :
    changed (changed source event) (pending ++ event) = changed source event := by
  rw [changed_append]
  funext k
  by_cases hk : k ∈ event.map Prod.fst
  · exact changed_of_mem hk _ _
  · rw [changed_of_not_mem hk, changed_of_not_mem hk]
    by_cases hp : k ∈ pending.map Prod.fst
    · rw [changed_of_mem hp _ source, h]
    · rw [changed_of_not_mem hp, changed_of_not_mem hk]

/-- The first write is the last one of its key, or the key is written again. -/
theorem latest_cons {source : κ → ν} {pending : List (κ × ν)}
    (h : changed source ((k, v) :: pending) = source) :
    changed source pending = source ∧ (source k = v ∨ k ∈ pending.map Prod.fst) := by
  have hk : source k = v ∨ k ∈ pending.map Prod.fst := by
    by_cases hp : k ∈ pending.map Prod.fst
    · exact Or.inr hp
    · refine Or.inl ?_
      have hat := congrFun h k
      rw [changed_cons, changed_of_not_mem hp, Function.update_self] at hat
      exact hat.symm
  refine ⟨?_, hk⟩
  funext k'
  by_cases hp : k' ∈ pending.map Prod.fst
  · rw [changed_of_mem hp source (Function.update source k v)]
    exact congrFun h k'
  · exact changed_of_not_mem hp _

/-! ### Writing to the store and to a copy -/

/-- A key of the store after one of its keys was set: the one that was set, or
another. -/
theorem get_update {shared : κ → Option ν} {w : Option ν} {k' : κ}
    (h : Function.update shared k w k' = some v) :
    (k' = k ∧ w = some v) ∨ (k' ≠ k ∧ shared k' = some v) := by
  rw [Function.update_apply] at h
  by_cases hk : k' = k
  · rw [if_pos hk] at h
    exact Or.inl ⟨hk, h⟩
  · rw [if_neg hk] at h
    exact Or.inr ⟨hk, h⟩

/-- The same for the copy of a process. -/
theorem get_setCopy [DecidableEq ρ] {copy : ρ → κ → Option ν} {w : Option ν} {r' : ρ} {k' : κ}
    (h : setCopy copy r k w r' k' = some v) :
    (r' = r ∧ k' = k ∧ w = some v) ∨ (¬(r' = r ∧ k' = k) ∧ copy r' k' = some v) := by
  unfold setCopy at h
  by_cases hr : r' = r
  · subst hr
    rw [Function.update_self] at h
    rcases get_update h with ⟨hk, hw⟩ | ⟨hk, hget⟩
    · exact Or.inl ⟨rfl, hk, hw⟩
    · exact Or.inr ⟨fun hboth => hk hboth.2, hget⟩
  · rw [Function.update_of_ne hr] at h
    exact Or.inr ⟨fun hboth => hr hboth.1, h⟩

/-! ### The steps -/

/-- Nothing is stored, so nothing is old. -/
theorem inv_start (source : κ → ν) : (start source : Replicas κ ν ρ).Inv where
  latest := rfl
  shared := fun _ _ h => absurd h (by simp [start])
  copy := fun _ _ _ h => absurd h (by simp [start])
  fetches := fun _ h => absurd h List.not_mem_nil

omit [DecidableEq κ] in
/-- What is safe to keep stays so where the store and the copies are only
more certain to be overwritten and dropped. -/
theorem FetchOk.mono {s' : Replicas κ ν ρ} {f : Fetch κ ν ρ}
    (hfresh : ∀ v, f.found = .loaded v → s.Fresh f.key v → s'.Fresh f.key v)
    (hcovered : ∀ v, f.found = .shared v → s.Covered f.process f.key v →
      s'.Covered f.process f.key v)
    (h : s.FetchOk f) : s'.FetchOk f := by
  unfold FetchOk at h ⊢
  split at h
  next => trivial
  next v hv => exact hcovered v hv h
  next => trivial
  next v hv => exact hfresh v hv h

/-- An event is written after all that is pending already. -/
theorem pending_change (event : List (κ × ν)) :
    pending { s with
      source := changed s.source event
      waiting := s.waiting ++ [event] } = s.pending ++ event := by
  simp [pending]

/-- A value that was the source's is old after the event, but then it is
pending. -/
theorem Fresh.change (event : List (κ × ν)) (h : s.Fresh k v) :
    Fresh { s with
      source := changed s.source event
      waiting := s.waiting ++ [event] } k v := by
  unfold Fresh
  rw [pending_change, List.map_append, List.mem_append]
  by_cases hk : k ∈ event.map Prod.fst
  · exact Or.inr (Or.inr hk)
  · rcases h with h | h
    · refine Or.inl ?_
      show changed s.source event k = v
      rw [changed_of_not_mem hk, h]
    · exact Or.inr (Or.inl h)

/-- The source changes, and what is cached waits for the event. -/
theorem inv_change (h : s.Inv) (event : List (κ × ν)) :
    Inv { s with
      source := changed s.source event
      waiting := s.waiting ++ [event] } where
  latest := by
    rw [pending_change]
    exact latest_append event h.latest
  shared := fun k v hget => (h.shared k v hget).change event
  copy := fun r k v hget => (h.copy r k v hget).imp_left (Fresh.change event)
  fetches := fun f hf => (h.fetches f hf).mono (fun _ _ => Fresh.change event)
    fun _ _ hcovered => hcovered.imp_left (Fresh.change event)

/-- A step that leaves alone the source, what is to be written and what is
to be told: all it may do is to store what is safe to keep. -/
theorem Inv.keep (h : s.Inv) (hsource : s'.source = s.source) (hpending : s'.pending = s.pending)
    (hwritten : s'.written = s.written) (htold : s'.told = s.told)
    (hshared : ∀ k v, s'.shared k = some v → s.Fresh k v)
    (hcopy : ∀ r k v, s'.copy r k = some v → s.Covered r k v)
    (hfetches : ∀ f ∈ s'.fetches, s.FetchOk f) : s'.Inv := by
  have hfresh : ∀ k v, s.Fresh k v → s'.Fresh k v := by
    intro k v hv
    unfold Fresh
    rw [hsource, hpending]
    exact hv
  have hcovered : ∀ r k v, s.Covered r k v → s'.Covered r k v := by
    intro r k v hv
    unfold Covered
    rw [hwritten, htold]
    exact hv.imp_left (hfresh k v)
  refine ⟨?_, ?_, ?_, ?_⟩
  · rw [hsource, hpending]
    exact h.latest
  · exact fun k v hget => hfresh k v (hshared k v hget)
  · exact fun r k v hget => hcovered r k v (hcopy r k v hget)
  · exact fun f hf => (hfetches f hf).mono (fun v _ => hfresh f.key v)
      fun v _ => hcovered f.process f.key v

variable [DecidableEq ρ]

/-- The first write goes to the store and to the copy of the handler. Every
other copy of the key will be dropped, now that it has been written. -/
theorem inv_write (h : s.Inv) {handler : ρ} {writes : List (κ × ν)}
    (hwrites : s.writes = (k, v) :: writes)
    (hordered : ∀ f ∈ s.fetches, f.found.isLoaded = true → f.key ≠ k) :
    Inv { s with
      shared := Function.update s.shared k (some v)
      copy := setCopy s.copy handler k (some v)
      writes := writes
      written := s.written ++ [k] } := by
  have hpending : s.pending = (k, v) :: (writes ++ s.waiting.flatten) := by
    rw [pending, hwrites, List.cons_append]
  obtain ⟨hlatest, hnew⟩ := latest_cons (hpending ▸ h.latest)
  -- of the other keys just as much is still to be written as before
  have hfresh : ∀ k' v', k' ≠ k → s.Fresh k' v' →
      s.source k' = v' ∨ k' ∈ (writes ++ s.waiting.flatten).map Prod.fst := by
    intro k' v' hne hv
    rw [Fresh, hpending, List.map_cons, List.mem_cons] at hv
    exact hv.imp_right fun hmem => hmem.resolve_left hne
  refine ⟨hlatest, ?_, ?_, ?_⟩
  · intro k' v' hget
    rcases get_update hget with ⟨rfl, hv⟩ | ⟨hne, hget⟩
    · obtain rfl := Option.some.inj hv
      exact hnew
    · exact hfresh k' v' hne (h.shared k' v' hget)
  · intro r k' v' hget
    show _ ∨ k' ∈ s.written ++ [k] ∨ k' ∈ s.told r
    by_cases hk : k' = k
    · subst hk
      exact Or.inr (Or.inl (by simp))
    · have hold : s.copy r k' = some v' := by
        rcases get_setCopy hget with ⟨-, hk', -⟩ | ⟨-, hget⟩
        · exact absurd hk' hk
        · exact hget
      rcases h.copy r k' v' hold with hv | hv | hv
      · exact Or.inl (hfresh k' v' hk hv)
      · exact Or.inr (Or.inl (List.mem_append_left _ hv))
      · exact Or.inr (Or.inr hv)
  · intro f hf
    refine (h.fetches f hf).mono ?_ ?_
    · intro v' hfound hv
      exact hfresh f.key v' (hordered f hf (by rw [hfound]; rfl)) hv
    · intro v' _ hv
      show _ ∨ f.key ∈ s.written ++ [k] ∨ f.key ∈ s.told f.process
      by_cases hk : f.key = k
      · rw [hk]
        exact Or.inr (Or.inl (by simp))
      · rcases hv with hv | hv | hv
        · exact Or.inl (hfresh f.key v' hk hv)
        · exact Or.inr (Or.inl (List.mem_append_left _ hv))
        · exact Or.inr (Or.inr hv)

omit [DecidableEq ρ] in
/-- The keys written are on their way to every process. -/
theorem inv_publish (h : s.Inv) :
    Inv { s with told := fun r => s.told r ++ s.written, written := [] } := by
  have hcovered : ∀ r k v, s.Covered r k v →
      Covered { s with told := fun r => s.told r ++ s.written, written := [] } r k v := by
    intro r k v hv
    show _ ∨ k ∈ [] ∨ k ∈ s.told r ++ s.written
    rcases hv with hv | hv | hv
    · exact Or.inl hv
    · exact Or.inr (Or.inr (List.mem_append_right _ hv))
    · exact Or.inr (Or.inr (List.mem_append_left _ hv))
  exact ⟨h.latest, h.shared, fun r k v hget => hcovered r k v (h.copy r k v hget),
    fun f hf => FetchOk.mono (s := s) (fun _ _ hv => hv)
      (fun v _ => hcovered f.process f.key v) (h.fetches f hf)⟩

/-- A message arrives: for its key there is no copy any more. -/
theorem inv_delete (h : s.Inv) {i : ℕ} (hkey : (s.told r)[i]? = some k)
    (hordered : ∀ f ∈ s.fetches, f.found.isShared = true → f.process = r → f.key ≠ k) :
    Inv { s with
      copy := setCopy s.copy r k none
      told := Function.update s.told r ((s.told r).eraseIdx i) } := by
  have hcovered : ∀ r' k' v', ¬(r' = r ∧ k' = k) → s.Covered r' k' v' →
      Covered { s with
        copy := setCopy s.copy r k none
        told := Function.update s.told r ((s.told r).eraseIdx i) } r' k' v' := by
    intro r' k' v' hne hv
    refine hv.imp_right (Or.imp_right fun hmem => ?_)
    show k' ∈ Function.update s.told r _ r'
    by_cases hr : r' = r
    · subst hr
      rw [Function.update_self, List.mem_eraseIdx_iff_getElem?]
      obtain ⟨j, hj⟩ := List.getElem?_of_mem hmem
      refine ⟨j, ?_, hj⟩
      rintro rfl
      exact hne ⟨rfl, Option.some.inj (hj.symm.trans hkey)⟩
    · rw [Function.update_of_ne hr]
      exact hmem
  refine ⟨h.latest, h.shared, ?_, ?_⟩
  · intro r' k' v' hget
    rcases get_setCopy hget with ⟨-, -, hv⟩ | ⟨hne, hget⟩
    · exact absurd hv (by simp)
    · exact hcovered r' k' v' hne (h.copy r' k' v' hget)
  · intro f hf
    refine FetchOk.mono (s := s) (fun _ _ hv => hv) ?_ (h.fetches f hf)
    intro v' hfound hv
    refine hcovered f.process f.key v' (fun hsame => ?_) hv
    exact hordered f hf (by rw [hfound]; rfl) hsame.1 hsame.2

omit [DecidableEq ρ] in
/-- A process finds something out that is safe to keep. -/
theorem inv_found (h : s.Inv) {fetches : List (Fetch κ ν ρ)}
    (hfetches : ∀ f ∈ fetches, f ∈ s.fetches ∨ s.FetchOk f) :
    Inv { s with fetches := fetches } :=
  h.keep rfl rfl rfl rfl h.shared h.copy fun f hf => (hfetches f hf).elim (h.fetches f) id

/-- Every ordered step keeps the invariant. -/
theorem inv_step {handler : ρ} {a : Action κ ν ρ} (h : s.Inv) (hordered : s.Ordered a)
    (hstep : step handler s a = some s') : s'.Inv := by
  cases a with
  | change event =>
    obtain rfl := Option.some.inj hstep
    exact inv_change h event
  | takeUp =>
    simp only [step] at hstep
    split at hstep
    next event waiting hwrites _ hwaiting =>
      obtain rfl := Option.some.inj hstep
      refine h.keep rfl ?_ rfl rfl h.shared h.copy h.fetches
      show event ++ waiting.flatten = s.pending
      rw [pending, hwrites, hwaiting]
      rfl
    next => exact absurd hstep (by simp)
  | write =>
    simp only [step] at hstep
    split at hstep
    next k v writes hwrites =>
      obtain rfl := Option.some.inj hstep
      refine inv_write h hwrites fun f hf hfound hk => ?_
      exact hordered f hf hfound (by rw [hwrites, hk]; rfl)
    next => exact absurd hstep (by simp)
  | publish =>
    simp only [step] at hstep
    split at hstep
    next =>
      obtain rfl := Option.some.inj hstep
      exact inv_publish h
    next => exact absurd hstep (by simp)
  | delete r i =>
    simp only [step] at hstep
    split at hstep
    next k hkey =>
      obtain rfl := Option.some.inj hstep
      refine inv_delete h hkey fun f hf hfound hprocess hk => ?_
      exact hordered f hf hfound hprocess (by rw [hkey, hk])
    next => exact absurd hstep (by simp)
  | fetch r k =>
    simp only [step] at hstep
    split at hstep
    next =>
      obtain rfl := Option.some.inj hstep
      exact h
    next =>
      obtain rfl := Option.some.inj hstep
      refine inv_found h ?_
      intro f hf
      rcases List.mem_append.mp hf with hf | hf
      · exact Or.inl hf
      · rw [List.mem_singleton.mp hf]
        exact Or.inr trivial
  -- a present value is safe as the shared entry is, an absent one says nothing
  | look i =>
    simp only [step] at hstep
    split at hstep
    next r k _ =>
      split at hstep
      next v hget =>
        obtain rfl := Option.some.inj hstep
        refine inv_found h fun f hf => (List.mem_or_eq_of_mem_set hf).imp_right ?_
        rintro rfl
        exact Or.inl (h.shared k v hget)
      next =>
        obtain rfl := Option.some.inj hstep
        refine inv_found h fun f hf => (List.mem_or_eq_of_mem_set hf).imp_right ?_
        rintro rfl
        trivial
    next => exact absurd hstep (by simp)
  | load i =>
    simp only [step] at hstep
    split at hstep
    next r k _ =>
      obtain rfl := Option.some.inj hstep
      refine inv_found h fun f hf => (List.mem_or_eq_of_mem_set hf).imp_right ?_
      rintro rfl
      exact Or.inl rfl
    next => exact absurd hstep (by simp)
  | store i =>
    simp only [step] at hstep
    split at hstep
    next r k v hfetch =>
      obtain rfl := Option.some.inj hstep
      -- `store` writes what the fetch has found, which was fresh when the state last
      -- changed, and `Ordered` allows no change to overtake a fetch
      have hv : s.Fresh k v := h.fetches _ (List.mem_of_getElem? hfetch)
      refine h.keep rfl rfl rfl rfl ?_ h.copy ?_
      · intro k' v' hget
        rcases get_update hget with ⟨rfl, hvv⟩ | ⟨-, hget⟩
        · obtain rfl := Option.some.inj hvv
          exact hv
        · exact h.shared k' v' hget
      · intro f hf
        rcases List.mem_or_eq_of_mem_set hf with hf | rfl
        · exact h.fetches f hf
        · exact Or.inl hv
    next => exact absurd hstep (by simp)
  | take i =>
    simp only [step] at hstep
    split at hstep
    next r k v hfetch =>
      obtain rfl := Option.some.inj hstep
      have hv : s.Covered r k v := h.fetches _ (List.mem_of_getElem? hfetch)
      refine h.keep rfl rfl rfl rfl h.shared ?_
        fun f hf => h.fetches f (List.mem_of_mem_eraseIdx hf)
      intro r' k' v' hget
      rcases get_setCopy hget with ⟨rfl, rfl, hvv⟩ | ⟨-, hget⟩
      · obtain rfl := Option.some.inj hvv
        exact hv
      · exact h.copy r' k' v' hget
    next => exact absurd hstep (by simp)
  -- an entry that goes cannot break what is asked of the entries there are
  | expireShared k =>
    obtain rfl := Option.some.inj hstep
    refine h.keep rfl rfl rfl rfl ?_ h.copy h.fetches
    intro k' v' hget
    rcases get_update hget with ⟨-, hv⟩ | ⟨-, hget⟩
    · exact absurd hv (by simp)
    · exact h.shared k' v' hget
  | expireCopy r k =>
    obtain rfl := Option.some.inj hstep
    refine h.keep rfl rfl rfl rfl h.shared ?_ h.fetches
    intro r' k' v' hget
    rcases get_setCopy hget with ⟨-, -, hv⟩ | ⟨-, hget⟩
    · exact absurd hv (by simp)
    · exact h.copy r' k' v' hget

omit [DecidableEq ρ] in
/-- What a process gets is what the source has, or something is on its way. -/
theorem Inv.value_covered (h : s.Inv) (r : ρ) (k : κ) : s.Covered r k (s.value r k) := by
  unfold value
  cases hcopy : s.copy r k with
  | some v => exact h.copy r k v hcopy
  | none =>
    cases hshared : s.shared k with
    | some v => exact Or.inl (h.shared k v hshared)
    | none => exact Or.inl (Or.inl rfl)

end Invariant

end Replicas

end MxExchange.Collections
