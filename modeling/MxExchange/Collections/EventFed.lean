import MxExchange.Collections.Runs
import Mathlib.Logic.Function.Basic

/-!
# Cached values kept up to date by events

A source keeps a value for every key, and every change of it emits an event.
Copies of the values are cached. A reader that finds no copy loads the value
and stores it; a handler works through the events in their order, and adds
each to the copy, which it loads in the same way when there is none.

Whether a copy is right is a matter of what it has been loaded from: it is
to contain the changes whose events have been worked through, and no others,
since the others are still to be added. So a value may be stored only while
that is what it contains (`EventFed.Sound`). If no step of a run does it
otherwise, then whenever no event is left every copy is right
(`EventFed.run_value`).
-/

namespace MxExchange.Collections

/-- What a change does to the source, what it does to a copy, and how much
of a value is looked at. Copies are kept under addresses of their own. -/
structure EventFed (κ σ ε ν ο τ : Type) where
  keyOf : ε → κ
  change : σ → ε → σ
  load : σ → ν
  apply : ν → ε → ν
  read : ν → ο
  cacheKey : κ → τ
  cacheKey_inj : Function.Injective cacheKey

namespace EventFed

/-- What the handler is doing with the first event in line: nothing yet, on
its way to store a value it has loaded, or about to write. -/
inductive Handler (ν : Type) where
  | idle
  | loading (value : ν)
  | holding (value : ν)

/-- `processed` is the source as it would be with the changes whose events
have been worked through. The values in `loading` are those that readers
have loaded and not stored yet. -/
structure State (κ σ ε ν τ : Type) where
  source : κ → σ
  processed : κ → σ
  waiting : List ε
  cache : τ → Option ν
  loading : List (κ × ν)
  handler : Handler ν

/-- What can happen next: to the source, to the handler, to a reader, to the
cache. -/
inductive Action (κ ε : Type) where
  | emit (e : ε)
  | expire (k : κ)
  | read (k : κ)
  | store (i : ℕ)
  | handlerRead
  | handlerStore
  | handlerWrite

section Step

variable {κ σ ε ν ο τ : Type} [DecidableEq κ] [DecidableEq τ]

/-- One step; `none` where it is not possible. -/
def step (c : EventFed κ σ ε ν ο τ) (s : State κ σ ε ν τ) :
    Action κ ε → Option (State κ σ ε ν τ)
  | .emit e => some { s with
      source := Function.update s.source (c.keyOf e) (c.change (s.source (c.keyOf e)) e)
      waiting := s.waiting ++ [e] }
  | .expire k => some { s with cache := Function.update s.cache (c.cacheKey k) none }
  | .read k =>
    match s.cache (c.cacheKey k) with
    | some _ => some s
    | none => some { s with loading := s.loading ++ [(k, c.load (s.source k))] }
  | .store i =>
    match s.loading[i]? with
    | some (k, v) => some { s with
        cache := Function.update s.cache (c.cacheKey k) (some v)
        loading := s.loading.eraseIdx i }
    | none => none
  | .handlerRead =>
    match s.handler, s.waiting with
    | .idle, e :: _ =>
      match s.cache (c.cacheKey (c.keyOf e)) with
      | some v => some { s with handler := .holding v }
      | none => some { s with handler := .loading (c.load (s.source (c.keyOf e))) }
    | _, _ => none
  | .handlerStore =>
    match s.handler, s.waiting with
    | .loading v, e :: _ => some { s with
        cache := Function.update s.cache (c.cacheKey (c.keyOf e)) (some v)
        handler := .holding v }
    | _, _ => none
  | .handlerWrite =>
    match s.handler, s.waiting with
    | .holding v, e :: waiting => some { s with
        cache := Function.update s.cache (c.cacheKey (c.keyOf e)) (some (c.apply v e))
        processed :=
          Function.update s.processed (c.keyOf e) (c.change (s.processed (c.keyOf e)) e)
        waiting := waiting
        handler := .idle }
    | _, _ => none

/-- Nothing has been emitted yet, and nothing is cached. -/
def start (source : κ → σ) : State κ σ ε ν τ where
  source := source
  processed := source
  waiting := []
  cache := fun _ => none
  loading := []
  handler := .idle

/-- What a reader gets: the copy, or the value it loads. -/
def value (c : EventFed κ σ ε ν ο τ) (s : State κ σ ε ν τ) (k : κ) : ν :=
  (s.cache (c.cacheKey k)).getD (c.load (s.source k))

/-- Every event has been worked through. -/
def Quiescent (s : State κ σ ε ν τ) : Prop := s.waiting = [] ∧ s.handler = .idle

/-- The handler is at an event of this key, and will write its copy. -/
def Busy (c : EventFed κ σ ε ν ο τ) (s : State κ σ ε ν τ) (k : κ) : Prop :=
  s.handler ≠ .idle ∧ ∃ e waiting, s.waiting = e :: waiting ∧ c.keyOf e = k

/-- The value contains the changes worked through and no others. -/
def UpToDate (c : EventFed κ σ ε ν ο τ) (s : State κ σ ε ν τ) (k : κ) (v : ν) : Prop :=
  c.read v = c.read (c.load (s.processed k))

/-- The change does the same to a copy as to the source. -/
def Faithful (c : EventFed κ σ ε ν ο τ) (e : ε) : Prop :=
  ∀ v x, c.read v = c.read (c.load x) → c.read (c.apply v e) = c.read (c.load (c.change x e))

/-- What a step must look at: a reader stores a value that is up to date,
unless the handler overwrites it anyway, the handler loads one, and events
are of the `good` kind. -/
def Sound (c : EventFed κ σ ε ν ο τ) (good : ε → Prop) (s : State κ σ ε ν τ) :
    Action κ ε → Prop
  | .emit e => good e
  | .store i => ∀ k v, s.loading[i]? = some (k, v) → c.Busy s k ∨ c.UpToDate s k v
  | .handlerRead => ∀ e waiting, s.waiting = e :: waiting →
      s.cache (c.cacheKey (c.keyOf e)) = none →
      c.UpToDate s (c.keyOf e) (c.load (s.source (c.keyOf e)))
  | _ => True

/-! ### Deciding what a step must look at -/

variable {c : EventFed κ σ ε ν ο τ} {s : State κ σ ε ν τ}

omit [DecidableEq κ] [DecidableEq τ] in
/-- A key is busy while the handler is at work on an event about it. -/
theorem busy_iff {k : κ} : c.Busy s k ↔
    (∃ e ∈ s.waiting.head?, c.keyOf e = k) ∧ match s.handler with
      | .idle => False
      | _ => True := by
  have hhead : (∃ e waiting, s.waiting = e :: waiting ∧ c.keyOf e = k) ↔
      ∃ e ∈ s.waiting.head?, c.keyOf e = k := by
    cases s.waiting with
    | nil => simp
    | cons e waiting => simp
  unfold Busy
  rw [hhead, and_comm]
  refine and_congr_right fun _ => ?_
  cases s.handler <;> simp

instance (k : κ) : Decidable (c.Busy s k) :=
  have : Decidable (match s.handler with
      | .idle => False
      | _ => True) :=
    match s.handler with
    | .idle => .isFalse id
    | .loading _ => .isTrue trivial
    | .holding _ => .isTrue trivial
  decidable_of_iff _ busy_iff.symm

instance [DecidableEq ο] (k : κ) (v : ν) : Decidable (c.UpToDate s k v) :=
  inferInstanceAs (Decidable (_ = _))

instance [DecidableEq ο] {good : ε → Prop} [DecidablePred good] :
    (a : Action κ ε) → Decidable (c.Sound good s a)
  | .emit e => inferInstanceAs (Decidable (good e))
  | .store i =>
    decidable_of_iff (∀ kv ∈ s.loading[i]?, c.Busy s kv.1 ∨ c.UpToDate s kv.1 kv.2)
      ⟨fun h k v hkv => h (k, v) hkv, fun h kv hkv => h kv.1 kv.2 hkv⟩
  | .handlerRead =>
    decidable_of_iff (∀ e ∈ s.waiting.head?, s.cache (c.cacheKey (c.keyOf e)) = none →
        c.UpToDate s (c.keyOf e) (c.load (s.source (c.keyOf e)))) <| by
      constructor
      · intro h e waiting hwaiting
        exact h e (by rw [hwaiting]; rfl)
      · intro h e he
        obtain ⟨waiting, hwaiting⟩ := List.head?_eq_some_iff.mp he
        exact h e waiting hwaiting
  | .expire _ | .read _ | .handlerStore | .handlerWrite => .isTrue trivial

end Step

/-! ## The invariant -/

section Invariant

variable {κ σ ε ν ο τ : Type} [DecidableEq κ] [DecidableEq τ] {c : EventFed κ σ ε ν ο τ}
  {good : ε → Prop} {s s' : State κ σ ε ν τ} {k : κ} {e : ε} {v : ν} {waiting : List ε}

/-- The changes of a key that are still to be worked through. -/
def waitingFor (c : EventFed κ σ ε ν ο τ) (s : State κ σ ε ν τ) (k : κ) : List ε :=
  s.waiting.filter fun e => c.keyOf e = k

/-- What holds of every state of a sound run: the cache lags behind the source
by the events that are still to be handled. -/
structure Inv (c : EventFed κ σ ε ν ο τ) (good : ε → Prop) (s : State κ σ ε ν τ) : Prop where
  source : ∀ k, s.source k = (c.waitingFor s k).foldl c.change (s.processed k)
  cached : ∀ k v, s.cache (c.cacheKey k) = some v → ¬c.Busy s k → c.UpToDate s k v
  held : ∀ v e waiting, s.handler = .loading v ∨ s.handler = .holding v →
    s.waiting = e :: waiting → c.UpToDate s (c.keyOf e) v
  working : s.handler ≠ .idle → s.waiting ≠ []
  goods : ∀ e ∈ s.waiting, good e

omit [DecidableEq τ] in
/-- An empty cache lags behind nothing. -/
theorem inv_start (source : κ → σ) : Inv c good (start source) where
  source := fun _ => rfl
  cached := fun _ _ h => absurd h (by simp [start])
  held := fun _ _ _ h => absurd h (by simp [start])
  working := fun h => absurd rfl h
  goods := fun e he => absurd he (List.not_mem_nil)

omit [DecidableEq κ] in
/-- What is cached after a write, under whichever key. -/
theorem get_update {cache : τ → Option ν} {w : Option ν} {k' : κ}
    (h : Function.update cache (c.cacheKey k) w (c.cacheKey k') = some v) :
    (k' = k ∧ w = some v) ∨ (k' ≠ k ∧ cache (c.cacheKey k') = some v) := by
  rw [Function.update_apply] at h
  by_cases hk : k' = k
  · rw [if_pos (congrArg c.cacheKey hk)] at h
    exact Or.inl ⟨hk, h⟩
  · rw [if_neg fun heq => hk (c.cacheKey_inj heq)] at h
    exact Or.inr ⟨hk, h⟩

omit [DecidableEq τ] in
/-- A new event is one more to be handled. -/
theorem inv_emit (hinv : Inv c good s) (hgood : good e) :
    Inv c good { s with
      source := Function.update s.source (c.keyOf e) (c.change (s.source (c.keyOf e)) e)
      waiting := s.waiting ++ [e] } := by
  -- an event at the end of the line does not change what the handler is at
  have hhead : ∀ e' waiting, s.waiting ++ [e] = e' :: waiting → s.handler ≠ .idle →
      ∃ waiting', s.waiting = e' :: waiting' := by
    intro e' waiting heq hbusy
    cases hw : s.waiting with
    | nil => exact absurd hw (hinv.working hbusy)
    | cons e₀ rest =>
      rw [hw, List.cons_append, List.cons.injEq] at heq
      exact ⟨rest, by rw [heq.1]⟩
  constructor
  · intro k
    show Function.update s.source (c.keyOf e) _ k = _
    unfold waitingFor
    rw [List.filter_append, List.foldl_append, ← waitingFor, ← hinv.source k,
      Function.update_apply]
    by_cases hk : k = c.keyOf e
    · subst hk
      simp
    · have hk' : ¬c.keyOf e = k := fun h => hk h.symm
      simp [hk, hk']
  · intro k v hget hbusy
    refine hinv.cached k v hget ?_
    rintro ⟨hne, e', waiting, hwaiting, rfl⟩
    exact hbusy ⟨hne, e', waiting ++ [e], by show s.waiting ++ [e] = _; rw [hwaiting]; rfl, rfl⟩
  · intro v e' waiting hhandler hwaiting
    have hne : s.handler ≠ .idle := by
      intro hidle
      rcases hhandler with h | h <;> exact absurd (h.symm.trans hidle) (by simp)
    obtain ⟨waiting', hw⟩ := hhead e' waiting hwaiting hne
    exact hinv.held v e' waiting' hhandler hw
  · intro _
    show s.waiting ++ [e] ≠ []
    simp
  · intro e' he'
    rcases List.mem_append.mp he' with he' | he'
    · exact hinv.goods e' he'
    · rw [List.mem_singleton.mp he']
      exact hgood

/-- Storing a value that is up to date, or that the handler overwrites. -/
theorem inv_store (hinv : Inv c good s) (loading : List (κ × ν))
    (hv : c.Busy s k ∨ c.UpToDate s k v) :
    Inv c good { s with
      cache := Function.update s.cache (c.cacheKey k) (some v)
      loading := loading } where
  source := hinv.source
  cached := by
    intro k' v' hget hbusy
    rcases get_update hget with ⟨rfl, hvv⟩ | ⟨-, hget⟩
    · obtain rfl := Option.some.inj hvv
      exact hv.resolve_left hbusy
    · exact hinv.cached k' v' hget hbusy
  held := hinv.held
  working := hinv.working
  goods := hinv.goods

/-- What is not cached any more cannot be wrong. -/
theorem inv_expire (hinv : Inv c good s) (k : κ) :
    Inv c good { s with cache := Function.update s.cache (c.cacheKey k) none } where
  source := hinv.source
  cached := by
    intro k' v' hget hbusy
    rcases get_update hget with ⟨-, hvv⟩ | ⟨-, hget⟩
    · exact absurd hvv (by simp)
    · exact hinv.cached k' v' hget hbusy
  held := hinv.held
  working := hinv.working
  goods := hinv.goods

omit [DecidableEq τ] in
/-- The handler takes up an event with a value that is up to date. -/
theorem inv_takeUp (hinv : Inv c good s) (hidle : s.handler = .idle)
    (hwaiting : s.waiting = e :: waiting) (hv : c.UpToDate s (c.keyOf e) v)
    {handler : Handler ν} (hhandler : handler = .loading v ∨ handler = .holding v) :
    Inv c good { s with handler := handler } where
  source := hinv.source
  cached := fun k' v' hget _ => hinv.cached k' v' hget fun hbusy => hbusy.1 hidle
  held := by
    intro v' e' waiting' hhandler' hwaiting'
    have hvv : v = v' := by
      rcases hhandler with rfl | rfl <;> simpa using hhandler'
    have hee : e' = e := (List.cons.inj (hwaiting'.symm.trans hwaiting)).1
    rw [← hvv, hee]
    exact hv
  working := fun _ => by
    show s.waiting ≠ []
    rw [hwaiting]
    simp
  goods := hinv.goods

/-- The handler's event is no longer to be handled once its value is cached. -/
theorem inv_handlerStore (hinv : Inv c good s) (hhandler : s.handler = .loading v)
    (hwaiting : s.waiting = e :: waiting) :
    Inv c good { s with
      cache := Function.update s.cache (c.cacheKey (c.keyOf e)) (some v)
      handler := .holding v } where
  source := hinv.source
  cached := by
    intro k' v' hget hbusy
    have hbusy' : ¬c.Busy s k' := by
      rintro ⟨-, rest⟩
      exact hbusy ⟨by simp, rest⟩
    rcases get_update hget with ⟨rfl, -⟩ | ⟨-, hget⟩
    · exact absurd ⟨by simp [hhandler], e, waiting, hwaiting, rfl⟩ hbusy'
    · exact hinv.cached k' v' hget hbusy'
  held := by
    intro v' e' waiting' hhandler' hwaiting'
    have hvv : v = v' := by simpa using hhandler'
    rw [← hvv]
    exact hinv.held v e' waiting' (Or.inl hhandler) hwaiting'
  working := fun _ => hinv.working (by simp [hhandler])
  goods := hinv.goods

/-- The event is worked through: its change counts from now on. -/
theorem inv_handlerWrite (hgood : ∀ e, good e → c.Faithful e) (hinv : Inv c good s)
    (hhandler : s.handler = .holding v) (hwaiting : s.waiting = e :: waiting) :
    Inv c good { s with
      cache := Function.update s.cache (c.cacheKey (c.keyOf e)) (some (c.apply v e))
      processed := Function.update s.processed (c.keyOf e) (c.change (s.processed (c.keyOf e)) e)
      waiting := waiting
      handler := .idle } where
  source := by
    -- the event leaves the queue and joins what is processed, so both together give the
    -- source as before
    intro k
    rw [hinv.source k]
    show _ = (waiting.filter _).foldl _ (Function.update s.processed (c.keyOf e) _ k)
    unfold waitingFor
    rw [hwaiting, List.filter_cons, Function.update_apply]
    by_cases hk : c.keyOf e = k
    · subst hk
      simp
    · have hk' : ¬k = c.keyOf e := fun h => hk h.symm
      simp [hk, hk']
  cached := by
    intro k' v' hget _
    show c.read v' = c.read (c.load (Function.update s.processed (c.keyOf e) _ k'))
    rw [Function.update_apply]
    rcases get_update hget with ⟨rfl, hvv⟩ | ⟨hne, hget⟩
    · obtain rfl := Option.some.inj hvv
      rw [if_pos rfl]
      refine hgood e (hinv.goods e ?_) _ _ (hinv.held v e waiting (Or.inr hhandler) hwaiting)
      rw [hwaiting]
      exact List.mem_cons_self
    · rw [if_neg hne]
      -- the handler was busy with the event's own key only
      refine hinv.cached k' v' hget ?_
      rintro ⟨-, e', waiting', hwaiting', rfl⟩
      exact hne (by rw [(List.cons.inj (hwaiting'.symm.trans hwaiting)).1])
  held := fun _ _ _ h => absurd h (by simp)
  working := fun h => absurd rfl h
  goods := fun e' he' => hinv.goods e' (by rw [hwaiting]; exact List.mem_cons_of_mem e he')

/-- Every sound step keeps the invariant. -/
theorem inv_step (hgood : ∀ e, good e → c.Faithful e) {a : Action κ ε} (hinv : Inv c good s)
    (hok : c.Sound good s a) (hstep : c.step s a = some s') : Inv c good s' := by
  cases a with
  | emit e =>
    obtain rfl := Option.some.inj hstep
    exact inv_emit hinv hok
  | expire k =>
    obtain rfl := Option.some.inj hstep
    exact inv_expire hinv k
  | read k =>
    simp only [step] at hstep
    split at hstep
    next =>
      obtain rfl := Option.some.inj hstep
      exact hinv
    next =>
      obtain rfl := Option.some.inj hstep
      exact ⟨hinv.source, hinv.cached, hinv.held, hinv.working, hinv.goods⟩
  -- the two stores are what a run must look at: what they write may be older than the
  -- queue
  | store i =>
    simp only [step] at hstep
    split at hstep
    next k v hload =>
      obtain rfl := Option.some.inj hstep
      exact inv_store hinv _ (hok k v hload)
    next => exact absurd hstep (by simp)
  | handlerRead =>
    simp only [step] at hstep
    split at hstep
    next e waiting hidle hwaiting =>
      split at hstep
      next v hget =>
        obtain rfl := Option.some.inj hstep
        exact inv_takeUp hinv hidle hwaiting
          (hinv.cached _ v hget fun hbusy => hbusy.1 hidle) (Or.inr rfl)
      next hget =>
        obtain rfl := Option.some.inj hstep
        exact inv_takeUp hinv hidle hwaiting (hok e waiting hwaiting hget) (Or.inl rfl)
    next => exact absurd hstep (by simp)
  | handlerStore =>
    simp only [step] at hstep
    split at hstep
    next v e waiting hhandler hwaiting =>
      obtain rfl := Option.some.inj hstep
      exact inv_handlerStore hinv hhandler hwaiting
    next => exact absurd hstep (by simp)
  | handlerWrite =>
    simp only [step] at hstep
    split at hstep
    next v e waiting hhandler hwaiting =>
      obtain rfl := Option.some.inj hstep
      exact inv_handlerWrite hgood hinv hhandler hwaiting
    next => exact absurd hstep (by simp)

omit [DecidableEq τ] in
/-- At rest, a value that is up to date contains every change. -/
theorem value_of_inv (hinv : Inv c good s) (hrest : Quiescent s) (k : κ) :
    c.read (c.value s k) = c.read (c.load (s.source k)) := by
  have hsource : s.source k = s.processed k := by
    rw [hinv.source k, waitingFor, hrest.1]
    rfl
  unfold value
  cases hget : s.cache (c.cacheKey k) with
  | none => rfl
  | some v =>
    rw [hsource]
    exact hinv.cached k v hget fun hbusy => hbusy.1 hrest.2

/-- If no step of the run stores what it should not, then at rest every
reader gets what the source has. -/
theorem run_value (hgood : ∀ e, good e → c.Faithful e) {source : κ → σ}
    {actions : List (Action κ ε)} (hmeets : Meets c.step (c.Sound good) (start source) actions)
    (hrun : run c.step (start source) actions = some s) (hrest : Quiescent s) (k : κ) :
    c.read (c.value s k) = c.read (c.load (s.source k)) :=
  value_of_inv (run_invariant (Inv c good) (fun _ _ _ => inv_step hgood) (inv_start source)
    hmeets hrun) hrest k

end Invariant

end EventFed

end MxExchange.Collections
