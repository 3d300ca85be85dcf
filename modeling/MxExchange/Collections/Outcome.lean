import Mathlib.Data.List.Forall2

/-!
# Computations that may fail

Reading a successful run of `Except` back: the run of a sequence succeeded
in both steps (`bind_eq_ok`), and the run of a loop that collects results
succeeded in every round (`mapM_eq_ok`, and `mapM_zipIdx_ok` for a loop that
counts its rounds); a loop that failed has failed in one of its rounds
(`exists_of_mapM_error`), so it succeeds where every round does (`exists_mapM_ok`),
and its results are those of the rounds (`ok_of_mapM_ok`, `exists_of_mem_mapM`,
`mapM_map_of_forall_mem`);
for rounds that push any number of results, `exists_flatten_mapM` says which are
collected. For a loop that threads a state through `Option` there is the invariant
rule over what has been processed so far
(`foldlM_invariant`), the rule that it never stops early
(`foldlM_isSome`), the rule for a body that succeeds wherever another does
(`foldlM_mono`), and the rule for a loop whose state is a view of another's
(`foldlM_view`).
-/

namespace MxExchange.Collections

variable {ε α β : Type}

/-- A computation in two steps succeeds if both do. -/
theorem bind_eq_ok {x : Except ε α} {f : α → Except ε β} {b : β} :
    (x >>= f) = .ok b ↔ ∃ a, x = .ok a ∧ f a = .ok b := by
  cases x with
  | error e => simp [bind, Except.bind]
  | ok a => simp [bind, Except.bind]

theorem pure_eq_ok {a b : α} : (pure a : Except ε α) = .ok b ↔ a = b := by
  simp [pure, Except.pure]

/-- A loop succeeds if each of its rounds does, in order. -/
theorem mapM_eq_ok {f : α → Except ε β} {l : List α} {ys : List β} :
    l.mapM f = .ok ys ↔ List.Forall₂ (fun x y => f x = .ok y) l ys := by
  induction l generalizing ys with
  | nil =>
    rw [List.mapM_nil, pure_eq_ok, List.forall₂_nil_left_iff]
    exact eq_comm
  | cons x l ih =>
    rw [List.mapM_cons, bind_eq_ok, List.forall₂_cons_left_iff]
    constructor
    · intro h
      obtain ⟨y, hy, hrest⟩ := h
      obtain ⟨ys', hys, hpure⟩ := bind_eq_ok.mp hrest
      exact ⟨y, ys', hy, ih.mp hys, (pure_eq_ok.mp hpure).symm⟩
    · intro h
      obtain ⟨y, ys', hy, hys, rfl⟩ := h
      exact ⟨y, hy, bind_eq_ok.mpr ⟨ys', ih.mpr hys, rfl⟩⟩

/-- A loop each round of which gives what another's gives, changed by `g`, or fails
where it fails. -/
theorem mapM_map_of_forall_mem {f f' : α → Except ε β} {g : β → β} {l : List α}
    (h : ∀ x ∈ l, f' x = (f x).map g) : l.mapM f' = (l.mapM f).map (List.map g) := by
  induction l with
  | nil => rfl
  | cons x l ih =>
    have hrest := ih fun y hy => h y (List.mem_cons_of_mem x hy)
    rw [List.mapM_cons, List.mapM_cons, h x List.mem_cons_self, hrest]
    cases f x with
    | error e => rfl
    | ok y => cases l.mapM f <;> rfl

/-- A loop that fails has failed in one of its rounds. -/
theorem exists_of_mapM_error {f : α → Except ε β} {l : List α} {e : ε}
    (h : l.mapM f = .error e) : ∃ x ∈ l, f x = .error e := by
  induction l with
  | nil =>
    rw [List.mapM_nil] at h
    cases h
  | cons x l ih =>
    rw [List.mapM_cons] at h
    cases hx : f x with
    | error e' =>
      rw [hx] at h
      cases h
      exact ⟨x, List.mem_cons_self, hx⟩
    | ok y =>
      cases hrest : l.mapM f with
      | error e' =>
        rw [hx, hrest] at h
        cases h
        obtain ⟨x', hmem, hx'⟩ := ih hrest
        exact ⟨x', List.mem_cons_of_mem x hmem, hx'⟩
      | ok ys =>
        rw [hx, hrest] at h
        cases h

/-- A loop succeeds if it does in every round. -/
theorem exists_mapM_ok {f : α → Except ε β} {l : List α} (h : ∀ x ∈ l, ∃ y, f x = .ok y) :
    ∃ ys, l.mapM f = .ok ys := by
  cases hrun : l.mapM f with
  | ok ys => exact ⟨ys, rfl⟩
  | error e =>
    obtain ⟨x, hx, herror⟩ := exists_of_mapM_error hrun
    obtain ⟨y, hy⟩ := h x hx
    rw [hy] at herror
    cases herror

/-- Each element of a loop that succeeded has its result. -/
theorem ok_of_mapM_ok {f : α → Except ε β} {l : List α} {ys : List β} (h : l.mapM f = .ok ys)
    {x : α} (hx : x ∈ l) : ∃ y ∈ ys, f x = .ok y := by
  obtain ⟨i, hi, rfl⟩ := List.getElem_of_mem hx
  have hall := mapM_eq_ok.mp h
  have hlen := hall.length_eq
  exact ⟨ys[i], List.getElem_mem (by omega), hall.get hi (by omega)⟩

/-- Each result of a loop is that of some element. -/
theorem exists_of_mem_mapM {f : α → Except ε β} {l : List α} {ys : List β} (h : l.mapM f = .ok ys)
    {y : β} (hy : y ∈ ys) : ∃ x ∈ l, f x = .ok y := by
  obtain ⟨i, hi, rfl⟩ := List.getElem_of_mem hy
  have hall := mapM_eq_ok.mp h
  have hlen := hall.length_eq
  exact ⟨l[i], List.getElem_mem (by omega), hall.get (by omega) hi⟩

/-- A loop whose rounds push only what is wanted, and that pushes all of it. -/
theorem exists_flatten_mapM {f : α → Except ε (List β)} {l : List α} {Wanted : β → Prop}
    (hround : ∀ x ∈ l, ∃ part, f x = .ok part ∧ ∀ y ∈ part, Wanted y)
    (hall : ∀ y, Wanted y → ∃ x ∈ l, ∃ part, f x = .ok part ∧ y ∈ part) :
    ∃ parts, l.mapM f = .ok parts ∧ ∀ y, y ∈ parts.flatten ↔ Wanted y := by
  obtain ⟨parts, hparts⟩ := exists_mapM_ok fun x hx => (hround x hx).imp fun _ h => h.1
  refine ⟨parts, hparts, fun y => ?_⟩
  rw [List.mem_flatten]
  constructor
  · rintro ⟨part, hpart, hy⟩
    obtain ⟨x, hx, hpushed⟩ := exists_of_mem_mapM hparts hpart
    obtain ⟨part', hpushed', hwanted⟩ := hround x hx
    rw [hpushed] at hpushed'
    obtain rfl := Except.ok.inj hpushed'
    exact hwanted y hy
  · intro hy
    obtain ⟨x, hx, part, hpushed, hmem⟩ := hall y hy
    obtain ⟨part', hpart', hpushed'⟩ := ok_of_mapM_ok hparts hx
    rw [hpushed] at hpushed'
    obtain rfl := Except.ok.inj hpushed'
    exact ⟨part, hpart', hmem⟩

/-- The same for a loop that looks at the index. -/
theorem mapM_zipIdx_ok {f : α × ℕ → Except ε β} {l : List α} {ys : List β}
    (h : l.zipIdx.mapM f = .ok ys) :
    ys.length = l.length ∧
      ∀ (i : ℕ) (x : α), l[i]? = some x → ∃ y, ys[i]? = some y ∧ f (x, i) = .ok y := by
  have hall := mapM_eq_ok.mp h
  have hlen : ys.length = l.length := by
    rw [← hall.length_eq, List.length_zipIdx]
  refine ⟨hlen, ?_⟩
  intro i x hx
  obtain ⟨hi, hxi⟩ := List.getElem?_eq_some_iff.mp hx
  have hget := hall.get (i := i) (by rwa [List.length_zipIdx]) (by omega)
  refine ⟨ys[i], List.getElem?_eq_getElem (by omega), ?_⟩
  simpa [hxi] using hget

/-! ## Loops in `Option` -/

variable {σ : Type}

/-- The invariant speaks of the rounds already made. -/
theorem foldlM_invariant {f : σ → α → Option σ} {l : List α} {s s' : σ}
    (Inv : List α → σ → Prop) (hinit : Inv [] s)
    (hstep : ∀ pre x post t t', l = pre ++ x :: post → Inv pre t → f t x = some t' →
      Inv (pre ++ [x]) t')
    (h : l.foldlM f s = some s') : Inv l s' := by
  -- `rest` is still to come; the rounds made so far are `pre`
  have hrun : ∀ (rest pre : List α) (t : σ), l = pre ++ rest → Inv pre t →
      rest.foldlM f t = some s' → Inv l s' := by
    intro rest
    induction rest with
    | nil =>
      intro pre t hl hinv ht
      rw [List.append_nil] at hl
      rw [List.foldlM_nil] at ht
      rw [hl, ← Option.some.inj ht]
      exact hinv
    | cons x rest ih =>
      intro pre t hl hinv ht
      rw [List.foldlM_cons] at ht
      obtain ⟨t', hfx, hrest⟩ := Option.bind_eq_some_iff.mp ht
      exact ih (pre ++ [x]) t' (by simpa using hl) (hstep pre x rest t t' hl hinv hfx) hrest
  exact hrun l [] s rfl hinit h

/-- A loop that keeps an invariant under which no round fails runs to its end.
-/
theorem foldlM_isSome {f : σ → α → Option σ} {l : List α} {s : σ} (Inv : σ → Prop)
    (hinit : Inv s) (hstep : ∀ x ∈ l, ∀ t, Inv t → ∃ t', f t x = some t' ∧ Inv t') :
    ∃ s', l.foldlM f s = some s' ∧ Inv s' := by
  induction l generalizing s with
  | nil => exact ⟨s, rfl, hinit⟩
  | cons x l ih =>
    obtain ⟨t, hfx, hinv⟩ := hstep x (by simp) s hinit
    obtain ⟨s', hs', hinv'⟩ := ih hinv (fun y hy => hstep y (List.mem_cons_of_mem x hy))
    exact ⟨s', by rw [List.foldlM_cons, hfx]; exact hs', hinv'⟩

/-- A loop whose rounds fail less often gives the same where the other succeeds.
-/
theorem foldlM_mono {f f' : σ → α → Option σ}
    (h : ∀ s x s', f s x = some s' → f' s x = some s') {l : List α} {s s' : σ}
    (hs : l.foldlM f s = some s') : l.foldlM f' s = some s' := by
  induction l generalizing s with
  | nil => exact hs
  | cons x l ih =>
    rw [List.foldlM_cons] at hs ⊢
    obtain ⟨t, ht, hrest⟩ := Option.bind_eq_some_iff.mp hs
    rw [h s x t ht]
    exact ih hrest

/-- A loop on a larger state, seen through a view, is the loop on the view. -/
theorem foldlM_view {τ : Type} {f : σ → α → Option σ} {g : τ → α → Option τ} (view : τ → σ)
    (h : ∀ t x, (g t x).map view = f (view t) x) (l : List α) (t : τ) :
    (l.foldlM g t).map view = l.foldlM f (view t) := by
  induction l generalizing t with
  | nil => rfl
  | cons x l ih =>
    rw [List.foldlM_cons, List.foldlM_cons, ← h]
    cases g t x with
    | none => rfl
    | some t' => exact ih t'

end MxExchange.Collections
