import Mathlib.Data.List.Basic

/-!
# Runs of a step function

A system is a step function: what an action makes of a state, or nothing
when the action cannot happen there. A run is a list of actions that all
happened (`run`).

Some systems go wrong at certain steps only. `Meets` says of a run that none
of its steps was of that kind, and `run_invariant` is the induction: what
holds at the start and is kept by every such step holds at the end.
-/

namespace MxExchange.Collections

variable {σ α : Type} {step : σ → α → Option σ} {ok : σ → α → Prop} {s s' : σ}
  {actions : List α}

/-- The state after the actions, if they can all happen. -/
def run (step : σ → α → Option σ) (s : σ) (actions : List α) : Option σ :=
  actions.foldlM step s

/-- Every step of the run was taken in a state where it is all right. -/
def Meets (step : σ → α → Option σ) (ok : σ → α → Prop) : σ → List α → Prop
  | _, [] => True
  | s, a :: actions => ok s a ∧ ∀ s', step s a = some s' → Meets step ok s' actions

instance Meets.decidable [∀ s a, Decidable (ok s a)] :
    (s : σ) → (actions : List α) → Decidable (Meets step ok s actions)
  | _, [] => .isTrue trivial
  | s, a :: actions =>
    match hstep : step s a with
    | none => decidable_of_iff (ok s a) <| by
        simp [Meets, hstep]
    | some s' =>
      have : Decidable (Meets step ok s' actions) := Meets.decidable s' actions
      decidable_of_iff (ok s a ∧ Meets step ok s' actions) <| by
        simp [Meets, hstep]

@[simp] theorem run_nil : run step s [] = some s := rfl

/-- A run is its first step and the rest. -/
theorem run_cons_eq_some {a : α} :
    run step s (a :: actions) = some s' ↔ ∃ t, step s a = some t ∧ run step t actions = some s' :=
  Option.bind_eq_some_iff

/-- What the start has and every step that meets its condition keeps, a run
keeps. -/
theorem run_invariant (Inv : σ → Prop)
    (hstep : ∀ s a s', Inv s → ok s a → step s a = some s' → Inv s')
    (hinit : Inv s) (hmeets : Meets step ok s actions) (hrun : run step s actions = some s') :
    Inv s' := by
  induction actions generalizing s with
  | nil =>
    obtain rfl : s = s' := Option.some.inj hrun
    exact hinit
  | cons a actions ih =>
    obtain ⟨t, ht, hrest⟩ := run_cons_eq_some.mp hrun
    obtain ⟨hok, hmeets⟩ := hmeets
    exact ih (hstep s a t hinit hok ht) (hmeets t ht) hrest

/-- A condition that every step meets is none. -/
theorem meets_of_forall (h : ∀ s a, ok s a) : Meets step ok s actions := by
  induction actions generalizing s with
  | nil => exact trivial
  | cons a actions ih => exact ⟨h s a, fun _ _ => ih⟩

/-- What follows from `ok` is so at every step too. -/
theorem Meets.mono {ok' : σ → α → Prop} (himp : ∀ s a, ok s a → ok' s a)
    (h : Meets step ok s actions) : Meets step ok' s actions := by
  induction actions generalizing s with
  | nil => exact trivial
  | cons a actions ih => exact ⟨himp s a h.1, fun t ht => ih (h.2 t ht)⟩

/-- Any step of the run was all right where it was taken. -/
theorem Meets.at_step {pre post : List α} {a : α} {t : σ}
    (h : Meets step ok s (pre ++ a :: post)) (hrun : run step s pre = some t) : ok t a := by
  induction pre generalizing s with
  | nil =>
    obtain rfl : s = t := Option.some.inj hrun
    exact h.1
  | cons b pre ih =>
    obtain ⟨u, hu, hrest⟩ := run_cons_eq_some.mp hrun
    exact ih (h.2 u hu) hrest

/-- The induction for a system that has no bad steps. -/
theorem run_invariant_all (Inv : σ → Prop)
    (hstep : ∀ s a s', Inv s → step s a = some s' → Inv s')
    (hinit : Inv s) (hrun : run step s actions = some s') : Inv s' := by
  have hmeets : Meets step (fun _ _ => True) s actions := meets_of_forall fun _ _ => trivial
  exact run_invariant Inv (fun s a s' hs _ h => hstep s a s' hs h) hinit hmeets hrun

end MxExchange.Collections
