import Mathlib.Data.List.Basic

/-!
# Wallets and batches of payments

A payment takes amounts of some assets from a wallet and delivers at least some
amounts in return; how much more it delivers is not known beforehand. A batch of
payments is made one after the other from what the wallet holds by then.
`Affords batch post wallet` says that this works out, whatever is delivered: each
payment is covered when its turn comes, and `post` holds of the wallet in the end.
It is the weakest precondition of the batch.

Batches are reasoned about by what they exchange. `Exchanges offered received batch`
says that a wallet with the amounts offered affords the batch, and that nothing but
these amounts is given away for at least the amounts received. Exchanges are
composed (`Exchanges.seq`) and keep whatever else is there (`Exchanges.frame`).
-/

namespace MxExchange.Collections

variable {τ : Type} [DecidableEq τ]

/-- How much of an asset is in a list of amounts. -/
def total : List (τ × ℕ) → τ → ℕ
  | [], _ => 0
  | (a, n) :: amounts, asset => (if a = asset then n else 0) + total amounts asset

/-- Amounts of two lists add up. -/
theorem total_append (first second : List (τ × ℕ)) (asset : τ) :
    total (first ++ second) asset = total first asset + total second asset := by
  induction first with
  | nil => exact (Nat.zero_add _).symm
  | cons entry first ih =>
    show (if entry.1 = asset then entry.2 else 0) + total (first ++ second) asset =
      (if entry.1 = asset then entry.2 else 0) + total first asset + total second asset
    omega

/-- The order of amounts does not matter. -/
theorem total_perm {first second : List (τ × ℕ)} (h : first.Perm second) (asset : τ) :
    total first asset = total second asset := by
  induction h with
  | nil => rfl
  | @cons entry first second _ ih =>
    show (if entry.1 = asset then entry.2 else 0) + total first asset =
      (if entry.1 = asset then entry.2 else 0) + total second asset
    omega
  | swap entry other rest =>
    show (if other.1 = asset then other.2 else 0) +
        ((if entry.1 = asset then entry.2 else 0) + total rest asset) =
      (if entry.1 = asset then entry.2 else 0) +
        ((if other.1 = asset then other.2 else 0) + total rest asset)
    omega
  | trans _ _ ih ih' => exact ih.trans ih'

/-- What a payment takes out of a wallet, and what it gives. -/
structure Payment (τ : Type) where
  takes : List (τ × ℕ)
  gives : List (τ × ℕ)
  deriving DecidableEq

/-- The wallet can pay the payments one after the other, and what is left has
the property. -/
def Affords : List (Payment τ) → ((τ → ℕ) → Prop) → (τ → ℕ) → Prop
  | [], post, wallet => post wallet
  | payment :: rest, post, wallet =>
    (∀ asset, total payment.takes asset ≤ wallet asset) ∧
      ∀ delivery : τ → ℕ, (∀ asset, total payment.gives asset ≤ delivery asset) →
        Affords rest post fun asset => wallet asset - total payment.takes asset + delivery asset

variable {batch first second : List (Payment τ)} {post post' : (τ → ℕ) → Prop} {wallet : τ → ℕ}

/-- A weaker property of what is left. -/
theorem Affords.mono (h : Affords batch post wallet) (hpost : ∀ left, post left → post' left) :
    Affords batch post' wallet := by
  induction batch generalizing wallet with
  | nil => exact hpost wallet h
  | cons payment batch ih => exact ⟨h.1, fun delivery hdelivery => ih (h.2 delivery hdelivery)⟩

/-- A batch is afforded if its first part is, and the second from whatever is left
then. -/
theorem affords_append :
    Affords (first ++ second) post wallet ↔ Affords first (Affords second post) wallet := by
  induction first generalizing wallet with
  | nil => rfl
  | cons payment first ih =>
    apply and_congr_right
    intro _
    apply forall_congr'
    intro delivery
    apply imp_congr_right
    intro _
    exact ih

/-- The batch gives away no more than what is offered, for at least what is
received. -/
def Exchanges (offered received : List (τ × ℕ)) (batch : List (Payment τ)) : Prop :=
  ∀ wallet : τ → ℕ, (∀ asset, total offered asset ≤ wallet asset) →
    Affords batch
      (fun left => ∀ asset,
        wallet asset + total received asset ≤ left asset + total offered asset) wallet

variable {offered received middle rest offered' received' : List (τ × ℕ)}

/-- One payment exchanges what it takes for what it gives. -/
theorem exchanges_singleton (payment : Payment τ) :
    Exchanges payment.takes payment.gives [payment] := by
  intro wallet hwallet
  refine ⟨hwallet, fun delivery hdelivery asset => ?_⟩
  have htakes := hwallet asset
  have hgives := hdelivery asset
  show wallet asset + total payment.gives asset ≤
    wallet asset - total payment.takes asset + delivery asset + total payment.takes asset
  omega

/-- What the first part delivers pays for the second. -/
theorem Exchanges.seq (hfirst : Exchanges offered (middle ++ rest) first)
    (hsecond : Exchanges middle received second) :
    Exchanges offered (rest ++ received) (first ++ second) := by
  intro wallet hwallet
  rw [affords_append]
  apply (hfirst wallet hwallet).mono
  intro between hbetween
  have hmiddle : ∀ asset, total middle asset ≤ between asset := by
    intro asset
    have hoffered := hwallet asset
    have hleft := hbetween asset
    rw [total_append] at hleft
    omega
  apply (hsecond between hmiddle).mono
  intro left hleft asset
  have hbefore := hbetween asset
  have hafter := hleft asset
  rw [total_append] at hbefore ⊢
  omega

/-- Two batches in a row, the second fed by the first. -/
theorem Exchanges.trans (hfirst : Exchanges offered middle first)
    (hsecond : Exchanges middle received second) :
    Exchanges offered received (first ++ second) := by
  rw [← List.append_nil middle] at hfirst
  exact hfirst.seq hsecond

/-- What is not part of an exchange stays as it is. -/
theorem Exchanges.frame (h : Exchanges offered received batch) (others : List (τ × ℕ)) :
    Exchanges (offered ++ others) (received ++ others) batch := by
  intro wallet hwallet
  have hoffered : ∀ asset, total offered asset ≤ wallet asset := by
    intro asset
    have hboth := hwallet asset
    rw [total_append] at hboth
    omega
  apply (h wallet hoffered).mono
  intro left hleft asset
  have := hleft asset
  rw [total_append, total_append]
  omega

/-- The order of the amounts does not matter. -/
theorem Exchanges.perm (h : Exchanges offered received batch) (hoffered : offered.Perm offered')
    (hreceived : received.Perm received') : Exchanges offered' received' batch := by
  intro wallet hwallet
  have hoffer : ∀ asset, total offered asset ≤ wallet asset := by
    intro asset
    rw [total_perm hoffered]
    exact hwallet asset
  apply (h wallet hoffer).mono
  intro left hleft asset
  rw [← total_perm hoffered, ← total_perm hreceived]
  exact hleft asset

end MxExchange.Collections
