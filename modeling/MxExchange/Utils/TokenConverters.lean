import MxExchange.LockedAsset.LockedAssetService
import MxExchange.StakingProxy.Unstake

/-!
# `token.converters.ts`: identifiers of tokens with a nonce

An identifier is the collection's, a dash, and the nonce as hexadecimal text of
an even length. A collection's own identifier has one dash, between a ticker
and a suffix, so the parts can be told apart again (`round_trip`).
-/

namespace MxExchange.Utils

open MxExchange.Text
open LockedAsset (tokenNonce)
open StakingProxy (decimalToHex tokenIdentifier)

/-- A part that is missing is printed as a word. -/
def tokenCollection (tokenID : String) : String :=
  let split := tokenID.toList.splitOn '-'
  String.ofList (split[0]?.getD "undefined".toList) ++ "-" ++
    String.ofList (split[1]?.getD "undefined".toList)

/-- `TICKER-suffix`. -/
structure Collection where
  ticker : List Char
  suffix : List Char
  ticker_plain : '-' ∉ ticker
  suffix_plain : '-' ∉ suffix

namespace Collection

/-- The identifier of the collection: ticker and suffix. -/
def tokenID (collection : Collection) : String :=
  String.ofList collection.ticker ++ "-" ++ String.ofList collection.suffix

/-- A collection is given by its two parts. -/
@[ext] theorem ext {collection collection' : Collection}
    (hticker : collection.ticker = collection'.ticker)
    (hsuffix : collection.suffix = collection'.suffix) : collection = collection' := by
  cases collection
  cases collection'
  cases hticker
  cases hsuffix
  rfl

end Collection

/-! ## The nonce -/

/-- A digit is put in front of an odd number of them. -/
theorem toList_decimalToHex (nonce : ℕ) :
    (decimalToHex nonce).toList =
      if (Nat.toDigits 16 nonce).length % 2 = 1 then '0' :: Nat.toDigits 16 nonce
      else Nat.toDigits 16 nonce := by
  unfold decimalToHex
  dsimp only
  rw [String.length_ofList]
  split
  next =>
    rw [String.toList_append, String.toList_ofList (l := Nat.toDigits 16 nonce)]
    rfl
  next => rw [String.toList_ofList]

/-- Hexadecimal digits, an even number of them, that stand for the nonce. -/
structure Printed (nonce : ℕ) (digits : List Char) : Prop where
  hexDigits : ∀ c ∈ digits, (hexDigit c).isSome
  even : digits.length % 2 = 0
  value : parseInt16 digits = some (nonce : ℤ)

/-- The text of a nonce is its digits, with no more than one zero in front. -/
theorem printed_decimalToHex (nonce : ℕ) : Printed nonce (decimalToHex nonce).toList := by
  obtain ⟨hvalue, hdigits⟩ := hexValue_toDigits nonce
  rw [toList_decimalToHex]
  split
  next hodd =>
    -- a zero in front makes the number of digits even and leaves the value
    have hpadded : ∀ c ∈ '0' :: Nat.toDigits 16 nonce, (hexDigit c).isSome :=
      List.forall_mem_cons.mpr ⟨rfl, hdigits⟩
    refine ⟨hpadded, ?_, ?_⟩
    · rw [List.length_cons]
      omega
    · rw [parseInt16_of_hexDigits (List.cons_ne_nil _ _) hpadded]
      exact congrArg (fun n : ℕ => some (n : ℤ)) hvalue
  next heven =>
    refine ⟨hdigits, by omega, ?_⟩
    rw [parseInt16_of_hexDigits Nat.toDigits_ne_nil hdigits, hvalue]

/-- No digit is a dash, so the text of the nonce is the last part. -/
theorem Printed.dash_not_mem {nonce : ℕ} {digits : List Char} (h : Printed nonce digits) :
    '-' ∉ digits := fun hdash => absurd (h.hexDigits '-' hdash) (by decide)

/-! ## The parts -/

/-- An identifier has three parts at its dashes. -/
theorem splitOn_tokenIdentifier (collection : Collection) (nonce : ℕ) :
    (tokenIdentifier collection.tokenID nonce).toList.splitOn '-' =
      [collection.ticker, collection.suffix, (decimalToHex nonce).toList] := by
  have hlist : (tokenIdentifier collection.tokenID nonce).toList =
      collection.ticker ++ '-' :: (collection.suffix ++ '-' :: (decimalToHex nonce).toList) := by
    unfold tokenIdentifier Collection.tokenID
    simp
  rw [hlist, List.splitOn_append_cons_self_of_not_mem collection.ticker_plain,
    List.splitOn_append_cons_self_of_not_mem collection.suffix_plain,
    -- neither part has a dash, and no digit is one
    List.splitOn_eq_singleton (printed_decimalToHex nonce).dash_not_mem]

/-- The collection is what comes before the last dash. -/
theorem tokenCollection_tokenIdentifier (collection : Collection) (nonce : ℕ) :
    tokenCollection (tokenIdentifier collection.tokenID nonce) = collection.tokenID := by
  unfold tokenCollection
  rw [splitOn_tokenIdentifier]
  rfl

/-- The nonce is read from what comes behind it. -/
theorem tokenNonce_tokenIdentifier (collection : Collection) (nonce : ℕ) :
    tokenNonce (tokenIdentifier collection.tokenID nonce).toList = some (nonce : ℤ) := by
  unfold tokenNonce
  rw [splitOn_tokenIdentifier]
  exact (printed_decimalToHex nonce).value

/-- Two collections do not share an identifier. -/
theorem tokenID_injective : Function.Injective Collection.tokenID := by
  intro collection collection' h
  have hsplit := fun c : Collection => splitOn_tokenIdentifier c 0
  have heq := hsplit collection
  rw [h, hsplit collection'] at heq
  obtain ⟨hticker, hrest⟩ := List.cons.inj heq
  exact Collection.ext hticker.symm (List.cons.inj hrest).1.symm

/-- **Identifiers can be taken apart again.** -/
theorem round_trip :
    (∀ (collection : Collection) (nonce : ℕ),
      tokenCollection (tokenIdentifier collection.tokenID nonce) = collection.tokenID ∧
        tokenNonce (tokenIdentifier collection.tokenID nonce).toList = some (nonce : ℤ) ∧
        ∃ digits, (tokenIdentifier collection.tokenID nonce).toList.splitOn '-' =
          [collection.ticker, collection.suffix, digits] ∧ Printed nonce digits) ∧
    Function.Injective fun token : Collection × ℕ =>
      tokenIdentifier token.1.tokenID token.2 := by
  refine ⟨fun collection nonce => ⟨tokenCollection_tokenIdentifier collection nonce,
    tokenNonce_tokenIdentifier collection nonce, _, splitOn_tokenIdentifier collection nonce,
    printed_decimalToHex nonce⟩, ?_⟩
  rintro ⟨collection, nonce⟩ ⟨collection', nonce'⟩ h
  have hcollection := congrArg tokenCollection h
  have hnonce := congrArg (fun tokenID => tokenNonce tokenID.toList) h
  simp only [tokenCollection_tokenIdentifier, tokenNonce_tokenIdentifier, Option.some.injEq,
    Nat.cast_inj] at hcollection hnonce
  rw [tokenID_injective hcollection, hnonce]

example : tokenIdentifier "LKFARM-9d1ea8" 300 = "LKFARM-9d1ea8-012c" := by decide

end MxExchange.Utils
