import MxExchange.Escrow.EscrowAbi
import MxExchange.Pair.PairUtils

/-!
# `pair.abi.service.ts`: lists that a pair contract returns

A pair sends its fees to destinations and lets managed addresses trade; the
contract returns both as lists. The addresses are decoded one by one. For the
destinations there is a round for each of them as well, but every round reads
the first one, so the list that is returned repeats it. That is what the
contract has if all destinations are the same, and only then
(`listsDecoded_iff`).

The texts of addresses are those of the network library, which tells any two
addresses apart by them; nothing else about it matters here.
-/

namespace MxExchange.Pair

open MxExchange.Collections
open Escrow (PublicKey AddressLibrary defined networkLibrary)

/-- A fee destination as the contract returns it: a tuple. -/
structure FeeDestinationTuple where
  field0 : PublicKey
  field1 : TokenID

/-- What a destination is decoded to: texts. -/
structure FeeDestination where
  address : String
  tokenID : TokenID
  deriving DecidableEq

section Lists

variable (library : AddressLibrary)

/-- `new Address(value).bech32()`. -/
def bech32 (publicKey : PublicKey) : String := library.addressText publicKey

/-- Each round of the map reads the head of the response. -/
def getFeeDestinationsRaw (firstValue : List FeeDestinationTuple) :
    Except String (List FeeDestination) :=
  firstValue.mapM fun _ => do
    let head ← defined firstValue[0]?
    return { address := bech32 library head.field0, tokenID := head.field1 }

/-- Each address on its own. -/
def getWhitelistedAddressesRaw (firstValue : List PublicKey) : List String :=
  firstValue.map (bech32 library)

/-- What a destination is decoded to. -/
def FeeDestinationTuple.decoded (v : FeeDestinationTuple) : FeeDestination :=
  ⟨bech32 library v.field0, v.field1⟩

end Lists

/-- A list decoded element by element: as long as what was returned, each
element the one of its place, and different ones different. -/
structure DecodedInOrder {α β : Type} (decode : α → β) (elements : List α) (decoded : List β) :
    Prop where
  length_eq : decoded.length = elements.length
  getElem?_eq : ∀ i : ℕ, decoded[i]? = elements[i]?.map decode
  distinct : ∀ (i j : ℕ) (v w : α), elements[i]? = some v → elements[j]? = some w → v ≠ w →
    decoded[i]? ≠ decoded[j]?

section DecodedInOrder

variable {α β : Type} {decode : α → β} {elements : List α} {decoded : List β}

/-- A list that is decoded in order is the list of the decoded elements. -/
theorem decodedInOrder_map_iff (hdecode : Function.Injective decode) :
    DecodedInOrder decode elements decoded ↔ decoded = elements.map decode := by
  constructor
  · intro h
    refine List.ext_getElem? fun i => ?_
    rw [h.getElem?_eq, List.getElem?_map]
  · rintro rfl
    refine ⟨List.length_map _, fun i => List.getElem?_map, ?_⟩
    intro i j v w hv hw hne heq
    rw [List.getElem?_map, List.getElem?_map, hv, hw] at heq
    exact hne (hdecode (Option.some.inj heq))

end DecodedInOrder

section Destinations

variable {library : AddressLibrary}

/-- Different destinations are decoded to different ones. -/
theorem decoded_injective (hinjective : Function.Injective library.addressText) :
    Function.Injective (FeeDestinationTuple.decoded library) := by
  intro v w h
  obtain ⟨haddress, htoken⟩ := FeeDestination.mk.inj h
  cases v
  cases w
  cases hinjective haddress
  cases htoken
  rfl

/-- The head, as often as there are destinations. -/
theorem getFeeDestinationsRaw_cons (head : FeeDestinationTuple)
    (rest : List FeeDestinationTuple) : getFeeDestinationsRaw library (head :: rest) =
      .ok ((head :: rest).map fun _ => head.decoded library) := List.mapM_pure

/-- The first destination is every destination if they are all the same. -/
theorem getFeeDestinationsRaw_eq_iff (hinjective : Function.Injective library.addressText)
    (firstValue : List FeeDestinationTuple) :
    getFeeDestinationsRaw library firstValue = .ok (firstValue.map (·.decoded library)) ↔
      ∀ v ∈ firstValue, ∀ w ∈ firstValue, v = w := by
  cases firstValue with
  | nil => exact iff_of_true rfl nofun
  | cons head rest =>
    rw [getFeeDestinationsRaw_cons, Except.ok.injEq, List.map_inj_left]
    constructor
    · intro h v hv w hw
      rw [← decoded_injective hinjective (h v hv), ← decoded_injective hinjective (h w hw)]
    · intro h v hv
      rw [h head List.mem_cons_self v hv]

end Destinations

/-! ## When both lists are right -/

/-- What is asked of the two lists a pair contract returns. -/
structure ListsDecoded (library : AddressLibrary) (destinations : List FeeDestinationTuple)
    (addresses : List PublicKey) : Prop where
  feeDestinations : ∃ decoded, getFeeDestinationsRaw library destinations = .ok decoded ∧
    DecodedInOrder (·.decoded library) destinations decoded
  whitelistedAddresses :
    DecodedInOrder (bech32 library) addresses (getWhitelistedAddressesRaw library addresses)

/-- The whitelisted addresses always are what the contract has; the destinations
are if they do not differ. The texts of two addresses must differ, as those of a
`bech32` encoding do (`Escrow.addressText_injective`). -/
theorem listsDecoded_iff (library : AddressLibrary)
    (hinjective : Function.Injective library.addressText)
    (destinations : List FeeDestinationTuple) (addresses : List PublicKey) :
    ListsDecoded library destinations addresses ↔
      ∀ v ∈ destinations, ∀ w ∈ destinations, v = w := by
  rw [← getFeeDestinationsRaw_eq_iff hinjective]
  constructor
  · rintro ⟨⟨decoded, hrun, hdecoded⟩, -⟩
    rw [hrun, (decodedInOrder_map_iff (decoded_injective hinjective)).mp hdecoded]
  · intro h
    exact ⟨⟨_, h, (decodedInOrder_map_iff (decoded_injective hinjective)).mpr rfl⟩,
      (decodedInOrder_map_iff hinjective).mpr rfl⟩

/-- Fees in two tokens, both to the address of all zeros. -/
def sampleDestinations : List FeeDestinationTuple :=
  [⟨Escrow.zeroKey, "MEX-455c57"⟩, ⟨Escrow.zeroKey, "WEGLD-bd4d79"⟩]

/-- Two destinations that are the same, and two addresses; and two different
destinations. -/
theorem listsDecoded_iff_sample :
    ListsDecoded networkLibrary
        [⟨Escrow.zeroKey, "MEX-455c57"⟩, ⟨Escrow.zeroKey, "MEX-455c57"⟩]
        [Escrow.zeroKey, Escrow.itemKey] ∧
      ¬ListsDecoded networkLibrary sampleDestinations [Escrow.zeroKey, Escrow.itemKey] := by
  refine ⟨(listsDecoded_iff _ Escrow.addressText_injective _ _).mpr (by simp), ?_⟩
  rw [listsDecoded_iff _ Escrow.addressText_injective]
  intro h
  have heq := h ⟨Escrow.zeroKey, "MEX-455c57"⟩ (by simp [sampleDestinations])
    ⟨Escrow.zeroKey, "WEGLD-bd4d79"⟩ (by simp [sampleDestinations])
  exact absurd (congrArg FeeDestinationTuple.field1 heq) (by decide)

/-- The second one is lost, and the first one is there twice. -/
theorem not_listsDecoded_sample : ¬ListsDecoded networkLibrary sampleDestinations [] := by
  rintro ⟨⟨decoded, hrun, hdecoded⟩, -⟩
  have hsecond := congrArg (Option.map FeeDestination.tokenID) (hdecoded.getElem?_eq 1)
  rw [sampleDestinations, getFeeDestinationsRaw_cons, Except.ok.injEq] at hrun
  rw [← hrun] at hsecond
  revert hsecond
  decide

end MxExchange.Pair
