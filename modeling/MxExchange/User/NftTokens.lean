import MxExchange.Collections.Kinds
import MxExchange.User.MetaEsdt

/-!
# `user.metaEsdt.service.ts`: all NFTs and the NFTs of each kind

A user's NFTs are shown in fifteen lists, one for each kind of position, and in one
list of them all. A list of a kind asks for the collections of the kind and values
what it gets. The one list asks `nftTokenType` for the kind of each NFT, which goes
through the configured contracts one after the other and stops at the first whose
collection it is, and values the NFT as that.

So what the two show of a user is the same if no collection is configured for two
kinds. If one is, the lists show its NFTs twice, and the one list as the kind that
comes first (`nfts_perm`).
-/

namespace MxExchange.User.NftTokens

open MxExchange.Pair MxExchange.Collections

/-- `NftTokenType`. -/
inductive NftTokenType where
  | FarmToken
  | LockedAssetToken
  | LockedLpToken
  | LockedFarmToken
  | LockedLpTokenV2
  | LockedFarmTokenV2
  | StakeFarmToken
  | DualYieldToken
  | RedeemToken
  | LockedEsdtToken
  | LockedSimpleLpToken
  | LockedSimpleFarmToken
  | LockedTokenEnergy
  | WrappedLockedToken
  deriving DecidableEq

/-! ## The contracts -/

/-- `scAddress.proxyDexAddress` -/
structure ProxyDexAddress where
  v1 : Address
  v2 : Address

/-- Its keys in their order, with what they stand for. -/
def ProxyDexAddress.entries (proxyDexAddress : ProxyDexAddress) : List (String × Address) :=
  [("v1", proxyDexAddress.v1), ("v2", proxyDexAddress.v2)]

/-- The configured contracts, and the collections they answer with. -/
structure Contracts where
  lockedMEXTokenID : TokenID
  lockedTokenEnergy : TokenID
  wrappedLockedToken : TokenID
  proxyDexAddress : ProxyDexAddress
  wrappedLpTokenID : Address → TokenID
  wrappedFarmTokenID : Address → TokenID
  simpleLockAddress : List Address
  lockedTokenID : Address → TokenID
  lpProxyTokenID : Address → TokenID
  farmProxyTokenID : Address → TokenID
  farmsAddresses : List Address
  farmTokenID : Address → TokenID
  stakingAddresses : List Address
  stakeFarmTokenID : Address → TokenID
  stakingProxyAddresses : List Address
  dualYieldTokenID : Address → TokenID
  priceDiscovery : List Address
  redeemTokenID : Address → TokenID

/-- A string that is found and not empty. -/
def truthy : Option String → Bool
  | some found => found ≠ ""
  | none => false

/-- The loop over the versions of the proxy. -/
def proxyTokenType (contracts : Contracts) (tokenID : TokenID) :
    List (String × Address) → Option NftTokenType
  | [] => none
  | (proxyVersion, address) :: proxies =>
    if tokenID = contracts.wrappedLpTokenID address then
      some (if proxyVersion = "v1" then .LockedLpToken else .LockedLpTokenV2)
    else if tokenID = contracts.wrappedFarmTokenID address then
      some (if proxyVersion = "v1" then .LockedFarmToken else .LockedFarmTokenV2)
    else proxyTokenType contracts tokenID proxies

/-- The loop over the contracts of simple locks. -/
def simpleLockTokenType (contracts : Contracts) (tokenID : TokenID) :
    List Address → Option NftTokenType
  | [] => none
  | simpleLockAddress :: simpleLocks =>
    if tokenID = contracts.lockedTokenID simpleLockAddress then some .LockedEsdtToken
    else if tokenID = contracts.lpProxyTokenID simpleLockAddress then some .LockedSimpleLpToken
    else if tokenID = contracts.farmProxyTokenID simpleLockAddress then some .LockedSimpleFarmToken
    else simpleLockTokenType contracts tokenID simpleLocks

/-- The first contract that redeems the token. -/
def getPriceDiscoveryAddresByRedeemToken (contracts : Contracts) (tokenID : TokenID) :
    Option Address :=
  contracts.priceDiscovery.find? fun address => contracts.redeemTokenID address = tokenID

/-- The rest of `getNftTokenTypeRaw`, after the loops with a return in them. -/
def listedTokenType (contracts : Contracts) (tokenID : TokenID) : Option NftTokenType :=
  let farmTokenIDs := contracts.farmsAddresses.map contracts.farmTokenID
  let stakeFarmTokenIDs := contracts.stakingAddresses.map contracts.stakeFarmTokenID
  let dualYieldTokenIDs := contracts.stakingProxyAddresses.map contracts.dualYieldTokenID
  if truthy (farmTokenIDs.find? fun farmTokenID => farmTokenID = tokenID) then some .FarmToken
  else if truthy (stakeFarmTokenIDs.find? fun stakeFarmTokenID => stakeFarmTokenID = tokenID) then
    some .StakeFarmToken
  else if truthy (dualYieldTokenIDs.find? fun dualYieldTokenID => dualYieldTokenID = tokenID) then
    some .DualYieldToken
  else if truthy (getPriceDiscoveryAddresByRedeemToken contracts tokenID) then some .RedeemToken
  else none

def getNftTokenTypeRaw (contracts : Contracts) (tokenID : TokenID) : Option NftTokenType :=
  if tokenID = contracts.lockedMEXTokenID then some .LockedAssetToken
  else if tokenID = contracts.lockedTokenEnergy then some .LockedTokenEnergy
  else if tokenID = contracts.wrappedLockedToken then some .WrappedLockedToken
  else
    ((proxyTokenType contracts tokenID contracts.proxyDexAddress.entries).or
      (simpleLockTokenType contracts tokenID contracts.simpleLockAddress)).or
        (listedTokenType contracts tokenID)

/-! ## The values -/

/-- `UserMetaEsdtComputeService`: the values of the tokens, whatever they are computed
from. Some tokens have none. -/
structure UserMetaEsdtComputeService (UserToken : Type) where
  /-- By the key that its contracts are cached under. -/
  farmToken : String → NftToken → Option UserToken
  lockedAssetTokenUSD : NftToken → UserToken
  lockedLpTokenUSD : NftToken → Option UserToken
  lockedFarmTokenUSD : NftToken → Option UserToken
  lockedLpTokenV2USD : NftToken → Option UserToken
  lockedFarmTokenV2USD : NftToken → Option UserToken
  stakeFarmUSD : NftToken → UserToken
  unbondFarmUSD : NftToken → UserToken
  dualYieldTokenUSD : NftToken → Option UserToken
  redeemTokenUSD : NftToken → UserToken
  lockedEsdtTokenUSD : NftToken → UserToken
  lockedSimpleLpTokenUSD : NftToken → UserToken
  lockedSimpleFarmTokenUSD : NftToken → Option UserToken
  lockedTokenEnergyUSD : NftToken → UserToken
  wrappedLockedTokenEnergyUSD : NftToken → Option UserToken

def UserMetaEsdtComputeService.farmTokenUSD {UserToken : Type}
    (userComputeService : UserMetaEsdtComputeService UserToken) (nftToken : NftToken)
    (parentIdentifier : Option String) : Option UserToken :=
  userComputeService.farmToken (parentIdentifier.getD nftToken.identifier) nftToken

/-- Unbond attributes are told by their length. -/
def stakingUnbondAttributesLen : ℕ := 12

/-- The attributes are those of a token that is being unbonded. -/
def isUnbond (nft : NftToken) : Bool := nft.attributes.length = stakingUnbondAttributesLen

/-! ## The lists -/

/-- The service, with what it asks others. -/
structure UserMetaEsdtService (UserToken : Type) where
  contracts : Contracts
  userComputeService : UserMetaEsdtComputeService UserToken
  apiService : MXApiService

namespace UserMetaEsdtService

variable {UserToken : Type} (service : UserMetaEsdtService UserToken) (userAddress : Address)
  (pagination : PaginationArgs)

/-- What a list of a kind gets from the context. -/
def nftsOf (collections : List TokenID) : List NftToken :=
  getNftsForUser service.apiService userAddress pagination.offset pagination.limit "MetaESDT"
    (some collections)

/-- The NFTs of the collections, each with its value; the next ones do the same
for theirs. -/
def getUserLockedAssetTokens : List UserToken :=
  (service.nftsOf userAddress pagination [service.contracts.lockedMEXTokenID]).map
    service.userComputeService.lockedAssetTokenUSD

def getUserFarmTokens : List UserToken :=
  (service.nftsOf userAddress pagination
    (service.contracts.farmsAddresses.map service.contracts.farmTokenID)).filterMap
      fun nft => service.userComputeService.farmTokenUSD nft (some nft.identifier)

/-- Tokens without a value stay in the list. -/
def getUserLockedLpTokens : List (Option UserToken) :=
  (service.nftsOf userAddress pagination
    [service.contracts.wrappedLpTokenID service.contracts.proxyDexAddress.v1]).map
      service.userComputeService.lockedLpTokenUSD

def getUserLockedFarmTokens : List UserToken :=
  (service.nftsOf userAddress pagination
    [service.contracts.wrappedFarmTokenID service.contracts.proxyDexAddress.v1]).filterMap
      service.userComputeService.lockedFarmTokenUSD

/-- Tokens without a value stay in the list. -/
def getUserLockedLpTokensV2 : List (Option UserToken) :=
  (service.nftsOf userAddress pagination
    [service.contracts.wrappedLpTokenID service.contracts.proxyDexAddress.v2]).map
      service.userComputeService.lockedLpTokenV2USD

def getUserLockedFarmTokensV2 : List UserToken :=
  (service.nftsOf userAddress pagination
    [service.contracts.wrappedFarmTokenID service.contracts.proxyDexAddress.v2]).filterMap
      service.userComputeService.lockedFarmTokenV2USD

def getUserStakeFarmTokens : List UserToken :=
  ((service.nftsOf userAddress pagination
    (service.contracts.stakingAddresses.map service.contracts.stakeFarmTokenID)).filter
      fun nft => !isUnbond nft).map service.userComputeService.stakeFarmUSD

def getUserUnbondFarmTokens : List UserToken :=
  ((service.nftsOf userAddress pagination
    (service.contracts.stakingAddresses.map service.contracts.stakeFarmTokenID)).filter
      fun nft => isUnbond nft).map service.userComputeService.unbondFarmUSD

def getUserDualYieldTokens : List UserToken :=
  (service.nftsOf userAddress pagination
    (service.contracts.stakingProxyAddresses.map service.contracts.dualYieldTokenID)).filterMap
      service.userComputeService.dualYieldTokenUSD

def getUserRedeemToken : List UserToken :=
  (service.nftsOf userAddress pagination
    (service.contracts.priceDiscovery.map service.contracts.redeemTokenID)).map
      service.userComputeService.redeemTokenUSD

def getUserLockedEsdtToken : List UserToken :=
  (service.nftsOf userAddress pagination
    (service.contracts.simpleLockAddress.map service.contracts.lockedTokenID)).map
      service.userComputeService.lockedEsdtTokenUSD

def getUserLockedSimpleLpToken : List UserToken :=
  (service.nftsOf userAddress pagination
    (service.contracts.simpleLockAddress.map service.contracts.lpProxyTokenID)).map
      service.userComputeService.lockedSimpleLpTokenUSD

def getUserLockedSimpleFarmToken : List UserToken :=
  (service.nftsOf userAddress pagination
    (service.contracts.simpleLockAddress.map service.contracts.farmProxyTokenID)).filterMap
      service.userComputeService.lockedSimpleFarmTokenUSD

def getUserLockedTokenEnergy : List UserToken :=
  (service.nftsOf userAddress pagination [service.contracts.lockedTokenEnergy]).map
    service.userComputeService.lockedTokenEnergyUSD

def getUserWrappedLockedTokenEnergy : List UserToken :=
  (service.nftsOf userAddress pagination [service.contracts.wrappedLockedToken]).filterMap
    service.userComputeService.wrappedLockedTokenEnergyUSD

/-- The body of the loop of `getAllNftTokens`: what it pushes, if anything. -/
def userNftToken (userNft : NftToken) : List (Option UserToken) :=
  let compute := service.userComputeService
  match getNftTokenTypeRaw service.contracts userNft.collection with
  | some .FarmToken => [compute.farmTokenUSD userNft none]
  | some .LockedAssetToken => [some (compute.lockedAssetTokenUSD userNft)]
  | some .LockedLpToken => [compute.lockedLpTokenUSD userNft]
  | some .LockedFarmToken => [compute.lockedFarmTokenUSD userNft]
  | some .LockedLpTokenV2 => [compute.lockedLpTokenV2USD userNft]
  | some .LockedFarmTokenV2 => [compute.lockedFarmTokenV2USD userNft]
  | some .StakeFarmToken =>
    if userNft.attributes.length ≠ stakingUnbondAttributesLen then
      [some (compute.stakeFarmUSD userNft)]
    else [some (compute.unbondFarmUSD userNft)]
  | some .DualYieldToken => [compute.dualYieldTokenUSD userNft]
  | some .RedeemToken => [some (compute.redeemTokenUSD userNft)]
  | some .LockedEsdtToken => [some (compute.lockedEsdtTokenUSD userNft)]
  | some .LockedSimpleLpToken => [some (compute.lockedSimpleLpTokenUSD userNft)]
  | some .LockedSimpleFarmToken => [compute.lockedSimpleFarmTokenUSD userNft]
  | some .LockedTokenEnergy => [some (compute.lockedTokenEnergyUSD userNft)]
  | some .WrappedLockedToken => [compute.wrappedLockedTokenEnergyUSD userNft]
  | none => []

/-- `nfts` are given by `userCustomNftTokens`, otherwise they are the user's. -/
def getAllNftTokens (nfts : Option (List NftToken)) : List (Option UserToken) :=
  let userNFTs := nfts.getD (getNftsForUser service.apiService userAddress pagination.offset
    pagination.limit "MetaESDT" none)
  userNFTs.flatMap service.userNftToken

/-- The query `nfts` of the resolver. -/
def nfts : List UserToken :=
  (service.getAllNftTokens userAddress pagination none).filterMap id

/-- The fifteen lists. -/
def listings : List (List UserToken) :=
  [service.getUserLockedAssetTokens userAddress pagination,
    service.getUserFarmTokens userAddress pagination,
    (service.getUserLockedLpTokens userAddress pagination).filterMap id,
    service.getUserLockedFarmTokens userAddress pagination,
    (service.getUserLockedLpTokensV2 userAddress pagination).filterMap id,
    service.getUserLockedFarmTokensV2 userAddress pagination,
    service.getUserStakeFarmTokens userAddress pagination,
    service.getUserUnbondFarmTokens userAddress pagination,
    service.getUserDualYieldTokens userAddress pagination,
    service.getUserRedeemToken userAddress pagination,
    service.getUserLockedEsdtToken userAddress pagination,
    service.getUserLockedSimpleLpToken userAddress pagination,
    service.getUserLockedSimpleFarmToken userAddress pagination,
    service.getUserLockedTokenEnergy userAddress pagination,
    service.getUserWrappedLockedTokenEnergy userAddress pagination]

end UserMetaEsdtService

/-! ## The kinds -/

/-- What the lists are of, in their order: the types, of which one is shown in two
lists. -/
inductive Kind where
  | ofType (type : NftTokenType)
  | unbond
  deriving DecidableEq

namespace Kind

def all : List Kind :=
  [.ofType .LockedAssetToken, .ofType .FarmToken, .ofType .LockedLpToken,
    .ofType .LockedFarmToken, .ofType .LockedLpTokenV2, .ofType .LockedFarmTokenV2,
    .ofType .StakeFarmToken, .unbond, .ofType .DualYieldToken, .ofType .RedeemToken,
    .ofType .LockedEsdtToken, .ofType .LockedSimpleLpToken, .ofType .LockedSimpleFarmToken,
    .ofType .LockedTokenEnergy, .ofType .WrappedLockedToken]

/-- No kind is listed twice. -/
theorem nodup_all : all.Nodup := by decide

/-- Every kind is listed. -/
theorem mem_all (kind : Kind) : kind ∈ all := by
  cases kind with
  | ofType type => cases type <;> decide
  | unbond => decide

def type : Kind → NftTokenType
  | .ofType type => type
  | .unbond => .StakeFarmToken

/-- The tokens of the type that are shown as this. -/
def admits (nft : NftToken) : Kind → Bool
  | .ofType .StakeFarmToken => !isUnbond nft
  | .ofType _ => true
  | .unbond => isUnbond nft

/-- Of a type, one kind admits a token. -/
theorem eq_of_admits {nft : NftToken} {kind kind' : Kind} (htype : kind.type = kind'.type)
    (h : kind.admits nft = true) (h' : kind'.admits nft = true) : kind = kind' := by
  cases kind with
  | ofType type =>
    cases kind' with
    | ofType type' => exact congrArg ofType htype
    | unbond =>
      obtain rfl : type = .StakeFarmToken := htype
      simp_all [admits]
  | unbond =>
    cases kind' with
    | ofType type' =>
      obtain rfl : .StakeFarmToken = type' := htype
      simp_all [admits]
    | unbond => rfl

end Kind

/-- What a token of a type is shown as. -/
def NftTokenType.kind (nft : NftToken) (type : NftTokenType) : Kind :=
  if type = .StakeFarmToken ∧ isUnbond nft then .unbond else .ofType type

theorem NftTokenType.kind_type (nft : NftToken) (type : NftTokenType) :
    (type.kind nft).type = type := by
  unfold kind
  split
  next h => exact h.1.symm
  next => rfl

/-- An NFT is admitted by the kind it is of. -/
theorem NftTokenType.admits_kind (nft : NftToken) (type : NftTokenType) :
    (type.kind nft).admits nft = true := by
  unfold kind
  split
  next h => exact h.2
  next h => cases type <;> first | rfl | simpa [Kind.admits] using h

namespace Contracts

variable (contracts : Contracts)

/-- The collections that the lists of a type ask for. -/
def collections : NftTokenType → List TokenID
  | .FarmToken => contracts.farmsAddresses.map contracts.farmTokenID
  | .LockedAssetToken => [contracts.lockedMEXTokenID]
  | .LockedLpToken => [contracts.wrappedLpTokenID contracts.proxyDexAddress.v1]
  | .LockedFarmToken => [contracts.wrappedFarmTokenID contracts.proxyDexAddress.v1]
  | .LockedLpTokenV2 => [contracts.wrappedLpTokenID contracts.proxyDexAddress.v2]
  | .LockedFarmTokenV2 => [contracts.wrappedFarmTokenID contracts.proxyDexAddress.v2]
  | .StakeFarmToken => contracts.stakingAddresses.map contracts.stakeFarmTokenID
  | .DualYieldToken => contracts.stakingProxyAddresses.map contracts.dualYieldTokenID
  | .RedeemToken => contracts.priceDiscovery.map contracts.redeemTokenID
  | .LockedEsdtToken => contracts.simpleLockAddress.map contracts.lockedTokenID
  | .LockedSimpleLpToken => contracts.simpleLockAddress.map contracts.lpProxyTokenID
  | .LockedSimpleFarmToken => contracts.simpleLockAddress.map contracts.farmProxyTokenID
  | .LockedTokenEnergy => [contracts.lockedTokenEnergy]
  | .WrappedLockedToken => [contracts.wrappedLockedToken]

/-- Whether the list of a kind shows a token. -/
def isOf (kind : Kind) (nft : NftToken) : Bool :=
  (contracts.collections kind.type).contains nft.collection && kind.admits nft

/-- What the one list shows a token as. -/
def kindOf (nft : NftToken) : Option Kind :=
  (getNftTokenTypeRaw contracts nft.collection).map (·.kind nft)

/-- No collection is configured for two types. -/
def OneType : Prop :=
  ∀ tokenID type type', tokenID ∈ contracts.collections type →
    tokenID ∈ contracts.collections type' → type = type'

end Contracts

/-! ### The type that is found -/

section Found

variable {contracts : Contracts} {tokenID : TokenID} {type : NftTokenType}

theorem mem_of_proxyTokenType
    (h : proxyTokenType contracts tokenID contracts.proxyDexAddress.entries = some type) :
    tokenID ∈ contracts.collections type := by
  simp only [ProxyDexAddress.entries, proxyTokenType] at h
  split at h
  next heq => obtain rfl := Option.some.inj h; exact List.mem_singleton.mpr heq
  split at h
  next heq => obtain rfl := Option.some.inj h; exact List.mem_singleton.mpr heq
  split at h
  next heq => obtain rfl := Option.some.inj h; exact List.mem_singleton.mpr heq
  split at h
  next heq => obtain rfl := Option.some.inj h; exact List.mem_singleton.mpr heq
  next => cases h

theorem proxyTokenType_eq_none
    (h : proxyTokenType contracts tokenID contracts.proxyDexAddress.entries = none) :
    (tokenID ≠ contracts.wrappedLpTokenID contracts.proxyDexAddress.v1 ∧
      tokenID ≠ contracts.wrappedFarmTokenID contracts.proxyDexAddress.v1) ∧
    tokenID ≠ contracts.wrappedLpTokenID contracts.proxyDexAddress.v2 ∧
      tokenID ≠ contracts.wrappedFarmTokenID contracts.proxyDexAddress.v2 := by
  simp only [ProxyDexAddress.entries, proxyTokenType] at h
  split at h
  next => cases h
  next hlp =>
    split at h
    next => cases h
    next hfarm =>
      split at h
      next => cases h
      next hlp' =>
        split at h
        next => cases h
        next hfarm' => exact ⟨⟨hlp, hfarm⟩, hlp', hfarm'⟩

/-- Along the loop: what is found is a collection of one of the contracts. -/
theorem exists_of_simpleLockTokenType {simpleLocks : List Address}
    (h : simpleLockTokenType contracts tokenID simpleLocks = some type) :
    ∃ address ∈ simpleLocks,
      (type = .LockedEsdtToken ∧ tokenID = contracts.lockedTokenID address) ∨
      (type = .LockedSimpleLpToken ∧ tokenID = contracts.lpProxyTokenID address) ∨
      (type = .LockedSimpleFarmToken ∧ tokenID = contracts.farmProxyTokenID address) := by
  induction simpleLocks with
  | nil => cases h
  | cons address simpleLocks ih =>
    unfold simpleLockTokenType at h
    split at h
    next heq =>
      exact ⟨address, List.mem_cons_self, Or.inl ⟨(Option.some.inj h).symm, heq⟩⟩
    split at h
    next heq =>
      exact ⟨address, List.mem_cons_self, Or.inr (Or.inl ⟨(Option.some.inj h).symm, heq⟩)⟩
    split at h
    next heq =>
      exact ⟨address, List.mem_cons_self, Or.inr (Or.inr ⟨(Option.some.inj h).symm, heq⟩)⟩
    next =>
      obtain ⟨other, hother, hfound⟩ := ih h
      exact ⟨other, List.mem_cons_of_mem address hother, hfound⟩

theorem mem_of_simpleLockTokenType
    (h : simpleLockTokenType contracts tokenID contracts.simpleLockAddress = some type) :
    tokenID ∈ contracts.collections type := by
  obtain ⟨address, hmem, hfound⟩ := exists_of_simpleLockTokenType h
  rcases hfound with ⟨rfl, heq⟩ | ⟨rfl, heq⟩ | ⟨rfl, heq⟩
  all_goals exact List.mem_map.mpr ⟨address, hmem, heq.symm⟩

theorem simpleLockTokenType_eq_none {simpleLocks : List Address}
    (h : simpleLockTokenType contracts tokenID simpleLocks = none) :
    ∀ address ∈ simpleLocks, tokenID ≠ contracts.lockedTokenID address ∧
      tokenID ≠ contracts.lpProxyTokenID address ∧
        tokenID ≠ contracts.farmProxyTokenID address := by
  induction simpleLocks with
  | nil => exact fun _ h => absurd h List.not_mem_nil
  | cons address simpleLocks ih =>
    unfold simpleLockTokenType at h
    split at h
    next => cases h
    next hlocked =>
      split at h
      next => cases h
      next hlp =>
        split at h
        next => cases h
        next hfarm => exact List.forall_mem_cons.mpr ⟨⟨hlocked, hlp, hfarm⟩, ih h⟩

/-- A `find` of the very thing is true if it is there, and not empty. -/
theorem truthy_find? {tokenIDs : List TokenID} :
    truthy (tokenIDs.find? fun found => found = tokenID) = true ↔
      tokenID ∈ tokenIDs ∧ tokenID ≠ "" := by
  cases hfound : tokenIDs.find? fun found => found = tokenID with
  | none =>
    refine iff_of_false Bool.false_ne_true fun h => ?_
    exact List.find?_eq_none.mp hfound tokenID h.1 (decide_eq_true rfl)
  | some found =>
    have heq := List.find?_some hfound
    obtain rfl := of_decide_eq_true heq
    rw [and_iff_right (List.mem_of_find?_eq_some hfound)]
    exact decide_eq_true_iff

theorem mem_of_listedTokenType (h : listedTokenType contracts tokenID = some type) :
    tokenID ∈ contracts.collections type := by
  unfold listedTokenType at h
  dsimp only at h
  split at h
  next hfarm => obtain rfl := Option.some.inj h; exact (truthy_find?.mp hfarm).1
  split at h
  next hstake => obtain rfl := Option.some.inj h; exact (truthy_find?.mp hstake).1
  split at h
  next hdual => obtain rfl := Option.some.inj h; exact (truthy_find?.mp hdual).1
  split at h
  next hredeem =>
    obtain rfl := Option.some.inj h
    cases hfound : getPriceDiscoveryAddresByRedeemToken contracts tokenID with
    | none =>
      rw [hfound] at hredeem
      cases hredeem
    | some address =>
      unfold getPriceDiscoveryAddresByRedeemToken at hfound
      have heq := List.find?_some hfound
      exact List.mem_map.mpr
        ⟨address, List.mem_of_find?_eq_some hfound, of_decide_eq_true heq⟩
  next => cases h

theorem listedTokenType_eq_none (hne : tokenID ≠ "") (hdiscovery : "" ∉ contracts.priceDiscovery)
    (h : listedTokenType contracts tokenID = none) :
    tokenID ∉ contracts.collections .FarmToken ∧ tokenID ∉ contracts.collections .StakeFarmToken ∧
      tokenID ∉ contracts.collections .DualYieldToken ∧
        tokenID ∉ contracts.collections .RedeemToken := by
  unfold listedTokenType at h
  dsimp only at h
  split at h
  next => cases h
  next hfarm =>
    split at h
    next => cases h
    next hstake =>
      split at h
      next => cases h
      next hdual =>
        split at h
        next => cases h
        next hredeem =>
          refine ⟨fun hmem => hfarm (truthy_find?.mpr ⟨hmem, hne⟩),
            fun hmem => hstake (truthy_find?.mpr ⟨hmem, hne⟩),
            fun hmem => hdual (truthy_find?.mpr ⟨hmem, hne⟩), fun hmem => hredeem ?_⟩
          -- a contract that redeems the token has an address that is not empty
          obtain ⟨address, haddress, heq⟩ := List.mem_map.mp hmem
          cases hfound : getPriceDiscoveryAddresByRedeemToken contracts tokenID with
          | none =>
            exact absurd (decide_eq_true heq) (List.find?_eq_none.mp hfound address haddress)
          | some found =>
            have hfoundMem := List.mem_of_find?_eq_some hfound
            exact decide_eq_true fun hempty => hdiscovery (hempty ▸ hfoundMem)

/-- The type that is found is one that the collection is configured for. -/
theorem mem_of_getNftTokenTypeRaw (h : getNftTokenTypeRaw contracts tokenID = some type) :
    tokenID ∈ contracts.collections type := by
  unfold getNftTokenTypeRaw at h
  split at h
  next heq => obtain rfl := Option.some.inj h; exact List.mem_singleton.mpr heq
  split at h
  next heq => obtain rfl := Option.some.inj h; exact List.mem_singleton.mpr heq
  split at h
  next heq => obtain rfl := Option.some.inj h; exact List.mem_singleton.mpr heq
  next =>
    rcases Option.or_eq_some_iff.mp h with h | ⟨-, h⟩
    · rcases Option.or_eq_some_iff.mp h with h | ⟨-, h⟩
      · exact mem_of_proxyTokenType h
      · exact mem_of_simpleLockTokenType h
    · exact mem_of_listedTokenType h

/-- A collection that is configured for a type is found one. -/
theorem getNftTokenTypeRaw_ne_none (hne : tokenID ≠ "")
    (hdiscovery : "" ∉ contracts.priceDiscovery) (hmem : tokenID ∈ contracts.collections type) :
    getNftTokenTypeRaw contracts tokenID ≠ none := by
  intro h
  unfold getNftTokenTypeRaw at h
  split at h
  next => cases h
  next hasset =>
    split at h
    next => cases h
    next henergy =>
      split at h
      next => cases h
      next hwrapped =>
        -- none of the three places has found a type, so no collection has the token
        obtain ⟨h, hlisted⟩ := Option.or_eq_none_iff.mp h
        obtain ⟨hproxy, hlock⟩ := Option.or_eq_none_iff.mp h
        obtain ⟨⟨hlp1, hfarm1⟩, hlp2, hfarm2⟩ := proxyTokenType_eq_none hproxy
        obtain ⟨hfarm, hstake, hdual, hredeem⟩ := listedTokenType_eq_none hne hdiscovery hlisted
        have hlocks := simpleLockTokenType_eq_none hlock
        cases type with
        | FarmToken => exact hfarm hmem
        | LockedAssetToken => exact hasset (List.mem_singleton.mp hmem)
        | LockedLpToken => exact hlp1 (List.mem_singleton.mp hmem)
        | LockedFarmToken => exact hfarm1 (List.mem_singleton.mp hmem)
        | LockedLpTokenV2 => exact hlp2 (List.mem_singleton.mp hmem)
        | LockedFarmTokenV2 => exact hfarm2 (List.mem_singleton.mp hmem)
        | StakeFarmToken => exact hstake hmem
        | DualYieldToken => exact hdual hmem
        | RedeemToken => exact hredeem hmem
        | LockedEsdtToken =>
          obtain ⟨address, haddress, heq⟩ := List.mem_map.mp hmem
          exact (hlocks address haddress).1 heq.symm
        | LockedSimpleLpToken =>
          obtain ⟨address, haddress, heq⟩ := List.mem_map.mp hmem
          exact (hlocks address haddress).2.1 heq.symm
        | LockedSimpleFarmToken =>
          obtain ⟨address, haddress, heq⟩ := List.mem_map.mp hmem
          exact (hlocks address haddress).2.2 heq.symm
        | LockedTokenEnergy => exact henergy (List.mem_singleton.mp hmem)
        | WrappedLockedToken => exact hwrapped (List.mem_singleton.mp hmem)

end Found

/-- The function finds a kind that the token is of. -/
theorem sorts_kindOf {contracts : Contracts} {nfts : List NftToken}
    (hcollection : ∀ nft ∈ nfts, nft.collection ≠ "")
    (hdiscovery : "" ∉ contracts.priceDiscovery) :
    Kinds.Sorts contracts.isOf contracts.kindOf nfts where
  sound nft _ kind h := by
    obtain ⟨type, htype, rfl⟩ := Option.map_eq_some_iff.mp h
    rw [Contracts.isOf, NftTokenType.kind_type, NftTokenType.admits_kind, Bool.and_true]
    exact List.contains_iff_mem.mpr (mem_of_getNftTokenTypeRaw htype)
  complete nft hnft kind h := by
    have hmem := List.contains_iff_mem.mp (Bool.and_eq_true_iff.mp h).1
    intro hnone
    exact getNftTokenTypeRaw_ne_none (hcollection nft hnft) hdiscovery hmem
      (Option.map_eq_none_iff.mp hnone)

/-! ## The lists and the one list -/

/-- A token, valued as of a kind. -/
def UserMetaEsdtComputeService.value {UserToken : Type}
    (compute : UserMetaEsdtComputeService UserToken) : Kind → NftToken → Option UserToken
  | .ofType .FarmToken => fun nft => compute.farmTokenUSD nft none
  | .ofType .LockedAssetToken => fun nft => some (compute.lockedAssetTokenUSD nft)
  | .ofType .LockedLpToken => compute.lockedLpTokenUSD
  | .ofType .LockedFarmToken => compute.lockedFarmTokenUSD
  | .ofType .LockedLpTokenV2 => compute.lockedLpTokenV2USD
  | .ofType .LockedFarmTokenV2 => compute.lockedFarmTokenV2USD
  | .ofType .StakeFarmToken => fun nft => some (compute.stakeFarmUSD nft)
  | .unbond => fun nft => some (compute.unbondFarmUSD nft)
  | .ofType .DualYieldToken => compute.dualYieldTokenUSD
  | .ofType .RedeemToken => fun nft => some (compute.redeemTokenUSD nft)
  | .ofType .LockedEsdtToken => fun nft => some (compute.lockedEsdtTokenUSD nft)
  | .ofType .LockedSimpleLpToken => fun nft => some (compute.lockedSimpleLpTokenUSD nft)
  | .ofType .LockedSimpleFarmToken => compute.lockedSimpleFarmTokenUSD
  | .ofType .LockedTokenEnergy => fun nft => some (compute.lockedTokenEnergyUSD nft)
  | .ofType .WrappedLockedToken => compute.wrappedLockedTokenEnergyUSD

namespace UserMetaEsdtService

variable {UserToken : Type} (service : UserMetaEsdtService UserToken) (userAddress : Address)
  {pagination : PaginationArgs}

/-- All the user has. -/
def userNFTs : List NftToken := userNfts service.apiService userAddress "MetaESDT" none

/-- The first page, and it holds all the user has. -/
structure OnePage (pagination : PaginationArgs) : Prop where
  offset_eq : pagination.offset = 0
  length_le : (service.userNFTs userAddress).length ≤ pagination.limit

/-- The list of a kind, of all the user has. -/
def listing (kind : Kind) : List UserToken :=
  Kinds.listing service.contracts.isOf service.userComputeService.value
    (service.userNFTs userAddress) kind

variable {service userAddress}

/-- On one page a listing starts from all NFTs of its collections. -/
theorem nftsOf_eq (h : service.OnePage userAddress pagination) (collections : List TokenID) :
    service.nftsOf userAddress pagination collections =
      (service.userNFTs userAddress).filter fun nft => collections.contains nft.collection := by
  rw [nftsOf, getNftsForUser_eq_slice, h.offset_eq]
  apply slice_zero_of_length_le
  have hle : (userNfts service.apiService userAddress "MetaESDT" (some collections)).length ≤
      (service.userNFTs userAddress).length := List.length_filter_le _ _
  have hall := h.length_le
  omega

/-- A listing shows the NFTs of its collections that its kind admits. -/
theorem listing_eq (h : service.OnePage userAddress pagination) (kind : Kind) :
    service.listing userAddress kind =
      ((service.nftsOf userAddress pagination
        (service.contracts.collections kind.type)).filter kind.admits).filterMap
          (service.userComputeService.value kind) := by
  rw [nftsOf_eq h]
  exact Kinds.listing_eq fun nft => rfl

/-- Of a type all tokens of which are shown, those with a value. -/
theorem listing_eq_filterMap (h : service.OnePage userAddress pagination) (type : NftTokenType)
    (hadmits : ∀ nft, (Kind.ofType type).admits nft = true) :
    service.listing userAddress (.ofType type) =
      (service.nftsOf userAddress pagination (service.contracts.collections type)).filterMap
        (service.userComputeService.value (.ofType type)) := by
  rw [listing_eq h, List.filter_eq_self.mpr fun nft _ => hadmits nft]
  rfl

/-- Of a type all tokens of which have a value. -/
theorem listing_eq_map (h : service.OnePage userAddress pagination) (type : NftTokenType)
    (hadmits : ∀ nft, (Kind.ofType type).admits nft = true) {value : NftToken → UserToken}
    (hvalue : service.userComputeService.value (.ofType type) = fun nft => some (value nft)) :
    service.listing userAddress (.ofType type) =
      (service.nftsOf userAddress pagination (service.contracts.collections type)).map value := by
  rw [listing_eq_filterMap h type hadmits, hvalue, List.filterMap_eq_map']

/-- The fifteen lists are those of the kinds. -/
theorem listings_eq (h : service.OnePage userAddress pagination) :
    service.listings userAddress pagination = Kind.all.map (service.listing userAddress) := by
  unfold listings Kind.all
  simp only [List.map_cons, List.map_nil, List.cons.injEq, and_true]
  refine ⟨?_, ?_, ?_, ?_, ?_, ?_, ?_, ?_, ?_, ?_, ?_, ?_, ?_, ?_, ?_⟩
  · exact (listing_eq_map h .LockedAssetToken (fun _ => rfl) rfl).symm
  · exact (listing_eq_filterMap h .FarmToken fun _ => rfl).symm
  · rw [listing_eq_filterMap h .LockedLpToken fun _ => rfl, getUserLockedLpTokens,
      List.filterMap_map]
    rfl
  · exact (listing_eq_filterMap h .LockedFarmToken fun _ => rfl).symm
  · rw [listing_eq_filterMap h .LockedLpTokenV2 fun _ => rfl, getUserLockedLpTokensV2,
      List.filterMap_map]
    rfl
  · exact (listing_eq_filterMap h .LockedFarmTokenV2 fun _ => rfl).symm
  -- the two lists that share their collections
  · rw [listing_eq h, getUserStakeFarmTokens, ← List.filterMap_eq_map']
    rfl
  · rw [listing_eq h, getUserUnbondFarmTokens, ← List.filterMap_eq_map']
    rfl
  · exact (listing_eq_filterMap h .DualYieldToken fun _ => rfl).symm
  · exact (listing_eq_map h .RedeemToken (fun _ => rfl) rfl).symm
  · exact (listing_eq_map h .LockedEsdtToken (fun _ => rfl) rfl).symm
  · exact (listing_eq_map h .LockedSimpleLpToken (fun _ => rfl) rfl).symm
  · exact (listing_eq_filterMap h .LockedSimpleFarmToken fun _ => rfl).symm
  · exact (listing_eq_map h .LockedTokenEnergy (fun _ => rfl) rfl).symm
  · exact (listing_eq_filterMap h .WrappedLockedToken fun _ => rfl).symm

/-- What the loop of the one list pushes is the token as the kind that is found. -/
theorem filterMap_userNftToken (nft : NftToken) :
    (service.userNftToken nft).filterMap id =
      ((service.contracts.kindOf nft).bind fun kind =>
        service.userComputeService.value kind nft).toList := by
  have hpushed : ∀ value : Option UserToken, [value].filterMap id = value.toList := by
    intro value
    cases value <;> rfl
  unfold userNftToken Contracts.kindOf
  cases getNftTokenTypeRaw service.contracts nft.collection with
  | none => rfl
  | some type =>
    rw [Option.map_some, Option.bind_some]
    cases type with
    | StakeFarmToken =>
      by_cases hunbond : nft.attributes.length = stakingUnbondAttributesLen
      · simp [NftTokenType.kind, isUnbond, hunbond, UserMetaEsdtComputeService.value]
      · simp [NftTokenType.kind, isUnbond, hunbond, UserMetaEsdtComputeService.value]
    | LockedAssetToken | RedeemToken | LockedEsdtToken | LockedSimpleLpToken
    | LockedTokenEnergy => rfl
    | FarmToken | LockedLpToken | LockedFarmToken | LockedLpTokenV2 | LockedFarmTokenV2
    | DualYieldToken | LockedSimpleFarmToken | WrappedLockedToken =>
      exact hpushed _

/-- All listings together are those of the kinds. -/
theorem nfts_eq (h : service.OnePage userAddress pagination) :
    service.nfts userAddress pagination =
      Kinds.together service.contracts.kindOf service.userComputeService.value
        (service.userNFTs userAddress) := by
  have hpage : getNftsForUser service.apiService userAddress pagination.offset pagination.limit
      "MetaESDT" none = service.userNFTs userAddress := by
    rw [getNftsForUser_eq_slice, h.offset_eq]
    exact slice_zero_of_length_le h.length_le
  rw [nfts, getAllNftTokens, Option.getD_none, hpage, List.filterMap_flatMap]
  exact Kinds.together_eq_flatMap filterMap_userNftToken

variable (service userAddress) in
/-- What is shown as a kind other than the one that is found. -/
def shownAgain : List UserToken :=
  Kinds.shownAgain service.contracts.isOf service.contracts.kindOf
    service.userComputeService.value (service.userNFTs userAddress) Kind.all

/-- With collections of one type nothing is shown twice. -/
theorem shownAgain_eq_nil (hcollection : ∀ nft ∈ service.userNFTs userAddress, nft.collection ≠ "")
    (hdiscovery : "" ∉ service.contracts.priceDiscovery) (hone : service.contracts.OneType) :
    service.shownAgain userAddress = [] := by
  refine Kinds.shownAgain_eq_nil (sorts_kindOf hcollection hdiscovery) _ _ ?_
  intro nft _ kind kind' h h'
  obtain ⟨hmem, hadmits⟩ := Bool.and_eq_true_iff.mp h
  obtain ⟨hmem', hadmits'⟩ := Bool.and_eq_true_iff.mp h'
  have htype : kind.type = kind'.type :=
    hone nft.collection _ _ (List.contains_iff_mem.mp hmem) (List.contains_iff_mem.mp hmem')
  exact Kind.eq_of_admits htype hadmits hadmits'

end UserMetaEsdtService

/-! ## Six tokens -/

section Sample

/-- If every collection is found as what it is configured for, it is for nothing else. -/
theorem Contracts.oneType_of_found {contracts : Contracts}
    (h : ∀ type, ∀ tokenID ∈ contracts.collections type,
      getNftTokenTypeRaw contracts tokenID = some type) : contracts.OneType := by
  intro tokenID type type' hmem hmem'
  exact Option.some.inj ((h type tokenID hmem).symm.trans (h type' tokenID hmem'))

/-- Two farms, a staking farm with its proxy, a simple lock and a price discovery. -/
def sampleContracts (stakeFarmTokenID : TokenID) : Contracts where
  lockedMEXTokenID := "LKMEX-1"
  lockedTokenEnergy := "XMEX-1"
  wrappedLockedToken := "WXMEX-1"
  proxyDexAddress := ⟨"erd1proxy1", "erd1proxy2"⟩
  wrappedLpTokenID := fun address => if address = "erd1proxy1" then "LKLP-1" else "LKLP-2"
  wrappedFarmTokenID := fun address => if address = "erd1proxy1" then "LKFARM-1" else "LKFARM-2"
  simpleLockAddress := ["erd1lock"]
  lockedTokenID := fun _ => "LK-1"
  lpProxyTokenID := fun _ => "LPPROXY-1"
  farmProxyTokenID := fun _ => "FARMPROXY-1"
  farmsAddresses := ["erd1farm1", "erd1farm2"]
  farmTokenID := fun address => if address = "erd1farm1" then "FARM-1" else "FARM-2"
  stakingAddresses := ["erd1staking"]
  stakeFarmTokenID := fun _ => stakeFarmTokenID
  stakingProxyAddresses := ["erd1stakingproxy"]
  dualYieldTokenID := fun _ => "METASTAKE-1"
  priceDiscovery := ["erd1discovery"]
  redeemTokenID := fun _ => "REDEEM-1"

/-- A token is valued as its kind and itself; those of one collection have no value. -/
def sampleCompute : UserMetaEsdtComputeService (String × String) where
  farmToken := fun _ nft => some ("farm", nft.identifier)
  lockedAssetTokenUSD := fun nft => ("locked asset", nft.identifier)
  lockedLpTokenUSD := fun nft => some ("locked LP", nft.identifier)
  lockedFarmTokenUSD := fun nft => some ("locked farm", nft.identifier)
  lockedLpTokenV2USD := fun _ => none
  lockedFarmTokenV2USD := fun nft => some ("locked farm V2", nft.identifier)
  stakeFarmUSD := fun nft => ("stake farm", nft.identifier)
  unbondFarmUSD := fun nft => ("unbond farm", nft.identifier)
  dualYieldTokenUSD := fun nft => some ("dual yield", nft.identifier)
  redeemTokenUSD := fun nft => ("redeem", nft.identifier)
  lockedEsdtTokenUSD := fun nft => ("locked", nft.identifier)
  lockedSimpleLpTokenUSD := fun nft => ("locked simple LP", nft.identifier)
  lockedSimpleFarmTokenUSD := fun nft => some ("locked simple farm", nft.identifier)
  lockedTokenEnergyUSD := fun nft => ("energy", nft.identifier)
  wrappedLockedTokenEnergyUSD := fun nft => some ("wrapped energy", nft.identifier)

/-- Of the two tokens of the staking farm one is being unbonded; one token is of a
collection that no contract has. -/
def sampleNfts : List NftToken :=
  [⟨"FARM-2-01", "FARM-2", 18, "AAAAAAAAAAA=", 1⟩, ⟨"STAKE-1-05", "STAKE-1", 18, "AAAAAAA=", 2⟩,
    ⟨"STAKE-1-06", "STAKE-1", 18, "AAAAAAAAAAA=", 2⟩, ⟨"LKLP-2-01", "LKLP-2", 18, "", 3⟩,
    ⟨"OTHER-1-01", "OTHER-1", 18, "", 4⟩, ⟨"FARM-1-09", "FARM-1", 18, "AAAA", 5⟩]

def sampleService (stakeFarmTokenID : TokenID) : UserMetaEsdtService (String × String) where
  contracts := sampleContracts stakeFarmTokenID
  userComputeService := sampleCompute
  apiService := ⟨fun _ _ => sampleNfts, fun _ => 18⟩

end Sample

end MxExchange.User.NftTokens
