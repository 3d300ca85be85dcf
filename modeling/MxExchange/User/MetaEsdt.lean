import MxExchange.Collections.Pages
import MxExchange.Pair.PairUtils

/-!
# A user's NFTs in pages

`ContextGetterService.getNftsForUser` fetches all NFTs of a type the user
has, keeps those of some collections if it is given any, and cuts a page out
of what is left: `slice(from, size)`. The second argument of `slice` is an
index, not a size, so a page after the first has no element, and a listing
such as `getUserLockedAssetTokens` shows the first page and no more
(`lists_nftsForUser_iff`). The other listings of the service, of pairs or of
tokens, write `offset + limit` there.
-/

namespace MxExchange.User

open MxExchange.Num MxExchange.Pair MxExchange.Collections

/-- The fields that are looked at here. -/
structure NftToken where
  identifier : String
  collection : String
  decimals : ℕ
  attributes : String
  balance : ℕ
  deriving DecidableEq

/-- What the API lists for a user and a type, and the decimals the gateway
knows a collection by. -/
structure MXApiService where
  nfts : Address → String → List NftToken
  collectionDecimals : String → ℕ

/-- The API knows the collection, as far as its decimals say. -/
def isNftCollectionValid (nft : NftToken) : Bool := nft.decimals ≠ 0

/-- An NFT without decimals gets those of its collection. -/
def MXApiService.getNftsForUser (apiService : MXApiService) (address : Address) (type : String) :
    List NftToken :=
  (apiService.nfts address type).map fun nft =>
    if isNftCollectionValid nft then nft
    else { nft with decimals := apiService.collectionDecimals nft.collection }

/-- `ContextGetterService.getNftsForUser`; `offset` is its `from`. -/
def getNftsForUser (apiService : MXApiService) (address : Address) (offset size : ℤ)
    (type : String) (collections : Option (List String)) : List NftToken :=
  let nfts := apiService.getNftsForUser address type
  match collections with
  | some collections =>
    slice (nfts.filter fun nft => collections.contains nft.collection) offset size
  | none => slice nfts offset size

/-- The NFTs a listing is about: all, or those of the collections. -/
def userNfts (apiService : MXApiService) (address : Address) (type : String)
    (collections : Option (List String)) : List NftToken :=
  match collections with
  | some collections => (apiService.getNftsForUser address type).filter fun nft =>
      collections.contains nft.collection
  | none => apiService.getNftsForUser address type

/-! ## Locked assets -/

/-- `PaginationArgs`. -/
structure PaginationArgs where
  offset : ℤ
  limit : ℤ

/-- What a locked asset is valued with: the token it is of, its price in
dollars, and the decoded attributes. -/
structure LockedAssetEnv (Attributes : Type) where
  lockedTokenID : TokenID
  assetTokenID : TokenID
  tokenPriceDerivedUSD : TokenID → BigNumber
  decodeLockedAssetAttributes : String → String → Attributes

/-- A locked asset as the listing shows it. -/
structure UserLockedAssetToken (Attributes : Type) where
  nft : NftToken
  valueUSD : BigNumber
  decodedAttributes : Attributes

/-- The amount in whole tokens, times the price. -/
def computeValueUSD (amount decimals : ℕ) (priceUSD : BigNumber) : BigNumber :=
  ((BigNumber.ofNat amount).multipliedBy (.fin (1 / 10 ^ decimals))).multipliedBy priceUSD

/-- A locked token is worth what its asset is worth. -/
def lockedAssetTokenUSD {Attributes : Type} (env : LockedAssetEnv Attributes) (nft : NftToken) :
    UserLockedAssetToken Attributes where
  nft := nft
  valueUSD :=
    computeValueUSD nft.balance nft.decimals (env.tokenPriceDerivedUSD env.assetTokenID)
  decodedAttributes := env.decodeLockedAssetAttributes nft.identifier nft.attributes

/-- The page of the locked assets: the fields of the pagination are passed on as
`from` and `size`. -/
def getUserLockedAssetTokens {Attributes : Type} (apiService : MXApiService)
    (env : LockedAssetEnv Attributes) (userAddress : Address) (pagination : PaginationArgs) :
    List (UserLockedAssetToken Attributes) :=
  (getNftsForUser apiService userAddress pagination.offset pagination.limit "MetaESDT"
    (some [env.lockedTokenID])).map (lockedAssetTokenUSD env)

/-! ## The pages -/

section Pages

variable {Attributes : Type} (apiService : MXApiService) (address : Address) (type : String)
  (collections : Option (List String)) (env : LockedAssetEnv Attributes) {n : ℕ}

/-- Both branches cut the same list. -/
theorem getNftsForUser_eq_slice (offset size : ℤ) :
    getNftsForUser apiService address offset size type collections =
      slice (userNfts apiService address type collections) offset size := by
  unfold getNftsForUser userNfts
  cases collections <;> rfl

/-- Page `k` of the user's NFTs, and of the user's locked assets. -/
def nftsPage (n k : ℕ) : List NftToken :=
  getNftsForUser apiService address ((k * n : ℕ) : ℤ) n type collections

def lockedAssetsPage (n k : ℕ) : List (UserLockedAssetToken Attributes) :=
  getUserLockedAssetTokens apiService env address
    { offset := ((k * n : ℕ) : ℤ)
      limit := n }

/-- A page is a slice that ends at the size, not at the offset and the size. -/
theorem nftsPage_eq (n k : ℕ) : nftsPage apiService address type collections n k =
    slice (userNfts apiService address type collections) ((k * n : ℕ) : ℤ) n :=
  getNftsForUser_eq_slice apiService address type collections _ _

theorem lockedAssetsPage_eq (n k : ℕ) : lockedAssetsPage apiService address env n k =
    slice ((userNfts apiService address "MetaESDT" (some [env.lockedTokenID])).map
      (lockedAssetTokenUSD env)) ((k * n : ℕ) : ℤ) n := by
  rw [lockedAssetsPage, getUserLockedAssetTokens, getNftsForUser_eq_slice, slice_map]

/-- **The pages of a user's NFTs.** They list what the user has of the
collections exactly if that is no more than one page, and the pages of the
locked assets likewise. -/
theorem lists_nftsForUser_iff (hn : 1 ≤ n) :
    (Lists (nftsPage apiService address type collections n) n
        (userNfts apiService address type collections) ↔
      (userNfts apiService address type collections).length ≤ n) ∧
    (Lists (lockedAssetsPage apiService address env n) n
        ((userNfts apiService address "MetaESDT" (some [env.lockedTokenID])).map
          (lockedAssetTokenUSD env)) ↔
      (userNfts apiService address "MetaESDT" (some [env.lockedTokenID])).length ≤ n) := by
  constructor
  · rw [funext (nftsPage_eq apiService address type collections n)]
    exact lists_slice_limit_iff hn _
  · rw [funext (lockedAssetsPage_eq apiService address env n), lists_slice_limit_iff hn,
      List.length_map]

end Pages

/-! ## Three locked assets, two on a page -/

private def lockedAsset (identifier : String) : NftToken where
  identifier := identifier
  collection := "LKMEX-aab910"
  decimals := 18
  attributes := ""
  balance := 1000

private def threeAssets : MXApiService where
  nfts := fun _ _ =>
    [lockedAsset "LKMEX-aab910-01", lockedAsset "LKMEX-aab910-02", lockedAsset "LKMEX-aab910-03"]
  collectionDecimals := fun _ => 18

private def mexPrice : LockedAssetEnv Unit where
  lockedTokenID := "LKMEX-aab910"
  assetTokenID := "MEX-455c57"
  tokenPriceDerivedUSD := fun _ => .fin 1
  decodeLockedAssetAttributes := fun _ _ => ()

/-- On pages of three they are all shown. -/
theorem lists_three_assets :
    Lists (nftsPage threeAssets "erd1user" "MetaESDT" (some ["LKMEX-aab910"]) 3) 3
      (userNfts threeAssets "erd1user" "MetaESDT" (some ["LKMEX-aab910"])) :=
  (lists_nftsForUser_iff threeAssets "erd1user" "MetaESDT" (some ["LKMEX-aab910"]) mexPrice
    (by decide)).1.mpr (by decide)

/-- On pages of two the third is on none of them. -/
theorem third_asset_on_no_page :
    ¬Lists (nftsPage threeAssets "erd1user" "MetaESDT" (some ["LKMEX-aab910"]) 2) 2
      (userNfts threeAssets "erd1user" "MetaESDT" (some ["LKMEX-aab910"])) := by
  intro h
  exact absurd (h.flatMap 2 (by decide)) (by decide)

end MxExchange.User
