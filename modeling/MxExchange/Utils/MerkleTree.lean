import Mathlib.Data.Nat.Digits.Lemmas
import Mathlib.Data.Set.Function
import MxExchange.Collections.HashTree
import MxExchange.Escrow.EscrowAbi
import MxExchange.Text.Sha256

/-!
# `markle-tree.utils.ts`: leaves of voting power

A leaf is the hash of an address and a balance, one after the other, and the
nodes above are the hashes of the two below them, the smaller one first. The
address has 32 bytes and the balance as many as it needs. Nothing marks what
is hashed for a leaf or for a node: a leaf with the smaller node below the
root for its address and the larger one for its balance has the root for its
hash. It is no leaf of the tree, so its proof is empty, and it is verified.

That is the only way: a leaf that is verified is one of the tree's, or stands
for the two nodes below the root (`verifyProof_iff`), as long as no two byte
strings that occur have the same hash. A balance of fewer than 32 bytes cannot
do so (`verifyProof_of_balance_lt`).
-/

namespace MxExchange.Utils.MerkleTree

open MxExchange.Collections MxExchange.Text
open Escrow (PublicKey)

deriving instance DecidableEq for PublicKey

/-- A leaf; the balances of a snapshot are positive. -/
structure AddressVotingPower where
  address : PublicKey
  balance : ℕ
  balance_pos : 0 < balance
  deriving DecidableEq

/-! ## `merkletreejs`, with sorted pairs -/

/-- `Buffer.compare`. -/
def bufferCompare : List Byte → List Byte → Ordering
  | [], [] => .eq
  | [], _ :: _ => .lt
  | _ :: _, [] => .gt
  | x :: xs, y :: ys =>
    match compare x y with
    | .eq => bufferCompare xs ys
    | order => order

/-- The two nodes, the smaller one first. -/
def sortPair (x y : List Byte) : List Byte := if bufferCompare x y = .gt then y ++ x else x ++ y

/-- With sorted pairs the order of two nodes does not matter. -/
def hashPair (x y : List Byte) : List Byte := sha256 (sortPair x y)

/-- The last place of a leaf, as the library looks for it. -/
def lastIndexOf (leaf : List Byte) (leaves : List (List Byte)) : Option ℕ :=
  leaves.zipIdx.foldl (fun index node => if node.1 = leaf then some node.2 else index) none

/-- No proof for what is not a leaf. -/
def getProof (layers : List (List (List Byte))) (leaf : List Byte) : List (List Byte) :=
  match lastIndexOf leaf (layers.headD []) with
  | none => []
  | some index => HashTree.proofFrom layers index

/-- The proof is hashed onto the node, up to the root. -/
def verify (proof : List (List Byte)) (targetNode root : List Byte) : Bool :=
  proof.foldl hashPair targetNode = root

/-! ## `MerkleTreeUtils` -/

/-- The address, and the balance in as many bytes as it has, the highest first. -/
def leafBytes (x : AddressVotingPower) : List Byte :=
  x.address.bytes ++ (Nat.digits 256 x.balance).reverse

/-- Nothing marks a leaf as one before it is hashed. -/
def encodeLeaf (x : AddressVotingPower) : List Byte := sha256 (leafBytes x)

/-- The leaves keep their order. -/
def tree (leaves : List AddressVotingPower) : List (List (List Byte)) :=
  HashTree.layers hashPair (leaves.map encodeLeaf)

/-- The root is empty for no leaves. -/
def getRoot (leaves : List AddressVotingPower) : List Byte :=
  (HashTree.root (tree leaves)).getD []

/-- `verifyProof`, on one leaf. -/
def verifyProof (leaves : List AddressVotingPower) (leaf : AddressVotingPower) : Bool :=
  let root := getRoot leaves
  let leafHash := encodeLeaf leaf
  let proof := getProof (tree leaves) leafHash
  verify proof leafHash root

/-! ## What is hashed -/

/-- The byte strings that are hashed for a level. -/
def pairsOf : List (List Byte) → List (List Byte)
  | x :: y :: nodes => sortPair x y :: pairsOf nodes
  | _ => []

/-- The byte strings that are hashed for the tree and a leaf. -/
def hashed (leaves : List AddressVotingPower) (leaf : AddressVotingPower) : List (List Byte) :=
  leafBytes leaf :: (leaves.map leafBytes ++ (tree leaves).flatMap pairsOf)

/-- What is hashed for the root, if there are two leaves or more. -/
def rootBytes (leaves : List AddressVotingPower) : Option (List Byte) :=
  (HashTree.topPair (tree leaves)).map fun pair => sortPair pair.1 pair.2

/-! ## Pairs -/

/-- Turned around the comparison is the other one. -/
theorem bufferCompare_swap (x y : List Byte) : bufferCompare y x = (bufferCompare x y).swap := by
  induction x generalizing y with
  | nil => cases y <;> rfl
  | cons a x ih =>
    cases y with
    | nil => rfl
    | cons b y =>
      -- the first bytes decide, unless they are equal
      have hswap : compare b a = (compare a b).swap := (Nat.compare_swap a b).symm
      unfold bufferCompare
      rw [hswap]
      cases compare a b with
      | eq => exact ih y
      | lt => rfl
      | gt => rfl

/-- Only equal buffers compare as equal. -/
theorem eq_of_bufferCompare {x y : List Byte} (h : bufferCompare x y = .eq) : x = y := by
  induction x generalizing y with
  | nil =>
    cases y with
    | nil => rfl
    | cons b y => exact absurd h (by simp [bufferCompare])
  | cons a x ih =>
    cases y with
    | nil => exact absurd h (by simp [bufferCompare])
    | cons b y =>
      unfold bufferCompare at h
      cases hab : compare a b with
      | eq =>
        rw [hab] at h
        rw [Nat.compare_eq_eq.mp hab, ih h]
      | lt =>
        rw [hab] at h
        exact absurd h (by simp)
      | gt =>
        rw [hab] at h
        exact absurd h (by simp)

theorem sortPair_comm (x y : List Byte) : sortPair x y = sortPair y x := by
  unfold sortPair
  rw [bufferCompare_swap x y]
  cases h : bufferCompare x y with
  | eq => rw [eq_of_bufferCompare h, ite_self, ite_self]
  | lt => rfl
  | gt => rfl

theorem hashPair_comm (x y : List Byte) : hashPair x y = hashPair y x :=
  congrArg sha256 (sortPair_comm x y)

/-! ## Leaves -/

/-- The bytes say where the address ends, and both parts can be read. -/
theorem leafBytes_injective : Function.Injective leafBytes := by
  intro x y h
  obtain ⟨haddress, hbalance⟩ := List.append_inj h
    (x.address.length_eq.trans y.address.length_eq.symm)
  obtain ⟨⟨bytes, hlength, hlt⟩, balance, hpos⟩ := x
  obtain ⟨⟨bytes', hlength', hlt'⟩, balance', hpos'⟩ := y
  obtain rfl : bytes = bytes' := haddress
  obtain rfl : balance = balance' := Nat.digits_inj_iff.mp (List.reverse_inj.mp hbalance)
  rfl

/-- Where a leaf is found it is, and where it is it is found. -/
theorem lastIndexOf_spec (leaf : List Byte) (leaves : List (List Byte)) :
    match lastIndexOf leaf leaves with
    | none => leaf ∉ leaves
    | some index => leaves[index]? = some leaf := by
  unfold lastIndexOf
  induction leaves using List.reverseRecOn with
  | nil => exact List.not_mem_nil
  | append_singleton leaves node ih =>
    rw [List.zipIdx_append, List.foldl_append]
    simp only [List.zipIdx_singleton, List.foldl_cons, List.foldl_nil, Nat.zero_add]
    by_cases h : node = leaf
    · rw [if_pos h]
      simp [h]
    · -- another node leaves the place as it was
      rw [if_neg h]
      generalize hfound : leaves.zipIdx.foldl (fun index node =>
        if node.1 = leaf then some node.2 else index) none = found at ih ⊢
      cases found with
      | none =>
        intro hmem
        rcases List.mem_append.mp hmem with hold | hnew
        · exact ih hold
        · exact h (List.mem_singleton.mp hnew).symm
      | some index =>
        have hindex : leaves[index]? = some leaf := ih
        obtain ⟨hlt, -⟩ := List.getElem?_eq_some_iff.mp hindex
        show (leaves ++ [node])[index]? = some leaf
        rw [List.getElem?_append_left hlt, hindex]

/-! ## What is verified -/

section Verified

variable {leaves : List AddressVotingPower} {leaf : AddressVotingPower}

theorem headD_tree (leaves : List AddressVotingPower) :
    (tree leaves).headD [] = leaves.map encodeLeaf := HashTree.headD_layers _

/-- A hash among those of the leaves has a proof. -/
theorem verifyProof_of_mem (h : encodeLeaf leaf ∈ leaves.map encodeLeaf) :
    verifyProof leaves leaf = true := by
  have hspec := lastIndexOf_spec (encodeLeaf leaf) (leaves.map encodeLeaf)
  cases hindex : lastIndexOf (encodeLeaf leaf) (leaves.map encodeLeaf) with
  | none =>
    rw [hindex] at hspec
    exact absurd h hspec
  | some index =>
    rw [hindex] at hspec
    have hproof : getProof (tree leaves) (encodeLeaf leaf) =
        HashTree.proofFrom (tree leaves) index := by
      unfold getProof
      rw [headD_tree, hindex]
    have hroot := HashTree.foldl_proofFrom hashPair_comm hspec
    refine decide_eq_true ?_
    rw [hproof]
    exact (congrArg (fun root => root.getD []) hroot).symm

/-- Any other hash is compared with the root. -/
theorem verifyProof_of_not_mem (h : encodeLeaf leaf ∉ leaves.map encodeLeaf) :
    verifyProof leaves leaf = true ↔ encodeLeaf leaf = getRoot leaves := by
  have hspec := lastIndexOf_spec (encodeLeaf leaf) (leaves.map encodeLeaf)
  cases hindex : lastIndexOf (encodeLeaf leaf) (leaves.map encodeLeaf) with
  | none =>
    have hproof : getProof (tree leaves) (encodeLeaf leaf) = [] := by
      unfold getProof
      rw [headD_tree, hindex]
    have hverify : verifyProof leaves leaf = verify [] (encodeLeaf leaf) (getRoot leaves) :=
      congrArg (fun proof => verify proof _ _) hproof
    rw [hverify]
    exact decide_eq_true_iff
  | some index =>
    rw [hindex] at hspec
    exact absurd (List.mem_of_getElem? hspec) h

/-- The root is the hash of the only leaf, or of the two nodes below it. -/
theorem getRoot_cases (hne : leaves ≠ []) :
    (∃ only, leaves = [only] ∧ rootBytes leaves = none ∧ getRoot leaves = encodeLeaf only) ∨
      ∃ bytes, rootBytes leaves = some bytes ∧ getRoot leaves = sha256 bytes ∧
        ∀ leaf, bytes ∈ hashed leaves leaf := by
  by_cases htwo : 2 ≤ leaves.length
  · right
    have hhashes : 2 ≤ (leaves.map encodeLeaf).length := by rwa [List.length_map]
    obtain ⟨x, y, htop, hroot, hmem⟩ := @HashTree.exists_topPair _ hashPair _ hhashes
    refine ⟨sortPair x y, ?_, ?_, fun leaf => ?_⟩
    · unfold rootBytes tree
      rw [htop]
      rfl
    · unfold getRoot tree
      rw [hroot]
      rfl
    · refine List.mem_cons_of_mem _ (List.mem_append_right _ ?_)
      exact List.mem_flatMap.mpr ⟨[x, y], hmem, List.mem_cons_self⟩
  · left
    have hpos := List.length_pos_iff.mpr hne
    obtain ⟨only, rfl⟩ := List.length_eq_one_iff.mp (by omega : leaves.length = 1)
    exact ⟨only, rfl, rfl, rfl⟩

/-- What is hashed for the root are two hashes. -/
theorem length_of_rootBytes {bytes : List Byte} (h : rootBytes leaves = some bytes) :
    bytes.length = 64 := by
  obtain ⟨⟨x, y⟩, htop, rfl⟩ := Option.map_eq_some_iff.mp h
  have hhashes : ∀ hash ∈ leaves.map encodeLeaf, hash.length = 32 := by
    intro hash hmem
    obtain ⟨leaf, -, rfl⟩ := List.mem_map.mp hmem
    exact length_sha256 _
  have hnodes := HashTree.forall_mem_layers (P := fun node => node.length = 32)
    (fun x y => length_sha256 (sortPair x y)) hhashes [x, y] (HashTree.mem_of_topPair htop)
  have hx := hnodes x List.mem_cons_self
  have hy := hnodes y (List.mem_cons_of_mem _ List.mem_cons_self)
  dsimp only at hx hy ⊢
  unfold sortPair
  split <;> rw [List.length_append, hx, hy]

/-- Leaves of one digest are equal, as nothing that is hashed collides. -/
theorem mem_of_encodeLeaf (hinj : Set.InjOn sha256 {bytes | bytes ∈ hashed leaves leaf})
    (h : encodeLeaf leaf ∈ leaves.map encodeLeaf) : leaf ∈ leaves := by
  obtain ⟨other, hother, heq⟩ := List.mem_map.mp h
  have hmem : leafBytes other ∈ hashed leaves leaf :=
    List.mem_cons_of_mem _ (List.mem_append_left _ (List.mem_map_of_mem hother))
  rw [← leafBytes_injective (hinj hmem List.mem_cons_self heq)]
  exact hother

/-- A leaf is verified if it is one of the tree's, or if its bytes are those that
are hashed for the root. -/
theorem verifyProof_eq_true (hne : leaves ≠ [])
    (hinj : Set.InjOn sha256 {bytes | bytes ∈ hashed leaves leaf}) :
    verifyProof leaves leaf = true ↔ leaf ∈ leaves ∨ rootBytes leaves = some (leafBytes leaf) := by
  by_cases hmem : leaf ∈ leaves
  · exact iff_of_true (verifyProof_of_mem (List.mem_map_of_mem hmem)) (Or.inl hmem)
  have hhash : encodeLeaf leaf ∉ leaves.map encodeLeaf := fun h => hmem (mem_of_encodeLeaf hinj h)
  rw [verifyProof_of_not_mem hhash, or_iff_right hmem]
  rcases getRoot_cases hne with ⟨only, rfl, hnone, hroot⟩ | ⟨bytes, hsome, hroot, hin⟩
  · -- the only leaf has another hash
    rw [hnone, hroot]
    refine iff_of_false (fun heq => hhash ?_) (by simp)
    rw [heq]
    exact List.mem_singleton_self _
  · -- its hash is that of the two nodes below the root
    rw [hsome, hroot, Option.some.injEq]
    refine ⟨fun heq => ?_, fun heq => congrArg sha256 heq.symm⟩
    exact (hinj List.mem_cons_self (hin leaf) heq).symm

/-- A balance that takes fewer bytes than a hash cannot be forged. -/
theorem verifyProof_of_balance_lt (hne : leaves ≠ [])
    (hinj : Set.InjOn sha256 {bytes | bytes ∈ hashed leaves leaf})
    (hbalance : leaf.balance < 256 ^ 31) :
    verifyProof leaves leaf = true ↔ leaf ∈ leaves := by
  rw [verifyProof_eq_true hne hinj, or_iff_left]
  intro hroot
  have hlength := length_of_rootBytes hroot
  have hdigits := (Nat.digits_length_le_iff (by decide) _).mpr hbalance
  have haddress := leaf.address.length_eq
  unfold leafBytes at hlength
  rw [List.length_append, List.length_reverse] at hlength
  omega

end Verified

/-- A leaf is verified just in case it is one of the tree's, unless its bytes
are those that are hashed for the root. -/
theorem verifyProof_iff (leaves : List AddressVotingPower) (hne : leaves ≠ [])
    (leaf : AddressVotingPower) (hinj : Set.InjOn sha256 {bytes | bytes ∈ hashed leaves leaf}) :
    (verifyProof leaves leaf = true ↔ leaf ∈ leaves) ↔
      leaf ∈ leaves ∨ rootBytes leaves ≠ some (leafBytes leaf) := by
  rw [verifyProof_eq_true hne hinj]
  by_cases hmem : leaf ∈ leaves
  · exact iff_of_true (iff_of_true (Or.inl hmem) hmem) (Or.inl hmem)
  · rw [or_iff_right hmem, or_iff_right hmem, iff_false_right hmem]

/-! ## A forged leaf -/

/-- The leaves of the first test. -/
def testLeaves : List AddressVotingPower :=
  [{ address := ⟨[131, 97, 246, 124, 204, 76, 230, 159, 138, 85, 87, 207, 129, 15, 19, 64, 34, 105,
        72, 86, 144, 98, 52, 115, 245, 90, 237, 171, 205, 99, 168, 27], rfl, by decide⟩
     balance := 1
     balance_pos := Nat.one_pos },
    { address := ⟨[186, 134, 111, 48, 10, 46, 213, 174, 45, 227, 189, 13, 80, 79, 114, 178, 154, 88,
        147, 28, 176, 99, 25, 126, 61, 91, 235, 251, 247, 50, 21, 208], rfl, by decide⟩
      balance := 2
      balance_pos := Nat.two_pos }]

/-- The second leaf's hash for the address, and the first one's as a number. -/
def forged : AddressVotingPower where
  address := ⟨[166, 181, 194, 219, 146, 172, 156, 230, 142, 70, 51, 171, 14, 192, 186, 94, 179, 157,
    189, 221, 240, 8, 1, 49, 60, 178, 203, 178, 183, 190, 17, 2], rfl, by decide⟩
  balance := 107993905572071938036117646121858532968946601154119935391926674733153548878575
  balance_pos := by decide

theorem verifyProof_iff_test :
    (verifyProof testLeaves forged = true ↔ forged ∈ testLeaves) ↔
      forged ∈ testLeaves ∨ rootBytes testLeaves ≠ some (leafBytes forged) :=
  verifyProof_iff testLeaves (by decide) forged (by
    have hinj : ∀ x ∈ hashed testLeaves forged, ∀ y ∈ hashed testLeaves forged,
        sha256 x = sha256 y → x = y := by decide +kernel
    exact fun x hx y hy h => hinj x hx y hy h)

/-- It is verified. -/
theorem verifyProof_forged : verifyProof testLeaves forged = true ∧ forged ∉ testLeaves := by
  decide +kernel

end MxExchange.Utils.MerkleTree
