import Mathlib.Data.List.Basic

/-!
# Trees of combined nodes

Nodes are combined two by two, level by level, until one is left; a node
without a partner moves up as it is. What proves that a node is in the first
level are its partners on the way up, and whoever combines the node with them
gets to the root (`foldl_proofFrom`). On which side a partner stands does not
matter if combining is commutative.
-/

namespace MxExchange.Collections.HashTree

variable {Node : Type} (combine : Node → Node → Node)

/-- Nodes are combined two by two; one that is left over moves up as it is. -/
def nextLayer : List Node → List Node
  | x :: y :: nodes => combine x y :: nextLayer nodes
  | [x] => [x]
  | [] => []

/-- The level and those above it. The number bounds the levels. -/
def layersWithin : ℕ → List Node → List (List Node)
  | 0, nodes => [nodes]
  | n + 1, nodes =>
    if nodes.length ≤ 1 then [nodes] else nodes :: layersWithin n (nextLayer combine nodes)

/-- All layers, the leaves first. -/
def layers (leaves : List Node) : List (List Node) := layersWithin combine leaves.length leaves

/-- The only node of the last layer. -/
def root (layers : List (List Node)) : Option Node := layers.getLast?.bind List.head?

/-- The index of the sibling. -/
def pairIndex (index : ℕ) : ℕ := if index % 2 = 1 then index - 1 else index + 1

/-- The partners on the way up from a place in the first level. -/
def proofFrom : List (List Node) → ℕ → List Node
  | [], _ => []
  | layer :: layers, index =>
    (layer[pairIndex index]?).toList ++ proofFrom layers (index / 2)

/-- The two nodes below the root. -/
def topPair (layers : List (List Node)) : Option (Node × Node) :=
  match layers.dropLast.getLast? with
  | some [x, y] => some (x, y)
  | _ => none

/-! ## One level -/

variable {combine}

/-- A layer has half as many nodes as the one below, rounded up. -/
theorem length_nextLayer : ∀ nodes : List Node,
    (nextLayer combine nodes).length = (nodes.length + 1) / 2
  | [] => by simp [nextLayer]
  | [_] => by simp [nextLayer]
  | x :: y :: nodes => by
    rw [nextLayer, List.length_cons, length_nextLayer nodes, List.length_cons, List.length_cons]
    omega

theorem pairIndex_add_two (index : ℕ) : pairIndex (index + 2) = pairIndex index + 2 := by
  unfold pairIndex
  rw [Nat.add_mod_right]
  split <;> omega

/-- A node combined with its partner is a node of the next level. -/
theorem getElem?_nextLayer (hcomm : ∀ x y, combine x y = combine y x) :
    ∀ (nodes : List Node) (index : ℕ) (x : Node), nodes[index]? = some x →
      (nextLayer combine nodes)[index / 2]? =
        some ((nodes[pairIndex index]?).toList.foldl combine x)
  | [], index, x, h => absurd h (by simp)
  | [y], index, x, h => by
    obtain ⟨hlt, rfl⟩ := List.getElem?_eq_some_iff.mp h
    obtain rfl : index = 0 := by simpa using hlt
    rfl
  | y :: z :: nodes, 0, x, h => by
    obtain rfl := Option.some.inj h
    rfl
  | y :: z :: nodes, 1, x, h => by
    obtain rfl := Option.some.inj h
    exact congrArg some (hcomm y z)
  | y :: z :: nodes, index + 2, x, h => by
    have hrest := getElem?_nextLayer hcomm nodes index x h
    rw [pairIndex_add_two, show (index + 2) / 2 = index / 2 + 1 by omega]
    exact hrest

/-! ## All levels -/

theorem layersWithin_ne_nil (n : ℕ) (nodes : List Node) : layersWithin combine n nodes ≠ [] := by
  cases n with
  | zero => exact List.cons_ne_nil _ _
  | succ n =>
    unfold layersWithin
    split <;> exact List.cons_ne_nil _ _

/-- The first layer is the leaves. -/
theorem headD_layers (leaves : List Node) : (layers combine leaves).headD [] = leaves := by
  unfold layers
  cases leaves.length with
  | zero => rfl
  | succ n =>
    unfold layersWithin
    split <;> rfl

/-- A layer more at the bottom does not change the root. -/
theorem root_cons (layer : List Node) {layers : List (List Node)} (h : layers ≠ []) :
    root (layer :: layers) = root layers := by
  unfold root
  rw [List.getLast?_cons_of_ne_nil h]

/-- A single node is the root, and there is nothing to combine it with. -/
theorem foldl_proofFrom_single {nodes : List Node} (hone : nodes.length ≤ 1) {index : ℕ} {x : Node}
    (h : nodes[index]? = some x) :
    root [nodes] = some ((proofFrom [nodes] index).foldl combine x) := by
  obtain ⟨hlt, rfl⟩ := List.getElem?_eq_some_iff.mp h
  obtain ⟨y, rfl⟩ := List.length_eq_one_iff.mp (by omega : nodes.length = 1)
  obtain rfl : index = 0 := by simpa using hlt
  rfl

/-- Combining a leaf with its siblings, layer by layer, leads to the root. -/
theorem foldl_proofFrom_layersWithin (hcomm : ∀ x y, combine x y = combine y x) {n : ℕ}
    {nodes : List Node} (hn : nodes.length ≤ n + 1) {index : ℕ} {x : Node}
    (h : nodes[index]? = some x) :
    root (layersWithin combine n nodes) =
      some ((proofFrom (layersWithin combine n nodes) index).foldl combine x) := by
  induction n generalizing nodes index x with
  | zero => exact foldl_proofFrom_single (by omega) h
  | succ n ih =>
    unfold layersWithin
    split
    next hone => exact foldl_proofFrom_single hone h
    next hmore =>
      -- a level has half the nodes, so the bound on the levels is kept
      have hlength : (nextLayer combine nodes).length = (nodes.length + 1) / 2 :=
        length_nextLayer nodes
      rw [root_cons _ (layersWithin_ne_nil _ _), proofFrom, List.foldl_append]
      exact ih (by omega) (getElem?_nextLayer hcomm nodes index x h)

/-- The way up from any node leads to the root. -/
theorem foldl_proofFrom (hcomm : ∀ x y, combine x y = combine y x) {leaves : List Node} {index : ℕ}
    {leaf : Node} (h : leaves[index]? = some leaf) :
    root (layers combine leaves) =
      some ((proofFrom (layers combine leaves) index).foldl combine leaf) :=
  foldl_proofFrom_layersWithin hcomm (Nat.le_succ _) h

/-- What holds of leaves and of all that is combined holds of every layer. -/
theorem forall_mem_nextLayer {P : Node → Prop} (hcombine : ∀ x y, P (combine x y)) :
    ∀ nodes : List Node, (∀ node ∈ nodes, P node) → ∀ node ∈ nextLayer combine nodes, P node
  | [], h => h
  | [_], h => h
  | x :: y :: nodes, h => by
    have hrest := forall_mem_nextLayer hcombine nodes fun node hnode =>
      h node (List.mem_cons_of_mem _ (List.mem_cons_of_mem _ hnode))
    exact List.forall_mem_cons.mpr ⟨hcombine x y, hrest⟩

/-- What holds of the leaves and of all combined nodes holds of every node. -/
theorem forall_mem_layers {P : Node → Prop} (hcombine : ∀ x y, P (combine x y))
    {leaves : List Node} (hleaves : ∀ leaf ∈ leaves, P leaf) :
    ∀ layer ∈ layers combine leaves, ∀ node ∈ layer, P node := by
  unfold layers
  generalize leaves.length = n
  induction n generalizing leaves with
  | zero => exact fun layer hlayer => List.mem_singleton.mp hlayer ▸ hleaves
  | succ n ih =>
    unfold layersWithin
    split
    next => exact fun layer hlayer => List.mem_singleton.mp hlayer ▸ hleaves
    next =>
      intro layer hlayer
      rcases List.mem_cons.mp hlayer with rfl | hlater
      · exact hleaves
      · exact ih (forall_mem_nextLayer hcombine leaves hleaves) layer hlater

/-! ## The root -/

/-- The two nodes below the root are a layer. -/
theorem mem_of_topPair {levels : List (List Node)} {x y : Node} (h : topPair levels = some (x, y)) :
    [x, y] ∈ levels := by
  unfold topPair at h
  split at h
  next hlast =>
    cases h
    exact List.dropLast_subset _ (List.mem_of_getLast? hlast)
  next => exact absurd h (by simp)

/-- Of two leaves or more the root is combined from the two nodes below it,
which are a level of their own. -/
theorem exists_topPair_layersWithin {n : ℕ} {nodes : List Node} (hn : nodes.length ≤ n + 1)
    (htwo : 2 ≤ nodes.length) :
    ∃ x y, topPair (layersWithin combine n nodes) = some (x, y) ∧
      root (layersWithin combine n nodes) = some (combine x y) ∧
      [x, y] ∈ layersWithin combine n nodes := by
  induction n generalizing nodes with
  | zero => omega
  | succ n ih =>
    have hlength : (nextLayer combine nodes).length = (nodes.length + 1) / 2 :=
      length_nextLayer nodes
    unfold layersWithin
    rw [if_neg (by omega), root_cons _ (layersWithin_ne_nil _ _)]
    by_cases hmore : 2 ≤ (nextLayer combine nodes).length
    · obtain ⟨x, y, htop, hroot, hmem⟩ := ih (by omega) hmore
      refine ⟨x, y, ?_, hroot, List.mem_cons_of_mem _ hmem⟩
      have hne : (layersWithin combine n (nextLayer combine nodes)).dropLast ≠ [] := by
        intro hnil
        unfold topPair at htop
        rw [hnil] at htop
        exact absurd htop (by simp)
      unfold topPair at htop ⊢
      rw [List.dropLast_cons_of_ne_nil (layersWithin_ne_nil _ _), List.getLast?_cons_of_ne_nil hne]
      exact htop
    · -- this is the level below the root
      obtain ⟨x, y, rfl⟩ := List.length_eq_two.mp (by omega : nodes.length = 2)
      have hlast : layersWithin combine n (nextLayer combine [x, y]) = [[combine x y]] := by
        cases n <;> rfl
      rw [hlast]
      exact ⟨x, y, rfl, rfl, List.mem_cons_self⟩

/-- A tree of two leaves or more has two nodes below its root. -/
theorem exists_topPair {leaves : List Node} (htwo : 2 ≤ leaves.length) :
    ∃ x y, topPair (layers combine leaves) = some (x, y) ∧
      root (layers combine leaves) = some (combine x y) ∧ [x, y] ∈ layers combine leaves :=
  exists_topPair_layersWithin (Nat.le_succ _) htwo

end MxExchange.Collections.HashTree
