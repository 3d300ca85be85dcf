import Mathlib.Data.List.Count
import Mathlib.Data.List.Nodup
import Mathlib.Data.List.Perm.Subperm
import Mathlib.Algebra.BigOperators.Group.List.Basic
import Mathlib.Tactic.Ring

/-!
# Simple paths of a multigraph

A multigraph is given by its neighbour lists: `adj u` lists a neighbour once
for every edge leading to it, in some order. `simplePaths` enumerates the
paths from a node to `dest` that visit no node twice and none of `seen`, one
entry per choice of edges, in the order a depth-first search meets them.

The enumeration is exactly the simple paths. Everything in it is one
(`simplePaths_sound`), and a simple path occurs as often as the product over
its hops of the number of parallel edges (`count_simplePaths`), which is at
least once. The fuel bounds the length of a path, and a finite set of nodes
that contains every neighbour makes it irrelevant once it exceeds the number
of nodes not seen yet (`simplePaths_fuel`).
-/

namespace MxExchange.Collections

variable {V : Type}

/-- The consecutive pairs of a list. -/
def hops : List V → List (V × V)
  | u :: v :: rest => (u, v) :: hops (v :: rest)
  | _ => []

/-- The hop at a position leads from the element there to the next one. -/
theorem getElem?_hops {l : List V} {i : ℕ} {u v : V} :
    (hops l)[i]? = some (u, v) ↔ l[i]? = some u ∧ l[i + 1]? = some v := by
  induction l generalizing i with
  | nil => simp [hops]
  | cons x rest ih =>
    cases rest with
    | nil => simp [hops]
    | cons y rest =>
      cases i with
      | zero => simp [hops]
      | succ i => simpa [hops] using ih (i := i)

/-- The hops are the neighbours in the list. -/
theorem mem_hops_iff {l : List V} {u v : V} :
    (u, v) ∈ hops l ↔ ∃ pre post, l = pre ++ u :: v :: post := by
  constructor
  · intro h
    induction l with
    | nil => simp [hops] at h
    | cons x rest ih =>
      cases rest with
      | nil => simp [hops] at h
      | cons y rest =>
        rcases List.mem_cons.mp h with heq | h'
        · obtain ⟨rfl, rfl⟩ := Prod.mk.inj heq
          exact ⟨[], rest, rfl⟩
        · obtain ⟨pre, post, hsplit⟩ := ih h'
          exact ⟨x :: pre, post, by rw [hsplit, List.cons_append]⟩
  · rintro ⟨pre, post, rfl⟩
    induction pre with
    | nil => simp [hops]
    | cons x pre ih =>
      cases pre with
      | nil => simp [hops]
      | cons y pre => exact List.mem_cons_of_mem _ ih

/-- There is a hop fewer than there are vertices. -/
theorem length_hops (l : List V) : (hops l).length = l.length - 1 := by
  induction l with
  | nil => rfl
  | cons x rest ih =>
    cases rest with
    | nil => rfl
    | cons y rest => simpa [hops] using ih

variable [DecidableEq V]

/-- The simple paths from `node` to `dest` that avoid `seen`. -/
def simplePaths (adj : V → List V) (dest : V) : ℕ → List V → V → List (List V)
  | 0, _, _ => []
  | fuel + 1, seen, node =>
    if node = dest then [[node]]
    else (adj node).flatMap fun v =>
      if v ∈ node :: seen then []
      else (simplePaths adj dest fuel (node :: seen) v).map (node :: ·)

/-- A path from `node` to `dest` along edges, without a repeated node. -/
structure IsSimplePath (adj : V → List V) (node dest : V) (p : List V) : Prop where
  head : p.head? = some node
  last : p.getLast? = some dest
  nodup : p.Nodup
  edges : ∀ e ∈ hops p, e.2 ∈ adj e.1

/-- In how many ways the edges of a path can be chosen. -/
def hopCount (adj : V → List V) (p : List V) : ℕ :=
  ((hops p).map fun e => (adj e.1).count e.2).prod

theorem hopCount_cons_cons (adj : V → List V) (u v : V) (rest : List V) :
    hopCount adj (u :: v :: rest) = (adj u).count v * hopCount adj (v :: rest) := rfl

/-- A path ends where the destination is reached. -/
theorem simplePaths_dest (adj : V → List V) (dest : V) (fuel : ℕ) (seen : List V) :
    simplePaths adj dest (fuel + 1) seen dest = [[dest]] := by
  rw [simplePaths, if_pos rfl]

/-- Before that, it goes on through each vertex that has not been seen. -/
theorem simplePaths_step (adj : V → List V) {dest node : V} (fuel : ℕ) (seen : List V)
    (h : node ≠ dest) :
    simplePaths adj dest (fuel + 1) seen node = (adj node).flatMap fun v =>
      if v ∈ node :: seen then []
      else (simplePaths adj dest fuel (node :: seen) v).map (node :: ·) := by
  rw [simplePaths, if_neg h]

/-- Two searches that agree below the neighbours not seen yet. -/
theorem flatMap_unseen_congr {β : Type} {l seen : List V} {f g : V → List β}
    (h : ∀ v ∈ l, v ∉ seen → f v = g v) :
    (l.flatMap fun v => if v ∈ seen then [] else f v) =
      l.flatMap fun v => if v ∈ seen then [] else g v := by
  apply List.flatMap_congr
  intro v hv
  by_cases hs : v ∈ seen
  · rw [if_pos hs, if_pos hs]
  · rw [if_neg hs, if_neg hs, h v hv hs]

/-- Every enumerated path starts at the node it was asked for. -/
theorem simplePaths_head {adj : V → List V} {dest node : V} {fuel : ℕ} {seen p : List V}
    (h : p ∈ simplePaths adj dest fuel seen node) : ∃ rest, p = node :: rest := by
  cases fuel with
  | zero => simp [simplePaths] at h
  | succ fuel =>
    by_cases hd : node = dest
    · subst hd
      rw [simplePaths_dest, List.mem_singleton] at h
      exact ⟨[], h⟩
    · rw [simplePaths_step _ _ _ hd] at h
      obtain ⟨v, -, hv⟩ := List.mem_flatMap.mp h
      by_cases hs : v ∈ node :: seen
      · simp [hs] at hv
      · rw [if_neg hs] at hv
        obtain ⟨q, -, rfl⟩ := List.mem_map.mp hv
        exact ⟨q, rfl⟩

/-! ## Soundness -/

/-- Every enumerated list is a simple path and meets none of `seen`. -/
theorem simplePaths_sound {adj : V → List V} {dest : V} :
    ∀ (fuel : ℕ) {seen : List V} {node : V} {p : List V}, node ∉ seen →
      p ∈ simplePaths adj dest fuel seen node →
      IsSimplePath adj node dest p ∧ ∀ x ∈ p, x ∉ seen := by
  intro fuel
  induction fuel with
  | zero => intro seen node p _ h; simp [simplePaths] at h
  | succ fuel ih =>
    intro seen node p hnode h
    by_cases hd : node = dest
    · subst hd
      rw [simplePaths_dest, List.mem_singleton] at h
      subst h
      refine ⟨⟨rfl, rfl, List.nodup_singleton _, ?_⟩, ?_⟩
      · intro e he
        exact absurd he (by simp [hops])
      · intro x hx
        rw [List.mem_singleton.mp hx]
        exact hnode
    · rw [simplePaths_step _ _ _ hd] at h
      obtain ⟨v, hadj, hv⟩ := List.mem_flatMap.mp h
      by_cases hs : v ∈ node :: seen
      · simp [hs] at hv
      · rw [if_neg hs] at hv
        obtain ⟨q, hq, rfl⟩ := List.mem_map.mp hv
        obtain ⟨hpath, havoid⟩ := ih hs hq
        obtain ⟨rest, rfl⟩ := simplePaths_head hq
        -- the path of the neighbour avoids what has been seen, so `node` can be put in
        -- front of it
        refine ⟨⟨rfl, ?_, ?_, ?_⟩, ?_⟩
        · rw [List.getLast?_cons_cons]
          exact hpath.last
        · rw [List.nodup_cons]
          exact ⟨fun hmem => havoid node hmem (List.mem_cons_self ..), hpath.nodup⟩
        · intro e he
          rcases List.mem_cons.mp he with rfl | he'
          · exact hadj
          · exact hpath.edges e he'
        · intro x hx
          rcases List.mem_cons.mp hx with rfl | hx'
          · exact hnode
          · exact fun hmem => havoid x hx' (List.mem_cons_of_mem _ hmem)

/-! ## Multiplicity -/

/-- Counting in a `flatMap` whose branches only contain lists with their own
second node: the branches of that node are the ones that matter. -/
private theorem count_flatMap_of_head {l : List V} {f : V → List (List V)} {q : List V} {w : V}
    {n : ℕ} (hw : (f w).count q = n) (hne : ∀ v ∈ l, v ≠ w → (f v).count q = 0) :
    (l.flatMap f).count q = l.count w * n := by
  induction l with
  | nil => simp
  | cons v l ih =>
    rw [List.flatMap_cons, List.count_append,
      ih (fun x hx => hne x (List.mem_cons_of_mem _ hx))]
    by_cases hv : v = w
    · subst hv
      rw [hw, List.count_cons_self]
      ring
    · rw [hne v (List.mem_cons_self ..) hv, List.count_cons_of_ne hv, Nat.zero_add]

/-- A list that starts with `node` is as frequent among the paths through
`node` as its tail is among the continuations. -/
private theorem count_map_cons (node : V) (q : List V) (l : List (List V)) :
    (l.map (node :: ·)).count (node :: q) = l.count q :=
  List.count_map_of_injective l (node :: ·) (fun _ _ h => (List.cons.inj h).2) q

/-- A simple path that avoids `seen` and fits the fuel occurs once for every
choice of parallel edges. -/
theorem count_simplePaths {adj : V → List V} {dest : V} :
    ∀ (fuel : ℕ) {seen : List V} {node : V} {rest : List V},
      (node :: rest).getLast? = some dest → (node :: rest).Nodup →
      (∀ x ∈ node :: rest, x ∉ seen) → (node :: rest).length ≤ fuel →
      (simplePaths adj dest fuel seen node).count (node :: rest) = hopCount adj (node :: rest) := by
  intro fuel
  induction fuel with
  | zero => intro seen node rest _ _ _ hlen; simp at hlen
  | succ fuel ih =>
    intro seen node rest hlast hnd havoid hlen
    cases rest with
    | nil =>
      have hd : node = dest := by simpa using hlast
      subst hd
      rw [simplePaths_dest]
      simp [hopCount, hops]
    | cons w rest =>
      have hnode : node ∉ w :: rest := (List.nodup_cons.mp hnd).1
      have hd : node ≠ dest := by
        rintro rfl
        rw [List.getLast?_cons_cons] at hlast
        exact hnode (List.mem_of_getLast? hlast)
      rw [simplePaths_step _ _ _ hd, hopCount_cons_cons]
      apply count_flatMap_of_head
      · -- the branch through `w`: the tail is a simple path from `w` avoiding `node`
        have hw : w ∉ node :: seen := by
          intro hmem
          rcases List.mem_cons.mp hmem with rfl | hmem'
          · exact hnode (List.mem_cons_self ..)
          · exact havoid w (by simp) hmem'
        rw [if_neg hw, count_map_cons]
        apply ih
        · rwa [List.getLast?_cons_cons] at hlast
        · exact (List.nodup_cons.mp hnd).2
        · intro x hx hmem
          rcases List.mem_cons.mp hmem with rfl | hmem'
          · exact hnode hx
          · exact havoid x (List.mem_cons_of_mem _ hx) hmem'
        · simpa using hlen
      · -- any other branch continues with a different node
        intro v _ hv
        split
        next => rfl
        next =>
          rw [count_map_cons, List.count_eq_zero]
          intro hmem
          obtain ⟨r, hr⟩ := simplePaths_head hmem
          exact hv (List.cons.inj hr).1.symm

/-! ## Further edges -/

/-- Edges that come after the others and that no path uses make no
difference, not even to the order. -/
theorem simplePaths_further {adj adj' extra : V → List V} {dest : V}
    (hadj : ∀ u, adj' u = adj u ++ extra u) :
    ∀ (fuel : ℕ) {seen : List V} {node : V},
      (∀ p ∈ simplePaths adj' dest fuel seen node, ∀ e ∈ hops p, e.2 ∉ extra e.1) →
      simplePaths adj' dest fuel seen node = simplePaths adj dest fuel seen node := by
  intro fuel
  induction fuel with
  | zero => intro seen node _; rfl
  | succ fuel ih =>
    intro seen node hunused
    by_cases hd : node = dest
    · subst hd
      rw [simplePaths_dest, simplePaths_dest]
    · -- what a neighbour contributes is a path of the whole
      have hbranch : ∀ v ∈ adj' node, v ∉ node :: seen →
          ∀ q ∈ simplePaths adj' dest fuel (node :: seen) v,
          v ∉ extra node ∧ ∀ e ∈ hops q, e.2 ∉ extra e.1 := by
        intro v hv hs q hq
        have hmem : node :: q ∈ simplePaths adj' dest (fuel + 1) seen node := by
          rw [simplePaths_step _ _ _ hd]
          refine List.mem_flatMap.mpr ⟨v, hv, ?_⟩
          rw [if_neg hs]
          exact List.mem_map_of_mem hq
        obtain ⟨rest, rfl⟩ := simplePaths_head hq
        refine ⟨hunused _ hmem (node, v) (by simp [hops]), ?_⟩
        exact fun e he => hunused _ hmem e (List.mem_cons_of_mem _ he)
      rw [hadj] at hbranch
      rw [simplePaths_step _ _ _ hd, simplePaths_step _ _ _ hd, hadj, List.flatMap_append]
      have hextra : ((extra node).flatMap fun v => if v ∈ node :: seen then []
          else (simplePaths adj' dest fuel (node :: seen) v).map (node :: ·)) = [] := by
        rw [List.flatMap_eq_nil_iff]
        -- a path through an extra edge would use it, which no path of the whole does
        intro v hv
        by_cases hs : v ∈ node :: seen
        · rw [if_pos hs]
        · rw [if_neg hs, List.map_eq_nil_iff, List.eq_nil_iff_forall_not_mem]
          intro q hq
          exact (hbranch v (List.mem_append_right _ hv) hs q hq).1 hv
      rw [hextra, List.append_nil]
      refine flatMap_unseen_congr fun v hv hs => ?_
      rw [ih fun q hq => (hbranch v (List.mem_append_left _ hv) hs q hq).2]

/-! ## Fuel -/

/-- The nodes of `K` a search at `node` has not met yet. -/
def unseen (K seen : List V) (node : V) : ℕ := (K.filter (· ∉ node :: seen)).length

/-- Each step leaves fewer vertices unseen, so fuel for all of them is enough.
-/
theorem unseen_lt {K seen : List V} {node v : V} (hK : v ∈ K) (hv : v ∉ node :: seen) :
    unseen K (node :: seen) v < unseen K seen node := by
  unfold unseen
  have hsplit : K.filter (· ∉ v :: node :: seen)
      = (K.filter (· ∉ node :: seen)).filter (· ≠ v) := by
    rw [List.filter_filter]
    apply List.filter_congr
    intro x _
    by_cases hx : x = v <;> simp [hx]
  rw [hsplit]
  apply List.length_filter_lt_length_iff_exists.mpr
  exact ⟨v, List.mem_filter.mpr ⟨hK, by simpa using hv⟩, by simp⟩

theorem unseen_nil_le (K : List V) (node : V) : unseen K [] node ≤ K.length :=
  List.length_filter_le _ _

/-- More fuel than nodes left to meet makes no difference. -/
theorem simplePaths_fuel {adj : V → List V} {dest : V} {K : List V}
    (hK : ∀ u, ∀ v ∈ adj u, v ∈ K) :
    ∀ (fuel fuel' : ℕ) {seen : List V} {node : V},
      unseen K seen node < fuel → unseen K seen node < fuel' →
      simplePaths adj dest fuel seen node = simplePaths adj dest fuel' seen node := by
  intro fuel
  induction fuel with
  | zero => intro fuel' seen node h; exact absurd h (by omega)
  | succ fuel ih =>
    intro fuel' seen node h h'
    cases fuel' with
    | zero => exact absurd h' (by omega)
    | succ fuel' =>
      by_cases hd : node = dest
      · subst hd
        rw [simplePaths_dest, simplePaths_dest]
      · rw [simplePaths_step _ _ _ hd, simplePaths_step _ _ _ hd]
        refine flatMap_unseen_congr fun v hv hs => ?_
        have hlt := unseen_lt (hK node v hv) hs
        rw [ih fuel' (by omega) (by omega)]

omit [DecidableEq V] in
/-- A simple path inside `K` is no longer than `K` has nodes. -/
theorem length_le_of_simple {K : List V} {p : List V} (hnd : p.Nodup) (hK : ∀ x ∈ p, x ∈ K) :
    p.length ≤ K.length :=
  (hnd.subperm hK).length_le

end MxExchange.Collections
