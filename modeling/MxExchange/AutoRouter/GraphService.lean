import MxExchange.Pair.PairUtils
import MxExchange.Collections.JsMap
import MxExchange.Collections.SimplePaths
import Mathlib.Algebra.Order.BigOperators.GroupWithZero.List

/-!
# `graph.service.ts`: path enumeration

The router's token graph has an edge in both directions for every pair, and
`getAllPaths` enumerates the paths between two tokens by depth-first search.
The search shares three mutable objects between all its calls: the map of
visited tokens, the path walked so far and the list of results. They are the
fields of `Search`, threaded through the recursion; running out of fuel is
`none`.

`getAllPathsUtil_eq` is the whole argument: from a state in which exactly
the tokens of the path are marked, a call appends the simple paths that
avoid them and leaves the map and the path as it found them. The map is
literally the same afterwards because a value written back in place is no
change, and the path because the token spliced out is the last one: it
occurs nowhere before.

With that, the library facts about `simplePaths` read as facts about
`getAllPaths`: `getAllPaths_spec` says the search terminates and returns
exactly the simple token paths, each as often as its hops can be chosen.
-/

namespace MxExchange.AutoRouter

open MxExchange.Pair MxExchange.Collections

/-! ## The graph -/

/-- The graph of tokens, with an edge for each pair and direction. -/
structure GraphService where
  adjList : JsMap TokenID (List TokenID)

/-- A token is added at its first edge; parallel edges stay apart. -/
def addEdge (adjList : JsMap TokenID (List TokenID)) (u v : TokenID) :
    JsMap TokenID (List TokenID) :=
  match JsMap.get adjList u with
  | none => JsMap.set adjList u [v]
  | some node => JsMap.set adjList u (node ++ [v])

/-- Both directions of one pair. -/
def addPair (adjList : JsMap TokenID (List TokenID)) (pair : PairModel) :
    JsMap TokenID (List TokenID) :=
  addEdge (addEdge adjList pair.firstToken.identifier pair.secondToken.identifier)
    pair.secondToken.identifier pair.firstToken.identifier

/-- The constructor. -/
def GraphService.new (pairs : List PairModel) : GraphService := ⟨pairs.foldl addPair []⟩

/-- The neighbour list of a token, empty for a token the graph does not have. -/
def neighbours (adjList : JsMap TokenID (List TokenID)) (u : TokenID) : List TokenID :=
  (JsMap.get adjList u).getD []

/-! ## The search -/

/-- What the calls of the search share. -/
structure Search where
  isVisited : JsMap TokenID Bool
  localPathList : List TokenID
  paths : List (List TokenID)
  deriving DecidableEq

/-- `list.splice(list.indexOf(x), 1)`. For an absent `x` the index is `-1`,
which splices out the last element. -/
def spliceIndexOf (list : List TokenID) (x : TokenID) : List TokenID :=
  if x ∈ list then list.erase x else list.dropLast

/-- The body of the loop over the neighbours, around the recursive call. -/
def visitAdjNode (recurse : TokenID → Search → Option Search) (st : Search)
    (adjNode : TokenID) : Option Search :=
  if JsMap.get st.isVisited adjNode = some false then
    (recurse adjNode { st with localPathList := st.localPathList ++ [adjNode] }).map fun st' =>
      { st' with localPathList := spliceIndexOf st'.localPathList adjNode }
  else some st

/-- The recursive search, with fuel for its depth. What it has found and which
tokens it has visited is its state. -/
def getAllPathsUtil (adjList : JsMap TokenID (List TokenID)) (destination : TokenID) :
    ℕ → TokenID → Search → Option Search
  | 0, _, _ => none
  | fuel + 1, node, st =>
    -- this early return comes before the token is marked
    if node = destination then some { st with paths := st.paths ++ [st.localPathList] }
    else
      let st := { st with isVisited := JsMap.set st.isVisited node true }
      match JsMap.get adjList node with
      -- and this one leaves it marked
      | none => some st
      | some adjNodes =>
        (adjNodes.foldlM (visitAdjNode (getAllPathsUtil adjList destination fuel)) st).map
          fun st' => { st' with isVisited := JsMap.set st'.isVisited node false }

/-- The search with an explicit bound on its depth. -/
def GraphService.getAllPathsFuel (g : GraphService) (fuel : ℕ) (source destination : TokenID) :
    Option (List (List TokenID)) :=
  let isVisited := (JsMap.keys g.adjList).foldl (fun m v => JsMap.set m v false) []
  (getAllPathsUtil g.adjList destination fuel source ⟨isVisited, [source], []⟩).map (·.paths)

/-- `getAllPaths`. The depth is bounded by the number of tokens; that the
bound is never reached is `getAllPathsFuel_eq`. -/
def GraphService.getAllPaths (g : GraphService) (source destination : TokenID) :
    List (List TokenID) :=
  (g.getAllPathsFuel ((JsMap.keys g.adjList).length + 1) source destination).getD []

/-! ## Neighbour lists of a built graph -/

/-- An edge more at its start, and nothing else. -/
theorem neighbours_addEdge (m : JsMap TokenID (List TokenID)) (u v w : TokenID) :
    neighbours (addEdge m u v) w = if w = u then neighbours m u ++ [v] else neighbours m w := by
  unfold addEdge neighbours
  cases hu : JsMap.get m u with
  | none =>
    rw [JsMap.get_set]
    by_cases h : w = u <;> simp [h]
  | some node =>
    dsimp only
    rw [JsMap.get_set]
    by_cases h : w = u <;> simp [h]

/-- Only the start of an edge becomes a vertex by it. -/
theorem mem_keys_addEdge {m : JsMap TokenID (List TokenID)} {u v x : TokenID} :
    x ∈ JsMap.keys (addEdge m u v) ↔ x = u ∨ x ∈ JsMap.keys m := by
  unfold addEdge
  split <;> rw [JsMap.mem_keys_set]

/-- Between two different tokens a pair adds one neighbour if it trades them. -/
theorem count_neighbours_addPair (m : JsMap TokenID (List TokenID)) (pair : PairModel)
    {u v : TokenID} (h : u ≠ v) :
    (neighbours (addPair m pair) u).count v
      = (neighbours m u).count v + if trades u v pair then 1 else 0 := by
  have hedge : ∀ (m : JsMap TokenID (List TokenID)) (a b : TokenID),
      (neighbours (addEdge m a b) u).count v
        = (neighbours m u).count v + if u = a ∧ v = b then 1 else 0 := by
    intro m a b
    rw [neighbours_addEdge]
    by_cases hu : u = a
    · subst hu
      by_cases hv : v = b
      · simp [hv]
      · have : b ≠ v := fun e => hv e.symm
        simp [hv, List.count_append, this]
    · simp [hu]
  rw [addPair, hedge, hedge, Nat.add_assoc]
  congr 1
  by_cases h1 : u = pair.firstToken.identifier ∧ v = pair.secondToken.identifier
  · have h2 : ¬(u = pair.secondToken.identifier ∧ v = pair.firstToken.identifier) :=
      fun h2 => h (h2.1.trans h1.2.symm)
    have ht : trades u v pair = true := decide_eq_true (Or.inl h1)
    rw [if_pos h1, if_neg h2, if_pos ht]
  · by_cases h2 : u = pair.secondToken.identifier ∧ v = pair.firstToken.identifier
    · have ht : trades u v pair = true := decide_eq_true (Or.inr h2)
      rw [if_neg h1, if_pos h2, if_pos ht]
    · have ht : ¬trades u v pair = true := fun ht => (of_decide_eq_true ht).elim h1 h2
      rw [if_neg h1, if_neg h2, if_neg ht]

/-- A token is listed as a neighbour once for every pair that trades the two. -/
theorem count_neighbours (pairs : List PairModel) {u v : TokenID} (h : u ≠ v) :
    (neighbours (GraphService.new pairs).adjList u).count v = pairs.countP (trades u v) := by
  have hfold : ∀ (ps : List PairModel) (m : JsMap TokenID (List TokenID)),
      (neighbours (ps.foldl addPair m) u).count v
        = (neighbours m u).count v + ps.countP (trades u v) := by
    intro ps
    induction ps with
    | nil => intro m; simp
    | cons pair ps ih =>
      intro m
      rw [List.foldl_cons, ih, count_neighbours_addPair m pair h, List.countP_cons]
      omega
  have h0 := hfold pairs []
  rw [show neighbours [] u = [] from rfl, List.count_nil, Nat.zero_add] at h0
  exact h0

/-- Every neighbour is itself a token of the graph. -/
theorem mem_keys_of_mem_neighbours (pairs : List PairModel) {u v : TokenID}
    (h : v ∈ neighbours (GraphService.new pairs).adjList u) :
    v ∈ JsMap.keys (GraphService.new pairs).adjList := by
  have hfold : ∀ (ps : List PairModel) (m : JsMap TokenID (List TokenID)),
      (∀ u, ∀ v ∈ neighbours m u, v ∈ JsMap.keys m) →
      ∀ u, ∀ v ∈ neighbours (ps.foldl addPair m) u, v ∈ JsMap.keys (ps.foldl addPair m) := by
    intro ps
    induction ps with
    | nil => intro m hm; exact hm
    | cons pair ps ih =>
      intro m hm
      rw [List.foldl_cons]
      apply ih
      -- the two edges of a pair add each other's endpoint as a key
      intro u v hv
      rw [addPair, mem_keys_addEdge, mem_keys_addEdge]
      rw [addPair, neighbours_addEdge] at hv
      have hinner : ∀ w, v ∈ neighbours
          (addEdge m pair.firstToken.identifier pair.secondToken.identifier) w →
          v = pair.secondToken.identifier ∨ v ∈ JsMap.keys m := by
        intro w hw
        rw [neighbours_addEdge] at hw
        split at hw
        next =>
          rcases List.mem_append.mp hw with hw' | hw'
          · exact Or.inr (hm _ v hw')
          · exact Or.inl (List.mem_singleton.mp hw')
        next => exact Or.inr (hm _ v hw)
      split at hv
      next =>
        rcases List.mem_append.mp hv with hv' | hv'
        · rcases hinner _ hv' with h' | h'
          · exact Or.inl h'
          · exact Or.inr (Or.inr h')
        · exact Or.inr (Or.inl (List.mem_singleton.mp hv'))
      next =>
        rcases hinner _ hv with h' | h'
        · exact Or.inl h'
        · exact Or.inr (Or.inr h')
  refine hfold pairs [] ?_ u v h
  intro u v hv
  simp [neighbours] at hv

/-! ## What a call of the search does -/

/-- The tokens of the graph are marked as visited exactly if `seen`. -/
def Marks (K : List TokenID) (isVisited : JsMap TokenID Bool) (seen : List TokenID) : Prop :=
  ∀ v ∈ K, JsMap.get isVisited v = some (decide (v ∈ seen))

/-- Marking a token as visited. -/
theorem Marks.visit {K : List TokenID} {m : JsMap TokenID Bool} {seen : List TokenID}
    (h : Marks K m seen) (node : TokenID) : Marks K (JsMap.set m node true) (node :: seen) := by
  intro v hv
  rw [JsMap.get_set]
  by_cases he : v = node
  · simp [he]
  · rw [if_neg he, h v hv]
    simp [he]

/-- Leaving a token restores the map it was entered with. -/
theorem Marks.leave {K : List TokenID} {m : JsMap TokenID Bool} {seen : List TokenID}
    (h : Marks K m seen) {node : TokenID} (hK : node ∈ K) (hseen : node ∉ seen) :
    JsMap.set (JsMap.set m node true) node false = m := by
  rw [JsMap.set_set]
  exact JsMap.set_get_self (by rw [h node hK]; simp [hseen])

/-- The token spliced out of the path is the one pushed last. -/
theorem spliceIndexOf_concat {list : List TokenID} {x : TokenID} (h : x ∉ list) :
    spliceIndexOf (list ++ [x]) x = list := by
  rw [spliceIndexOf, if_pos (by simp), List.erase_append_right _ h]
  simp

variable {adjList : JsMap TokenID (List TokenID)} {destination : TokenID}

/-- The loop over the neighbours, given what the recursive calls do: it
appends the continuations through every neighbour not met yet. -/
theorem foldlM_visitAdjNode {recurse : TokenID → Search → Option Search} (seen : List TokenID)
    {path : List TokenID} {m : JsMap TokenID Bool} {cont : TokenID → List (List TokenID)}
    (hpath : ∀ x ∈ path, x ∈ seen) :
    ∀ (l : List TokenID), Marks l m seen →
      (∀ v ∈ l, v ∉ seen → ∀ paths, recurse v ⟨m, path ++ [v], paths⟩
        = some ⟨m, path ++ [v], paths ++ (cont v).map (path ++ ·)⟩) →
      ∀ paths, l.foldlM (visitAdjNode recurse) ⟨m, path, paths⟩
        = some ⟨m, path, paths ++ (l.flatMap fun v =>
            if v ∈ seen then [] else cont v).map (path ++ ·)⟩ := by
  intro l
  induction l with
  | nil => intro _ _ paths; simp
  | cons v l ih =>
    intro hm hrec paths
    have hrest := ih (fun x hx => hm x (List.mem_cons_of_mem _ hx))
      (fun x hx => hrec x (List.mem_cons_of_mem _ hx))
    have hv := hm v (List.mem_cons_self ..)
    rw [List.foldlM_cons, visitAdjNode]
    by_cases hs : v ∈ seen
    · simp only [hv, hs, decide_true, Option.some.injEq, Bool.true_eq_false, if_false,
        Option.bind_eq_bind, Option.bind_some, hrest]
      simp [hs]
    · have hnotin : v ∉ path := fun hmem => hs (hpath v hmem)
      simp only [hv, hs, decide_false, if_true, hrec v (List.mem_cons_self ..) hs,
        Option.map_some, spliceIndexOf_concat hnotin, Option.bind_eq_bind, Option.bind_some, hrest]
      simp [hs]

/-- A call at an unmarked token appends the simple paths from it that avoid
the marked ones, and leaves the map and the path as they were. -/
theorem getAllPathsUtil_eq {K : List TokenID}
    (hclosed : ∀ u, ∀ v ∈ neighbours adjList u, v ∈ K)
    (hkeys : ∀ v ∈ K, JsMap.get adjList v ≠ none) :
    ∀ (fuel : ℕ) {node : TokenID} {seen pre : List TokenID} {m : JsMap TokenID Bool}
      {paths : List (List TokenID)},
      Marks K m seen → node ∈ K → node ∉ seen → (∀ x ∈ pre, x ∈ seen) →
      unseen K seen node < fuel →
      getAllPathsUtil adjList destination fuel node ⟨m, pre ++ [node], paths⟩
        = some ⟨m, pre ++ [node], paths ++
            (simplePaths (neighbours adjList) destination fuel seen node).map (pre ++ ·)⟩ := by
  intro fuel
  induction fuel with
  | zero => intro node seen pre m paths _ _ _ _ h; exact absurd h (by omega)
  | succ fuel ih =>
    intro node seen pre m paths hm hK hseen hpre hfuel
    rw [getAllPathsUtil]
    by_cases hd : node = destination
    · subst hd
      rw [if_pos rfl, simplePaths_dest]
      simp
    · rw [if_neg hd, simplePaths_step _ _ _ hd]
      dsimp only
      cases hadj : JsMap.get adjList node with
      | none => exact absurd hadj (hkeys node hK)
      | some adjNodes =>
        have hnb : neighbours adjList node = adjNodes := by rw [neighbours, hadj, Option.getD_some]
        have hsub : ∀ v ∈ adjNodes, v ∈ K := fun v hv => hclosed node v (hnb ▸ hv)
        have hpath : ∀ x ∈ pre ++ [node], x ∈ node :: seen := by
          intro x hx
          rcases List.mem_append.mp hx with hx' | hx'
          · exact List.mem_cons_of_mem _ (hpre x hx')
          · rw [List.mem_singleton.mp hx']
            exact List.mem_cons_self ..
        dsimp only
        rw [foldlM_visitAdjNode (node :: seen) hpath adjNodes
          (fun v hv => (hm.visit node) v (hsub v hv))
          (fun v hv hs ps => ih (hm.visit node) (hsub v hv) hs hpath
            (lt_of_lt_of_le (unseen_lt (hsub v hv) hs) (by omega)))]
        rw [Option.map_some, hm.leave hK hseen, hnb]
        -- a path through `node` is `node` prepended to a continuation
        congr 2
        dsimp only
        rw [List.map_flatMap, List.map_flatMap]
        congr 1
        apply List.flatMap_congr
        intro v _
        by_cases hs : v ∈ node :: seen
        · rw [if_pos hs, if_pos hs]
          rfl
        · rw [if_neg hs, if_neg hs, List.map_map]
          simp

/-! ## What `getAllPaths` returns -/

/-- At the start no token of the graph is marked. -/
theorem marks_init (K : List TokenID) :
    Marks K (K.foldl (fun m v => JsMap.set m v false) []) [] := by
  have hfold : ∀ (l : List TokenID) (m : JsMap TokenID Bool) (v : TokenID),
      (v ∈ l ∨ JsMap.get m v = some false) →
      JsMap.get (l.foldl (fun m v => JsMap.set m v false) m) v = some false := by
    intro l
    induction l with
    | nil => intro m v h; simpa using h
    | cons x l ih =>
      intro m v h
      rw [List.foldl_cons]
      apply ih
      rw [JsMap.get_set]
      by_cases hv : v = x
      · simp [hv]
      · simpa [hv] using h
  intro v hv
  rw [hfold K [] v (Or.inl hv)]
  simp

/-- With fuel above the number of tokens the search succeeds, and its result
is the enumeration of the simple paths. -/
theorem getAllPathsFuel_eq (pairs : List PairModel) (source destination : TokenID) {fuel : ℕ}
    (h : (JsMap.keys (GraphService.new pairs).adjList).length < fuel) :
    (GraphService.new pairs).getAllPathsFuel fuel source destination
      = some (simplePaths (neighbours (GraphService.new pairs).adjList) destination fuel []
          source) := by
  have hbound := unseen_nil_le (JsMap.keys (GraphService.new pairs).adjList) source
  obtain ⟨fuel, rfl⟩ : ∃ f, fuel = f + 1 := ⟨fuel - 1, by omega⟩
  rw [GraphService.getAllPathsFuel]
  by_cases hK : source ∈ JsMap.keys (GraphService.new pairs).adjList
  · have heq := @getAllPathsUtil_eq _ destination _
      (fun _ v hv => mem_keys_of_mem_neighbours pairs hv)
      (fun _ hv => JsMap.mem_keys_iff.mp hv) (fuel + 1) _ [] [] _ []
      (marks_init (JsMap.keys (GraphService.new pairs).adjList)) hK (by simp) (by simp)
      (lt_of_le_of_lt hbound h)
    rw [List.nil_append] at heq
    simp [heq]
  · -- a token the graph does not have: the early return
    have hget : JsMap.get (GraphService.new pairs).adjList source = none := by
      by_contra hne
      exact hK (JsMap.mem_keys_iff.mpr hne)
    rw [getAllPathsUtil]
    by_cases hd : source = destination
    · subst hd
      rw [if_pos rfl, simplePaths_dest]
      rfl
    · rw [if_neg hd, simplePaths_step _ _ _ hd]
      simp [hget, neighbours]

/-- The search with its marks finds what a search with a list of seen tokens
finds. -/
theorem getAllPaths_eq (pairs : List PairModel) (source destination : TokenID) :
    (GraphService.new pairs).getAllPaths source destination
      = simplePaths (neighbours (GraphService.new pairs).adjList) destination
          ((JsMap.keys (GraphService.new pairs).adjList).length + 1) [] source := by
  rw [GraphService.getAllPaths, getAllPathsFuel_eq pairs source destination (by omega),
    Option.getD_some]

/-- Enough fuel gives the result of `getAllPaths`, whatever the fuel. -/
theorem getAllPathsFuel_eq_getAllPaths (pairs : List PairModel) (source destination : TokenID)
    {fuel : ℕ} (h : (JsMap.keys (GraphService.new pairs).adjList).length < fuel) :
    (GraphService.new pairs).getAllPathsFuel fuel source destination
      = some ((GraphService.new pairs).getAllPaths source destination) := by
  have hbound := unseen_nil_le (JsMap.keys (GraphService.new pairs).adjList) source
  rw [getAllPathsFuel_eq pairs source destination h, getAllPaths_eq]
  congr 1
  exact simplePaths_fuel (fun _ v hv => mem_keys_of_mem_neighbours pairs hv) _ _
    (lt_of_le_of_lt hbound h) (by omega)

/-! ## Token paths -/

/-- A path of pairwise distinct tokens in which neighbours are traded by some
pair. -/
structure IsTokenPath (pairs : List PairModel) (source destination : TokenID)
    (p : List TokenID) : Prop where
  head : p.head? = some source
  last : p.getLast? = some destination
  nodup : p.Nodup
  traded : ∀ e ∈ hops p, ∃ pair ∈ pairs, trades e.1 e.2 pair

/-- In how many ways the pairs of a token path can be chosen. -/
def pairChoices (pairs : List PairModel) (p : List TokenID) : ℕ :=
  ((hops p).map fun e => pairs.countP (trades e.1 e.2)).prod

/-- A hop of a path without repetition joins two different tokens. -/
theorem ne_of_mem_hops {V : Type} {p : List V} (hnd : p.Nodup) {e : V × V} (he : e ∈ hops p) :
    e.1 ≠ e.2 := by
  induction p with
  | nil => simp [hops] at he
  | cons u rest ih =>
    cases rest with
    | nil => simp [hops] at he
    | cons v rest =>
      rcases List.mem_cons.mp he with rfl | he'
      · intro heq
        have huv : u = v := heq
        subst huv
        exact (List.nodup_cons.mp hnd).1 (List.mem_cons_self ..)
      · exact ih (List.nodup_cons.mp hnd).2 he'

/-- Two tokens are neighbours if a pair trades them. -/
theorem mem_neighbours_iff (pairs : List PairModel) {u v : TokenID} (h : u ≠ v) :
    v ∈ neighbours (GraphService.new pairs).adjList u ↔ ∃ pair ∈ pairs, trades u v pair := by
  rw [← List.count_pos_iff, count_neighbours pairs h, List.countP_pos_iff]

/-- Paths over pairs are the simple paths of the graph. -/
theorem isTokenPath_iff (pairs : List PairModel) {source destination : TokenID}
    {p : List TokenID} :
    IsTokenPath pairs source destination p ↔
      IsSimplePath (neighbours (GraphService.new pairs).adjList) source destination p := by
  constructor
  · intro h
    exact ⟨h.head, h.last, h.nodup, fun e he =>
      (mem_neighbours_iff pairs (ne_of_mem_hops h.nodup he)).mpr (h.traded e he)⟩
  · intro h
    exact ⟨h.head, h.last, h.nodup, fun e he =>
      (mem_neighbours_iff pairs (ne_of_mem_hops h.nodup he)).mp (h.edges e he)⟩

/-- A path is found once for each choice of pairs along it. -/
theorem pairChoices_eq (pairs : List PairModel) {p : List TokenID} (hnd : p.Nodup) :
    hopCount (neighbours (GraphService.new pairs).adjList) p = pairChoices pairs p := by
  unfold hopCount pairChoices
  congr 1
  apply List.map_congr_left
  intro e he
  exact count_neighbours pairs (ne_of_mem_hops hnd he)

/-- Everything `getAllPaths` returns is a token path. -/
theorem isTokenPath_of_mem {pairs : List PairModel} {source destination : TokenID}
    {p : List TokenID} (h : p ∈ (GraphService.new pairs).getAllPaths source destination) :
    IsTokenPath pairs source destination p := by
  rw [getAllPaths_eq] at h
  rw [isTokenPath_iff]
  exact (simplePaths_sound _ (by simp) h).1

/-- A token path is returned once for every choice of its pairs. -/
theorem count_getAllPaths {pairs : List PairModel} {source destination : TokenID}
    {p : List TokenID} (h : IsTokenPath pairs source destination p) :
    ((GraphService.new pairs).getAllPaths source destination).count p = pairChoices pairs p := by
  obtain ⟨rest, rfl⟩ : ∃ rest, p = source :: rest := by
    cases p with
    | nil => exact absurd h.head (by simp)
    | cons x rest => exact ⟨rest, by rw [Option.some.inj h.head]⟩
  rw [getAllPaths_eq, ← pairChoices_eq pairs h.nodup]
  apply count_simplePaths _ h.last h.nodup (by simp)
  -- all but the source are neighbours of something, hence tokens of the graph
  have htail : ∀ x ∈ rest, x ∈ JsMap.keys (GraphService.new pairs).adjList := by
    have hedges := ((isTokenPath_iff pairs).mp h).edges
    have hgen : ∀ (l : List TokenID) (u : TokenID),
        (∀ e ∈ hops (u :: l), e.2 ∈ neighbours (GraphService.new pairs).adjList e.1) →
        ∀ x ∈ l, x ∈ JsMap.keys (GraphService.new pairs).adjList := by
      intro l
      induction l with
      | nil => intro u _ x hx; simp at hx
      | cons v l ih =>
        intro u hu x hx
        rcases List.mem_cons.mp hx with rfl | hx'
        · exact mem_keys_of_mem_neighbours pairs (hu (u, x) (List.mem_cons_self ..))
        · exact ih v (fun e he => hu e (List.mem_cons_of_mem _ he)) x hx'
    exact hgen rest source hedges
  have hlen := length_le_of_simple (List.nodup_cons.mp h.nodup).2 htail
  simpa using hlen

/-- **Path enumeration.** On a graph built from any pair list the search
terminates with one result for every sufficient fuel. Everything in it is a
token path from the source to the destination; a token path with at least
one hop occurs once for every choice of pairs along it; and from a token to
itself there is only the path without a hop. -/
theorem getAllPaths_spec (pairs : List PairModel) (source destination : TokenID) :
    ∃ paths,
      (∀ fuel, (JsMap.keys (GraphService.new pairs).adjList).length < fuel →
        (GraphService.new pairs).getAllPathsFuel fuel source destination = some paths) ∧
      (∀ p ∈ paths, IsTokenPath pairs source destination p) ∧
      (∀ p, IsTokenPath pairs source destination p → 2 ≤ p.length →
        paths.count p = pairChoices pairs p ∧ 0 < pairChoices pairs p) ∧
      (source = destination → paths = [[source]]) := by
  refine ⟨(GraphService.new pairs).getAllPaths source destination, ?_, ?_, ?_, ?_⟩
  · intro fuel hfuel
    exact getAllPathsFuel_eq_getAllPaths pairs source destination hfuel
  · intro p hp
    exact isTokenPath_of_mem hp
  · intro p hp _
    refine ⟨count_getAllPaths hp, ?_⟩
    apply List.prod_pos
    intro n hn
    obtain ⟨e, he, rfl⟩ := List.mem_map.mp hn
    rw [List.countP_pos_iff]
    exact hp.traded e he
  · rintro rfl
    rw [getAllPaths_eq, simplePaths_dest]

end MxExchange.AutoRouter
