import MxExchange.AutoRouter.GraphService

/-!
# The graph singleton

`GraphService.getInstance` keeps one graph for the whole process and rebuilds
it when the *number* of pairs differs from the number it was last built from.
The statics of the class are explicit state here, and a sequence of calls is
a run over that state.

The graph in use is always one built from an earlier list of the same length
(`builtAfter` is that list, as a ghost). So what a call returns is right for
its own list exactly when the two lists of one length agree: on how often
each two tokens are traded for the paths as a multiset, on the neighbour
lists for the paths in order. `getInstance_fresh_iff` says this of runs: every
query of a sequence of pair lists is answered as on a fresh graph if and only
if each list trades the same as the list of its length the graph was built
from. Pausing one pair and activating another between two calls breaks it
(`pausedThenActivated`).
-/

namespace MxExchange.AutoRouter

open MxExchange.Pair MxExchange.Collections MxExchange.Num

/-! ## The statics and a run -/

/-- `GraphService.pairsLength` and `GraphService.instance`. -/
structure GraphStatics where
  pairsLength : ℕ
  graph : Option GraphService

/-- Before the first call. -/
def GraphStatics.initial : GraphStatics := ⟨0, none⟩

/-- What the constructor leaves in the statics. -/
def GraphStatics.rebuild (pairs : List PairModel) : GraphStatics :=
  ⟨pairs.length, some (GraphService.new pairs)⟩

/-- The instance to use for `pairs`, and the statics afterwards. -/
def getInstance (st : GraphStatics) (pairs : List PairModel) : GraphService × GraphStatics :=
  match st.graph with
  | none => (GraphService.new pairs, GraphStatics.rebuild pairs)
  | some g =>
    if st.pairsLength ≠ pairs.length then (GraphService.new pairs, GraphStatics.rebuild pairs)
    else (g, st)

/-- `getInstance(pairs).getAllPaths(source, destination)`. -/
structure Call where
  pairs : List PairModel
  source : TokenID
  destination : TokenID

/-- The results of a sequence of calls. -/
def runCalls : GraphStatics → List Call → List (List (List TokenID))
  | _, [] => []
  | st, c :: calls =>
    let (g, st') := getInstance st c.pairs
    g.getAllPaths c.source c.destination :: runCalls st' calls

/-- The result on a graph built for the call. -/
def Call.fresh (c : Call) : List (List TokenID) :=
  (GraphService.new c.pairs).getAllPaths c.source c.destination

/-! ## When two pair lists give the same paths -/

/-- The lists trade any two different tokens equally often. -/
def SameTrades (a b : List PairModel) : Prop :=
  ∀ u v, u ≠ v → a.countP (trades u v) = b.countP (trades u v)

/-- The graphs of the lists have the same neighbour lists. -/
def SameNeighbours (a b : List PairModel) : Prop :=
  ∀ u, neighbours (GraphService.new a).adjList u = neighbours (GraphService.new b).adjList u

theorem SameTrades.symm {a b : List PairModel} (h : SameTrades a b) : SameTrades b a :=
  fun u v huv => (h u v huv).symm

/-- Lists that trade the same tokens have the same paths. -/
theorem SameTrades.isTokenPath {a b : List PairModel} (h : SameTrades a b)
    {source destination : TokenID} {p : List TokenID}
    (hp : IsTokenPath a source destination p) : IsTokenPath b source destination p := by
  refine ⟨hp.head, hp.last, hp.nodup, ?_⟩
  intro e he
  have ha := List.countP_pos_iff.mpr (hp.traded e he)
  rw [h e.1 e.2 (ne_of_mem_hops hp.nodup he)] at ha
  exact List.countP_pos_iff.mp ha

/-- And as many choices of pairs along each. -/
theorem SameTrades.pairChoices_eq {a b : List PairModel} (h : SameTrades a b) {p : List TokenID}
    (hnd : p.Nodup) : pairChoices a p = pairChoices b p := by
  unfold pairChoices
  congr 1
  apply List.map_congr_left
  intro e he
  exact h e.1 e.2 (ne_of_mem_hops hnd he)

/-- Equal trades give the same paths, each equally often. -/
theorem SameTrades.perm {a b : List PairModel} (h : SameTrades a b)
    (source destination : TokenID) :
    ((GraphService.new a).getAllPaths source destination).Perm
      ((GraphService.new b).getAllPaths source destination) := by
  rw [List.perm_iff_count]
  intro p
  by_cases hp : IsTokenPath a source destination p
  · rw [count_getAllPaths hp, count_getAllPaths (h.isTokenPath hp), h.pairChoices_eq hp.nodup]
  · -- not a path of either list
    have hb : ¬IsTokenPath b source destination p := fun hb => hp (h.symm.isTokenPath hb)
    rw [List.count_eq_zero_of_not_mem (fun hm => hp (isTokenPath_of_mem hm)),
      List.count_eq_zero_of_not_mem (fun hm => hb (isTokenPath_of_mem hm))]

/-- The direct path between two tokens occurs once for every pair trading them. -/
theorem count_direct (pairs : List PairModel) {u v : TokenID} (h : u ≠ v) :
    ((GraphService.new pairs).getAllPaths u v).count [u, v] = pairs.countP (trades u v) := by
  by_cases hp : IsTokenPath pairs u v [u, v]
  · rw [count_getAllPaths hp]
    simp [pairChoices, hops]
  · have hnone : pairs.countP (trades u v) = 0 := by
      by_contra hne
      apply hp
      refine ⟨rfl, rfl, by simp [h], ?_⟩
      intro e he
      have : e = (u, v) := by simpa [hops] using he
      subst this
      exact List.countP_pos_iff.mp (Nat.pos_of_ne_zero hne)
    rw [hnone, List.count_eq_zero_of_not_mem (fun hm => hp (isTokenPath_of_mem hm))]

/-- The same paths between any two tokens mean equal trades. -/
theorem sameTrades_of_perm {a b : List PairModel}
    (h : ∀ source destination, ((GraphService.new a).getAllPaths source destination).Perm
      ((GraphService.new b).getAllPaths source destination)) : SameTrades a b := by
  intro u v huv
  have := (h u v).count_eq [u, v]
  rwa [count_direct a huv, count_direct b huv] at this

/-- Equal neighbour lists give the same paths in the same order. -/
theorem SameNeighbours.getAllPaths_eq {a b : List PairModel} (h : SameNeighbours a b)
    (source destination : TokenID) :
    (GraphService.new a).getAllPaths source destination
      = (GraphService.new b).getAllPaths source destination := by
  have hadj : neighbours (GraphService.new a).adjList
      = neighbours (GraphService.new b).adjList := funext h
  -- both searches agree with one whose fuel covers either graph
  have hfuel : ∀ (pairs : List PairModel) (F : ℕ),
      (JsMap.keys (GraphService.new pairs).adjList).length < F →
      (GraphService.new pairs).getAllPaths source destination
        = simplePaths (neighbours (GraphService.new pairs).adjList) destination F [] source := by
    intro pairs F hF
    have hsome := getAllPathsFuel_eq pairs source destination hF
    rw [getAllPathsFuel_eq_getAllPaths pairs source destination hF] at hsome
    exact Option.some.inj hsome
  rw [hfuel a (max (JsMap.keys (GraphService.new a).adjList).length
      (JsMap.keys (GraphService.new b).adjList).length + 1) (by omega),
    hfuel b (max (JsMap.keys (GraphService.new a).adjList).length
      (JsMap.keys (GraphService.new b).adjList).length + 1) (by omega), hadj]

/-! ## Runs -/

/-- The list the graph was built from, after a call for `pairs`. -/
def builtAfter (built : Option (List PairModel)) (pairs : List PairModel) :
    Option (List PairModel) :=
  match built with
  | none => some pairs
  | some b => if b.length ≠ pairs.length then some pairs else some b

/-- The statics while the graph in use is the one of `built`. -/
def staticsOf : Option (List PairModel) → GraphStatics
  | none => GraphStatics.initial
  | some b => GraphStatics.rebuild b

/-- Each list that has the length of the one the graph was built from is
related to it. -/
def AllInStep (R : List PairModel → List PairModel → Prop) :
    Option (List PairModel) → List (List PairModel) → Prop
  | _, [] => True
  | built, pairs :: rest =>
    (∀ b, built = some b → b.length = pairs.length → R b pairs) ∧
      AllInStep R (builtAfter built pairs) rest

/-- One call uses the graph of `builtAfter`, and leaves its statics. -/
theorem getInstance_eq (built : Option (List PairModel)) (pairs : List PairModel) :
    ∃ b, builtAfter built pairs = some b ∧
      getInstance (staticsOf built) pairs = (GraphService.new b, GraphStatics.rebuild b) ∧
      (b = pairs ∨ built = some b ∧ b.length = pairs.length) := by
  cases built with
  | none => exact ⟨pairs, rfl, rfl, Or.inl rfl⟩
  | some b =>
    simp only [builtAfter, getInstance, staticsOf, GraphStatics.rebuild]
    by_cases h : b.length = pairs.length
    · exact ⟨b, by simp [h], by simp [h], Or.inr ⟨rfl, h⟩⟩
    · exact ⟨pairs, by simp [h], by simp [h], Or.inl rfl⟩

/-- Calls in step, from any state of the singleton: what holds between the
results of related lists holds between the run and the fresh results. -/
theorem runCalls_of_allInStep {R : List PairModel → List PairModel → Prop}
    {S : List (List TokenID) → List (List TokenID) → Prop} (hrefl : ∀ l, S l l)
    (hR : ∀ a b, R a b → ∀ s d,
      S ((GraphService.new a).getAllPaths s d) ((GraphService.new b).getAllPaths s d)) :
    ∀ (calls : List Call) (built : Option (List PairModel)),
      AllInStep R built (calls.map (·.pairs)) →
      List.Forall₂ S (runCalls (staticsOf built) calls) (calls.map Call.fresh) := by
  intro calls
  induction calls with
  | nil => intro built _; exact List.Forall₂.nil
  | cons c calls ih =>
    intro built hstep
    obtain ⟨hhead, htail⟩ := hstep
    obtain ⟨b, hbuilt, hget, hb⟩ := getInstance_eq built c.pairs
    rw [runCalls, hget]
    refine List.Forall₂.cons ?_ ?_
    · rcases hb with rfl | ⟨hsome, hlen⟩
      · exact hrefl _
      · exact hR b c.pairs (hhead b hsome hlen) _ _
    · have := ih (some b) (hbuilt ▸ htail)
      exact this

/-- A run that answers every query like a fresh graph is in step. -/
theorem allInStep_of_runCalls :
    ∀ (pairLists : List (List PairModel)) (built : Option (List PairModel)),
      (∀ calls : List Call, calls.map (·.pairs) = pairLists →
        List.Forall₂ List.Perm (runCalls (staticsOf built) calls) (calls.map Call.fresh)) →
      AllInStep SameTrades built pairLists := by
  intro pairLists
  -- induction on the lists still to come, from whatever graph has been built
  induction pairLists with
  | nil => intro built _; trivial
  | cons pairs rest ih =>
    intro built h
    obtain ⟨b, hbuilt, hget, hb⟩ := getInstance_eq built pairs
    have hcons : ∀ s d (calls : List Call), calls.map (·.pairs) = rest →
        ((GraphService.new b).getAllPaths s d).Perm ((GraphService.new pairs).getAllPaths s d) ∧
        List.Forall₂ List.Perm (runCalls (staticsOf (some b)) calls) (calls.map Call.fresh) := by
      intro s d calls hcalls
      have hrun := h (⟨pairs, s, d⟩ :: calls) (by rw [List.map_cons, hcalls])
      rw [runCalls, hget, List.map_cons] at hrun
      exact List.forall₂_cons.mp hrun
    refine ⟨?_, ?_⟩
    · intro b' hb' hlen
      have hbb : b' = b ∨ b = pairs := by
        rcases hb with rfl | ⟨hsome, -⟩
        · exact Or.inr rfl
        · exact Or.inl (Option.some.inj (hb'.symm.trans hsome))
      have hsame : b' = b := by
        rcases hbb with hb1 | hb1
        · exact hb1
        · -- same length, so the graph was not rebuilt
          rw [hb', builtAfter, if_neg (by simpa using hlen)] at hbuilt
          exact Option.some.inj hbuilt
      rw [hsame]
      refine sameTrades_of_perm fun s d => ?_
      exact (hcons s d (rest.map fun ps => ⟨ps, "", ""⟩) (by simp [Function.comp_def])).1
    · rw [hbuilt]
      apply ih
      intro calls hcalls
      exact (hcons "" "" calls hcalls).2

/-- **Freshness of the singleton.** Over a sequence of pair lists, every
choice of queries is answered with the paths of a freshly built graph if and
only if each list trades the same as the list of its length that the graph
was built from; and if it has the same neighbour lists, the answers are the
same in order too. -/
theorem getInstance_fresh_iff (pairLists : List (List PairModel)) :
    ((∀ calls : List Call, calls.map (·.pairs) = pairLists →
        List.Forall₂ List.Perm (runCalls .initial calls) (calls.map Call.fresh)) ↔
      AllInStep SameTrades none pairLists) ∧
    (AllInStep SameNeighbours none pairLists →
      ∀ calls : List Call, calls.map (·.pairs) = pairLists →
        runCalls .initial calls = calls.map Call.fresh) := by
  refine ⟨⟨allInStep_of_runCalls pairLists none, ?_⟩, ?_⟩
  · rintro h calls rfl
    exact runCalls_of_allInStep List.Perm.refl (fun a b hab => hab.perm) calls none h
  · rintro h calls rfl
    have := runCalls_of_allInStep (S := Eq) (fun _ => rfl)
      (fun a b hab => hab.getAllPaths_eq) calls none h
    exact List.forall₂_eq_eq_eq ▸ this

/-! ## A pause and an activation -/

/-- A pair of the two tokens, with some reserves. -/
private def tradingPair (address firstTokenID secondTokenID : String) : PairModel where
  address := address
  firstToken := ⟨firstTokenID, 18⟩
  secondToken := ⟨secondTokenID, 18⟩
  info := ⟨1000, 1000, 1000⟩
  totalFeePercent := Double.ofRat (3 / 1000)

/-- Between two requests for a route from WEGLD to USDC the only active pair
is paused and another one activated. -/
def pausedThenActivated : List Call :=
  [⟨[tradingPair "erd1pair1" "WEGLD-bd4d79" "USDC-c76f1f"], "WEGLD-bd4d79", "USDC-c76f1f"⟩,
   ⟨[tradingPair "erd1pair2" "WEGLD-bd4d79" "MEX-455c57"], "WEGLD-bd4d79", "USDC-c76f1f"⟩]

/-- The second request is answered with a path over the paused pair. -/
theorem pausedThenActivated_stale :
    runCalls .initial pausedThenActivated
      = [[["WEGLD-bd4d79", "USDC-c76f1f"]], [["WEGLD-bd4d79", "USDC-c76f1f"]]] ∧
    pausedThenActivated.map Call.fresh = [[["WEGLD-bd4d79", "USDC-c76f1f"]], []] ∧
    ¬List.Forall₂ List.Perm (runCalls .initial pausedThenActivated)
      (pausedThenActivated.map Call.fresh) := by
  have hrun : runCalls .initial pausedThenActivated
      = [[["WEGLD-bd4d79", "USDC-c76f1f"]], [["WEGLD-bd4d79", "USDC-c76f1f"]]] := by
    decide +kernel
  have hfresh : pausedThenActivated.map Call.fresh
      = [[["WEGLD-bd4d79", "USDC-c76f1f"]], []] := by
    decide +kernel
  refine ⟨hrun, hfresh, ?_⟩
  rw [hrun, hfresh]
  intro h
  have hsecond := (List.forall₂_cons.mp (List.forall₂_cons.mp h).2).1
  exact absurd hsecond.length_eq (by decide)

end MxExchange.AutoRouter
