import Mathlib.Combinatorics.Graph.Basic
import Mathlib.Logic.Relation

/-!
# Edges that cannot be walked around

A walk through a multigraph that refuses one edge (`Reach`), and the part of
a multigraph where that always cuts something off: every edge met on the way
from a vertex is a bridge, so that no walk leads from one of its ends to the
other without it (`TreeFrom`). A loop is no bridge, and neither is one of two
parallel edges.

Three facts carry the traversals built on this. The far side of a bridge is
the same set of vertices whichever edge at the near end is refused
(`reach_switch`). Nothing on the far side touches the near end by another
edge (`eq_of_isLink_near`). And the far sides of two edges of one vertex
neither share a vertex nor are joined by an edge (`regions_disjoint`).
-/

namespace MxExchange.Collections

variable {V E : Type*} {G : Graph V E} {e p q r : E} {t u w x y z : V} {g : Option E}

/-- A walk from the first vertex to the second that does not use `g`. -/
def Reach (G : Graph V E) (g : Option E) : V → V → Prop :=
  Relation.ReflTransGen fun u w => ∃ e, some e ≠ g ∧ G.IsLink e u w

theorem Reach.refl (y : V) : Reach G g y y := Relation.ReflTransGen.refl

theorem Reach.trans (h : Reach G g x y) (h' : Reach G g y z) : Reach G g x z :=
  Relation.ReflTransGen.trans h h'

/-- One link, if it is not the one left out. -/
theorem Reach.single (h : G.IsLink e u w) (hne : some e ≠ g) : Reach G g u w :=
  Relation.ReflTransGen.single ⟨e, hne, h⟩

/-- A way may go on over any other link. -/
theorem Reach.tail (h : Reach G g y u) (he : G.IsLink e u w) (hne : some e ≠ g) :
    Reach G g y w :=
  h.trans (.single he hne)

/-- Links are ways in both directions, and so is what they make up. -/
theorem Reach.symm (h : Reach G g x y) : Reach G g y x := by
  induction h with
  | refl => exact .refl x
  | tail _ hstep ih =>
    obtain ⟨e, hne, he⟩ := hstep
    exact (Reach.single he.symm hne).trans ih

/-- A set that every other edge stays inside of is not left. -/
theorem not_reach_of_closed (S : V → Prop)
    (hS : ∀ e u w, some e ≠ g → G.IsLink e u w → S u → S w) (hx : S x) (hy : ¬S y) :
    ¬Reach G g x y := by
  have hstay : ∀ z, Reach G g x z → S z := by
    intro z h
    induction h with
    | refl => exact hx
    | tail _ hstep ih =>
      obtain ⟨e, hne, he⟩ := hstep
      exact hS _ _ _ hne he ih
  exact fun h => hy (hstay y h)

/-- Around `t` there is no way past an edge but the edge itself. -/
def TreeFrom (G : Graph V E) (t : V) : Prop :=
  ∀ ⦃e u w⦄, Reach G none t u → G.IsLink e u w → ¬Reach G (some e) u w

section Tree

variable (hG : TreeFrom G t) (ht : Reach G none t y)

include hG ht

/-- Without a bridge its two ends are apart. -/
theorem not_reach_near (hp : G.IsLink p y w) : ¬Reach G (some p) w y :=
  fun h => hG ht hp h.symm

/-- Crossing `q ≠ p` at the near end would lead around `p`. -/
theorem not_reach_neighbour (hp : G.IsLink p y w) (hq : G.IsLink q y x) (hne : q ≠ p) :
    ¬Reach G (some p) w x :=
  fun h => not_reach_near hG ht hp (h.tail hq.symm (by simpa using hne))

/-- An edge from the far side of `p` back to the near end is `p`. -/
theorem eq_of_isLink_near (hp : G.IsLink p y w) (hz : Reach G (some p) w z)
    (hr : G.IsLink r z y) : r = p := by
  by_contra hne
  exact not_reach_neighbour hG ht hp hr.symm hne hz

/-- The far side of `p` is reached without any other edge of the near end. -/
theorem reach_switch (hp : G.IsLink p y w) (hg : ∀ e, g = some e → G.Inc e y)
    (h : Reach G (some p) w z) : Reach G g w z := by
  induction h with
  | refl => exact .refl w
  | @tail u v hu hstep ih =>
    obtain ⟨e, hne, he⟩ := hstep
    refine ih.tail he ?_
    -- the refused edge touches the near end, which this walk never meets
    intro heq
    obtain ⟨x, hx⟩ := hg e heq.symm
    rcases hx.left_eq_or_eq he with rfl | rfl
    · exact not_reach_near hG ht hp hu
    · exact not_reach_near hG ht hp (Reach.tail hu he hne)

/-- The far side of `p`, seen from the near end. -/
theorem reach_through (hp : G.IsLink p y w) (hg : ∀ e, g = some e → G.Inc e y)
    (hgp : g ≠ some p) (h : Reach G (some p) w z) : Reach G g y z :=
  (Reach.single hp (Ne.symm hgp)).trans (reach_switch hG ht hp hg h)

/-- Behind two edges of one vertex there is neither a common vertex nor an
edge from the one side to the other. -/
theorem regions_disjoint (hp : G.IsLink p y w) (hq : G.IsLink q y x) (hne : q ≠ p)
    (hz : Reach G (some p) w z) (hu : Reach G (some q) x u)
    (hr : z = u ∨ G.IsLink r z u) : False := by
  have hu' : Reach G (some p) x u := by
    refine reach_switch hG ht hq ?_ hu
    rintro e he
    rw [← Option.some.inj he]
    exact ⟨w, hp⟩
  have hno : ¬Reach G (some p) w u := by
    intro h
    exact not_reach_neighbour hG ht hp hq hne (h.trans hu'.symm)
  rcases hr with rfl | hlink
  · exact hno hz
  · by_cases hrp : r = p
    · -- the edge is `p` itself: one of its ends would lie behind `q`
      subst hrp
      rcases hlink.symm.left_eq_or_eq hp with rfl | rfl
      · exact not_reach_near hG ht hq hu
      · exact hno (.refl u)
    · exact hno (hz.tail hlink (by simpa using hrp))

end Tree

end MxExchange.Collections
