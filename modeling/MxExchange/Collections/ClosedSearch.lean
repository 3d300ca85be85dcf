import Mathlib.Data.Set.Basic
import Mathlib.Logic.Relation

/-!
# What a search has ruled out

A depth-first search that marks the edges of a vertex when it enters it,
skips what is marked, and never takes a mark back. A search of this kind
that has found nothing leaves a certificate: the set of vertices it entered,
which no edge leaves that was not marked before (`Closed`).

The certificate is put together the way the search runs. Entering a vertex
owes its own edges (`ClosedBut.enter`), what the search of a neighbour has
ruled out is added although it found edges marked by its elder siblings
(`ClosedBut.branch`), and once every neighbour has been searched nothing is
owed (`ClosedBut.leave`). The point is `branch`: an edge the younger search
finds marked has its other end among the vertices of the elder ones, because
an edge has two ends (`TwoEnds`).

When nothing was marked at the start the entered vertices are closed under
all edges, and whatever the search looked for is not among them
(`Closed.mem_of_walk`).
-/

namespace MxExchange.Collections

variable {V E : Type*} {Hop : V → E → V → Prop} {Near : V → E → Prop}
  {old mid new : Set E} {S S' : Set V} {w z : V}

/-- `Hop u e x` crosses the edge `e` from `u` to `x`; `Near w e` says that
entering `w` marks `e`. Seen from one end, the other end is where an edge
leads. -/
def TwoEnds (Hop : V → E → V → Prop) (Near : V → E → Prop) : Prop :=
  ∀ ⦃u e x w⦄, Hop u e x → Near w e → u ≠ w → x = w

/-- A search from marks `old` to marks `new` has entered `S` and ruled out
that an edge leads further. -/
structure Closed (Hop : V → E → V → Prop) (Near : V → E → Prop) (old : Set E) (S : Set V)
    (new : Set E) : Prop where
  hop : ∀ u ∈ S, ∀ e x, Hop u e x → e ∉ old → x ∈ S
  marks : ∀ e ∈ new, e ∈ old ∨ ∃ u ∈ S, Near u e

/-- The same in the middle of the search of `z`, whose own edges are owed. -/
structure ClosedBut (Hop : V → E → V → Prop) (Near : V → E → Prop) (z : V) (old : Set E)
    (S : Set V) (new : Set E) : Prop where
  entered : z ∈ S
  hop : ∀ u ∈ S, u ≠ z → ∀ e x, Hop u e x → e ∉ old → x ∈ S
  marks : ∀ e ∈ new, e ∈ old ∨ ∃ u ∈ S, Near u e

/-- The search comes to a vertex, whose links are yet to be followed. -/
theorem ClosedBut.enter (h : ∀ e ∈ new, e ∈ old ∨ Near z e) :
    ClosedBut Hop Near z old {z} new where
  entered := rfl
  hop _ hu hne := absurd hu hne
  marks e he := (h e he).imp_right fun hnear => ⟨z, rfl, hnear⟩

/-- A link has been followed to its end: what was found there is closed but for
the vertex. -/
theorem ClosedBut.branch (hends : TwoEnds Hop Near) (h : ClosedBut Hop Near z old S mid)
    (h' : Closed Hop Near mid S' new) : ClosedBut Hop Near z old (S ∪ S') new := by
  refine ⟨Or.inl h.entered, ?_, ?_⟩
  · rintro u (hu | hu) hne e x hop hnew
    · exact Or.inl (h.hop u hu hne e x hop hnew)
    · by_cases hmid : e ∈ mid
      · -- an elder sibling has marked the edge, at its other end or at this one
        obtain ⟨w, hw, hnear⟩ := (h.marks e hmid).resolve_left hnew
        by_cases huw : u = w
        · subst huw
          exact Or.inl (h.hop u hw hne e x hop hnew)
        · rw [hends hop hnear huw]
          exact Or.inl hw
      · exact Or.inr (h'.hop u hu e x hop hmid)
  · intro e he
    rcases h'.marks e he with hmid | ⟨u, hu, hnear⟩
    · exact (h.marks e hmid).imp_right fun ⟨u, hu, hnear⟩ => ⟨u, Or.inl hu, hnear⟩
    · exact Or.inr ⟨u, Or.inr hu, hnear⟩

/-- All links of the vertex have been followed. -/
theorem ClosedBut.leave (h : ClosedBut Hop Near z old S new)
    (hz : ∀ e x, Hop z e x → e ∉ old → x ∈ S) : Closed Hop Near old S new where
  hop u hu e x hop hnew := by
    by_cases huz : u = z
    · subst huz
      exact hz e x hop hnew
    · exact h.hop u hu huz e x hop hnew
  marks := h.marks

/-- Where nothing was marked before, no walk leaves the entered vertices. -/
theorem Closed.mem_of_walk (h : Closed Hop Near ∅ S new) (hz : z ∈ S)
    (hwalk : Relation.ReflTransGen (fun u x => ∃ e, Hop u e x) z w) : w ∈ S := by
  induction hwalk with
  | refl => exact hz
  | tail _ hstep ih =>
    obtain ⟨e, hop⟩ := hstep
    exact h.hop _ ih e _ hop (Set.notMem_empty e)

end MxExchange.Collections
