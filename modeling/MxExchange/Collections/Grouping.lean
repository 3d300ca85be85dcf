import MxExchange.Collections.Candles
import Mathlib.Algebra.Group.Defs
import Mathlib.Data.List.Dedup

/-!
# Rows by group

`groupBy` is `GROUP BY`: the rows of one key become one row. A view made that
way can stand for the rows it is made of. Sums over it are sums over them
(`sumOf_groupBy`), and where the keys are buckets of time, the last of its last
values is their last value (`last_groupBy`), whichever keys are asked for.

A history shows a value at every bucket of a window. If each bucket in turn
shows what was observed in it, or what the one before it shows, then it shows
the last value so far (`carryForward_eq`).
-/

namespace MxExchange.Collections

variable {ρ γ α σ : Type}

/-- A row for each key, with what is made of the rows of that key. -/
def groupBy [DecidableEq γ] (key : ρ → γ) (value : List ρ → Option α) (rows : List ρ) :
    List (γ × α) :=
  (rows.map key).dedup.filterMap fun group =>
    (value (rows.filter fun row => key row = group)).map fun v => (group, v)

/-- The groups are those of the rows, each with the value of all its rows. -/
theorem mem_groupBy [DecidableEq γ] {key : ρ → γ} {value : List ρ → Option α} {rows : List ρ}
    {c : γ × α} :
    c ∈ groupBy key value rows ↔
      (∃ row ∈ rows, key row = c.1) ∧ value (rows.filter fun row => key row = c.1) = some c.2 := by
  unfold groupBy
  simp only [List.mem_filterMap, List.mem_dedup, List.mem_map, Option.map_eq_some_iff]
  constructor
  · intro h
    obtain ⟨group, hgroup, v, hv, rfl⟩ := h
    exact ⟨hgroup, hv⟩
  · intro h
    exact ⟨c.1, h.1, c.2, h.2, rfl⟩

/-! ## Sums -/

section Sums

variable [AddCommMonoid α] (value : ρ → α)

/-- The sum of a value over rows. -/
def sumOf : List ρ → α
  | [] => 0
  | row :: rows => value row + sumOf rows

@[simp] theorem sumOf_nil : sumOf value [] = 0 := rfl

@[simp] theorem sumOf_cons (row : ρ) (rows : List ρ) :
    sumOf value (row :: rows) = value row + sumOf value rows := rfl

/-- Rows of two kinds, of which no row is both. -/
theorem sumOf_filter_or {p q : ρ → Bool} (rows : List ρ)
    (hdisjoint : ∀ row ∈ rows, p row = true → q row = false) :
    sumOf value (rows.filter fun row => p row || q row) =
      sumOf value (rows.filter p) + sumOf value (rows.filter q) := by
  induction rows with
  | nil => simp
  | cons row rows ih =>
    have ih := ih fun other hother => hdisjoint other (List.mem_cons_of_mem _ hother)
    have hrow := hdisjoint row List.mem_cons_self
    by_cases hp : p row = true
    · have hq := hrow hp
      simp [hp, hq, ih, add_assoc]
    · by_cases hq : q row = true
      · simp [hp, hq, ih, add_left_comm]
      · simp [hp, hq, ih]

/-- Rows that pass a test and rows that do not make up the whole sum. -/
theorem sumOf_filter_add (p : ρ → Bool) (rows : List ρ) :
    sumOf value (rows.filter p) + sumOf value (rows.filter fun row => !p row) =
      sumOf value rows := by
  rw [← sumOf_filter_or value rows fun row _ hp => by simp [hp]]
  congr 1
  rw [List.filter_eq_self]
  intro row _
  exact Bool.or_not_self _

variable [DecidableEq γ] (key : ρ → γ)

/-- Summed by groups, each row counts once. -/
theorem sumOf_groups {groups : List γ} (hgroups : groups.Nodup) (rows : List ρ) :
    sumOf (fun group => sumOf value (rows.filter fun row => key row = group)) groups =
      sumOf value (rows.filter fun row => key row ∈ groups) := by
  induction groups with
  | nil => simp
  | cons group groups ih =>
    obtain ⟨hgroup, hnodup⟩ := List.nodup_cons.mp hgroups
    have hor : (rows.filter fun row => key row ∈ group :: groups) =
        rows.filter fun row => decide (key row = group) || decide (key row ∈ groups) := by
      apply List.filter_congr
      intro row _
      rw [← Bool.decide_or, decide_eq_decide, List.mem_cons]
    rw [sumOf_cons, ih hnodup, hor, sumOf_filter_or]
    intro row _ hrow
    rw [decide_eq_true_iff] at hrow
    rw [decide_eq_false_iff_not, hrow]
    exact hgroup

/-- The sums of some groups come to the sum of their rows. -/
theorem sumOf_groupBy (p : γ → Bool) (rows : List ρ) :
    sumOf Prod.snd ((groupBy key (fun group => some (sumOf value group)) rows).filter
        fun c => p c.1) =
      sumOf value (rows.filter fun row => p (key row)) := by
  have hview : ∀ groups : List γ, sumOf Prod.snd ((groups.map fun group =>
      (group, sumOf value (rows.filter fun row => key row = group))).filter fun c => p c.1) =
      sumOf (fun group => sumOf value (rows.filter fun row => key row = group))
        (groups.filter p) := by
    intro groups
    induction groups with
    | nil => rfl
    | cons group groups ih =>
      rw [List.map_cons]
      by_cases hp : p group = true
      · rw [List.filter_cons_of_pos (by exact hp), List.filter_cons_of_pos hp, sumOf_cons,
          sumOf_cons, ih]
      · rw [List.filter_cons_of_neg (by exact hp), List.filter_cons_of_neg hp, ih]
  unfold groupBy
  simp only [Option.map_some]
  rw [List.filterMap_eq_map', hview, sumOf_groups value key ((List.nodup_dedup _).filter p) rows]
  congr 1
  apply List.filter_congr
  intro row hrow
  rw [Bool.eq_iff_iff, decide_eq_true_iff, List.mem_filter, List.mem_dedup]
  exact and_iff_right (List.mem_map_of_mem hrow)

end Sums

/-! ## Last values -/

section Last

variable {B : Bucketing} {time : ρ → ℤ} {value : ρ → α} {rows : List ρ}

/-- The value of any latest row. -/
theorem last_eq (htimes : DistinctTimes time rows) {r : ρ} (hmem : r ∈ rows)
    (hlatest : ∀ s ∈ rows, time s ≤ time r) : last time value rows = some (value r) := by
  obtain ⟨s, hs, heq, hle⟩ := exists_latest time (List.ne_nil_of_mem hmem)
  obtain rfl : s = r := htimes s hs r hmem (le_antisymm (hlatest s hs) (hle r hmem))
  unfold last
  rw [heq, Option.map_some]

/-- The last value from bucket `b` on, and if there is none the last one before. -/
theorem last_split [LinearOrder α] (B : Bucketing) (htimes : DistinctTimes time rows) (b : ℤ) :
    last time value rows =
      (last time value (rows.filter fun row => b ≤ B.start (time row))).or
        (last time value (rows.filter fun row => B.start (time row) < b)) := by
  have hclose : ∀ rows, DistinctTimes time rows → last time value rows =
      (lastCandle B time (fun row => Candle.ofValue (value row)) rows).map (·.close) := by
    intro rows h
    rw [map_close_lastCandle h]
    rfl
  rw [hclose _ htimes, hclose _ (htimes.filter _), hclose _ (htimes.filter _), ← Option.map_or,
    ← lastCandle_split]

variable [DecidableEq γ] {key : ρ → γ} {bucket : γ → ℤ}

/-- **The last of the last values** of some groups, where the groups are told
apart by their buckets. -/
theorem last_groupBy (p : γ → Bool) (hbucket : ∀ row ∈ rows, bucket (key row) = B.start (time row))
    (hkey : ∀ r ∈ rows, ∀ s ∈ rows, p (key r) = true → p (key s) = true →
      B.start (time r) = B.start (time s) → key r = key s)
    (htimes : DistinctTimes time (rows.filter fun row => p (key row))) :
    last (fun c => bucket c.1) Prod.snd
        ((groupBy key (last time value) rows).filter fun c => p c.1) =
      last time value (rows.filter fun row => p (key row)) := by
  by_cases hnil : (rows.filter fun row => p (key row)) = []
  · have hview : ((groupBy key (last time value) rows).filter fun c => p c.1) = [] := by
      rw [List.filter_eq_nil_iff]
      intro c hc hp
      obtain ⟨row, hrow, hrowc⟩ := (mem_groupBy.mp hc).1
      refine List.filter_eq_nil_iff.mp hnil row hrow ?_
      rw [hrowc]
      exact hp
    rw [hview, hnil]
    rfl
  · obtain ⟨r, hmem, -, hlatest⟩ := exists_latest time hnil
    obtain ⟨hr, hpr⟩ := List.mem_filter.mp hmem
    have hlast : ∀ s ∈ rows, key s = key r → time s ≤ time r := by
      intro s hs hsame
      exact hlatest s (List.mem_filter.mpr ⟨hs, by rw [hsame]; exact hpr⟩)
    -- the group of the latest row ends with it
    have hgroup : last time value (rows.filter fun row => key row = key r) = some (value r) := by
      refine last_eq ?_ (List.mem_filter.mpr ⟨hr, by rw [decide_eq_true_iff]⟩) ?_
      · intro s hs s' hs'
        obtain ⟨hs, hkeys⟩ := List.mem_filter.mp hs
        obtain ⟨hs', hkeys'⟩ := List.mem_filter.mp hs'
        rw [decide_eq_true_iff] at hkeys hkeys'
        exact htimes s (List.mem_filter.mpr ⟨hs, by rw [hkeys]; exact hpr⟩) s'
          (List.mem_filter.mpr ⟨hs', by rw [hkeys']; exact hpr⟩)
      · intro s hs
        obtain ⟨hs, hkeys⟩ := List.mem_filter.mp hs
        rw [decide_eq_true_iff] at hkeys
        exact hlast s hs hkeys
    have hview : (key r, value r) ∈
        (groupBy key (last time value) rows).filter fun c => p c.1 :=
      List.mem_filter.mpr ⟨mem_groupBy.mpr ⟨⟨r, hr, rfl⟩, hgroup⟩, hpr⟩
    obtain ⟨c, hc, hceq, hcle⟩ := exists_latest (fun c : γ × α => bucket c.1)
      (List.ne_nil_of_mem hview)
    obtain ⟨hc, hpc⟩ := List.mem_filter.mp hc
    obtain ⟨⟨s, hs, hsc⟩, hvalue⟩ := mem_groupBy.mp hc
    have hsmem : s ∈ rows.filter fun row => p (key row) :=
      List.mem_filter.mpr ⟨hs, by rw [hsc]; exact hpc⟩
    have hbuckets : B.start (time r) ≤ B.start (time s) := by
      have hle : bucket (key r) ≤ bucket c.1 := hcle _ hview
      rw [← hsc, hbucket r hr, hbucket s hs] at hle
      exact hle
    have hsame : key s = key r := by
      refine hkey s hs r hr (by rw [hsc]; exact hpc) hpr ?_
      exact le_antisymm (B.start_mono (hlatest s hsmem)) hbuckets
    rw [last_eq htimes hmem hlatest]
    show (latest (fun c : γ × α => bucket c.1) _).map Prod.snd = _
    rw [hceq, Option.map_some, ← hvalue, ← hsc, hsame, hgroup]

end Last

/-! ## Histories -/

/-- **Carrying forward.** If what is observed in a bucket comes before what is
shown at the bucket before it, then carrying observations forward shows just
that. -/
theorem carryForward_eq {observed shown : ℤ → Option σ} {carried : Option σ} :
    ∀ {l : List ℤ}, (∀ b ∈ l.head?, (observed b).or carried = shown b) →
      l.IsChain (fun b b' => (observed b').or (shown b) = shown b') →
      carryForward carried (l.map observed) = l.map shown
  | [], _, _ => rfl
  | b :: l, hfirst, hchain => by
    obtain ⟨hnext, hchain⟩ := List.isChain_cons.mp hchain
    rw [List.map_cons, List.map_cons, carryForward, hfirst b rfl,
      carryForward_eq hnext hchain]

/-- In an increasing list nothing lies between neighbours. -/
theorem isChain_of_pairwise : ∀ {l : List ℤ}, l.Pairwise (· < ·) →
    l.IsChain fun b b' => b < b' ∧ ∀ x ∈ l, x < b' → x ≤ b
  | [], _ => .nil
  | [b], _ => .singleton b
  | b :: b' :: l, h => by
    obtain ⟨hb, htail⟩ := List.pairwise_cons.mp h
    have hlt : b < b' := hb b' List.mem_cons_self
    have hrest := (List.pairwise_cons.mp htail).1
    refine List.isChain_cons.mpr ⟨?_, ?_⟩
    · intro y hy
      obtain rfl : b' = y := Option.some.inj hy
      refine ⟨hlt, fun x hx hxb' => ?_⟩
      rcases List.mem_cons.mp hx with rfl | hx
      · exact le_refl _
      · rcases List.mem_cons.mp hx with rfl | hx
        · exact absurd hxb' (lt_irrefl _)
        · have := hrest x hx
          omega
    · refine (isChain_of_pairwise htail).imp_of_mem_tail_imp ?_
      intro c c' hc _ hcc'
      refine ⟨hcc'.1, fun x hx hxc' => ?_⟩
      rcases List.mem_cons.mp hx with rfl | hx
      · -- the first bucket is before all others
        exact (hb c hc).le
      · exact hcc'.2 x hx hxc'

/-- No moment is between a bucket and the next one. -/
theorem Bucketing.isChain_buckets (B : Bucketing) (lo hi : ℤ) :
    (B.buckets lo hi).IsChain fun b b' => b < b' ∧ ∀ t, B.start t < b' → B.start t ≤ b := by
  refine (isChain_of_pairwise (pairwise_buckets lo hi)).imp_of_mem_imp ?_
  intro b b' hb hb' h
  refine ⟨h.1, fun t ht => ?_⟩
  obtain ⟨hfirst, -⟩ := mem_buckets.mp hb
  obtain ⟨hlast, -⟩ := mem_buckets.mp hb'
  by_cases hlo : B.start lo ≤ B.start t
  · exact h.2 _ (mem_buckets.mpr ⟨⟨hlo, by omega⟩, B.start_start t⟩) ht
  · omega

/-- **The last value so far.** In a window, the buckets of `C` are filled from the
rows of the window and from before it, if the last one before it is looked up. A row
is known by its bucket of `B`, which is what the window is compared with. -/
theorem carryForward_window [LinearOrder α] {B C : Bucketing} {time : ρ → ℤ} {rows : List ρ}
    (hCB : C.Coarsens B) (htimes : DistinctTimes time rows) (value : ρ → α) (lo hi : ℤ)
    (lookup : Prop) [Decidable lookup] :
    carryForward
        (if lookup then last time value (rows.filter fun row => B.start (time row) < lo) else none)
        ((C.buckets lo hi).map fun b => last time value (rows.filter fun row =>
          (lo ≤ B.start (time row) ∧ B.start (time row) ≤ hi) ∧ C.start (time row) = b)) =
      (C.buckets lo hi).map fun b => last time value (rows.filter fun row =>
        ((lookup ∧ B.start (time row) < lo) ∨
          (lo ≤ B.start (time row) ∧ B.start (time row) ≤ hi)) ∧ C.start (time row) ≤ b) := by
  -- a row before the window is in no bucket after its first one
  have hbefore : ∀ t, B.start t < lo → C.start t ≤ C.start lo := by
    intro t ht
    rw [← hCB t]
    exact C.start_mono ht.le
  have hafter : ∀ t, lo ≤ B.start t → C.start lo ≤ C.start t := by
    intro t ht
    rw [← hCB t]
    exact C.start_mono ht
  refine carryForward_eq ?_ ?_
  · intro b hb
    obtain ⟨⟨hfirst, hlast⟩, -⟩ := Bucketing.mem_buckets.mp (List.mem_of_mem_head? hb)
    have hmem : C.start lo ∈ C.buckets lo hi :=
      Bucketing.mem_buckets.mpr ⟨⟨le_refl _, by omega⟩, C.start_start lo⟩
    have hle := Bucketing.head_le_of_mem_buckets hb hmem
    symm
    rw [last_split B (htimes.filter _) lo, List.filter_filter, List.filter_filter]
    congr 1
    · congr 1
      apply List.filter_congr
      intro row _
      rw [← Bool.decide_and, decide_eq_decide]
      have := hafter (time row)
      omega
    · by_cases hlookup : lookup
      · rw [if_pos hlookup]
        congr 1
        apply List.filter_congr
        intro row _
        rw [← Bool.decide_and, decide_eq_decide]
        have := hbefore (time row)
        constructor
        · exact fun h => h.1
        · intro h
          exact ⟨h, Or.inl ⟨hlookup, h⟩, by omega⟩
      · rw [if_neg hlookup, List.filter_eq_nil_iff.mpr]
        · rfl
        · intro row _ h
          rw [← Bool.decide_and, decide_eq_true_iff] at h
          rcases h.2.1 with hin | hin
          · exact hlookup hin.1
          · omega
  · refine (Bucketing.isChain_buckets C lo hi).imp_of_mem_imp ?_
    intro b b' hb hb' h
    obtain ⟨⟨hfirst, -⟩, -⟩ := Bucketing.mem_buckets.mp hb
    obtain ⟨⟨-, hlast⟩, -⟩ := Bucketing.mem_buckets.mp hb'
    symm
    rw [last_split C (htimes.filter _) b', List.filter_filter, List.filter_filter]
    congr 1
    · congr 1
      apply List.filter_congr
      intro row _
      rw [← Bool.decide_and, decide_eq_decide]
      have := hbefore (time row)
      constructor
      · intro hrow
        rcases hrow.2.1 with hin | hin
        · omega
        · exact ⟨hin, by omega⟩
      · intro hrow
        exact ⟨hrow.2.ge, Or.inr hrow.1, hrow.2.le⟩
    · congr 1
      apply List.filter_congr
      intro row _
      rw [← Bool.decide_and, decide_eq_decide]
      have hnone := h.2 (time row)
      constructor
      · intro hrow
        exact ⟨hrow.2.1, hnone hrow.1⟩
      · intro hrow
        exact ⟨by omega, hrow.1, by omega⟩

end MxExchange.Collections
