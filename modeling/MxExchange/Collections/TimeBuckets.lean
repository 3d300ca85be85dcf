import Mathlib.Algebra.Order.Group.Int
import Mathlib.Data.Int.ModEq
import Mathlib.Data.List.Pairwise
import Mathlib.Data.List.Range

/-!
# Buckets of time

A `Bucketing` divides time into consecutive buckets and names each by the first
moment in it, its `start`. Buckets of one width are `ofWidth`; nothing asks for
one width, so calendar months are a bucketing as well.

One bucketing `Coarsens` another if its buckets are made of whole buckets of the
other. Then the bucket of a moment is known from the fine bucket it is in, which
is what lets a summary by the hour be computed from the summaries by the minute.
-/

namespace MxExchange.Collections

/-- A division of time into buckets. -/
structure Bucketing where
  start : ℤ → ℤ
  start_le : ∀ t, start t ≤ t
  start_mono : ∀ {s t}, s ≤ t → start s ≤ start t
  start_start : ∀ t, start (start t) = start t

namespace Bucketing

variable {B C D : Bucketing}

/-! ## Buckets of one width -/

/-- Every bucket is `width` long, and one of them starts at `origin`. -/
def ofWidth (width origin : ℤ) (hwidth : 0 < width) : Bucketing where
  start t := (t - origin) / width * width + origin
  start_le t := by
    have hle : (t - origin) / width * width ≤ t - origin := Int.ediv_mul_le _ hwidth.ne'
    omega
  start_mono {s t} h := by
    have hle : (s - origin) / width ≤ (t - origin) / width :=
      Int.ediv_le_ediv hwidth (by omega)
    have hmul := Int.mul_le_mul_of_nonneg_right hle hwidth.le
    show (s - origin) / width * width + origin ≤ (t - origin) / width * width + origin
    omega
  start_start t := by
    show ((t - origin) / width * width + origin - origin) / width * width + origin = _
    rw [Int.add_sub_cancel, Int.mul_ediv_cancel _ hwidth.ne']

/-! ## Coarse and fine -/

/-- Each bucket of `C` is made of whole buckets of `B`. -/
def Coarsens (C B : Bucketing) : Prop := ∀ t, C.start (B.start t) = C.start t

theorem Coarsens.refl (B : Bucketing) : B.Coarsens B := B.start_start

/-- Days of hours, weeks of days: weeks of hours. -/
theorem Coarsens.trans (hDC : D.Coarsens C) (hCB : C.Coarsens B) : D.Coarsens B := by
  intro t
  calc D.start (B.start t) = D.start (C.start (B.start t)) := (hDC _).symm
    _ = D.start (C.start t) := by rw [hCB t]
    _ = D.start t := hDC t

/-- A width divides the other, and so does it the offset. -/
theorem ofWidth_coarsens {width wide origin origin' : ℤ} (hwidth : 0 < width) (hwide : 0 < wide)
    (hdvd : width ∣ wide) (horigin : width ∣ origin' - origin) :
    (ofWidth wide origin' hwide).Coarsens (ofWidth width origin hwidth) := by
  intro t
  obtain ⟨k, rfl⟩ := hdvd
  obtain ⟨m, hm⟩ := horigin
  show ((t - origin) / width * width + origin - origin') / (width * k) * (width * k) + origin' =
    (t - origin') / (width * k) * (width * k) + origin'
  -- both divide by the fine width first, and then count the same fine buckets
  have hfine : ∀ q : ℤ, (q * width + origin - origin') / width = q - m := by
    intro q
    have heq : q * width + origin - origin' = width * (q - m) := by
      calc q * width + origin - origin' = q * width - (origin' - origin) := by omega
        _ = q * width - width * m := by rw [hm]
        _ = width * (q - m) := by rw [Int.mul_sub, Int.mul_comm]
    rw [heq, Int.mul_ediv_cancel_left _ hwidth.ne']
  have hdirect : (t - origin') / width = (t - origin) / width - m := by
    have heq : t - origin' = t - origin + width * (-m) := by
      have hneg : width * (-m) = -(origin' - origin) := by rw [Int.mul_neg, hm]
      omega
    rw [heq, Int.add_mul_ediv_left _ _ hwidth.ne']
    omega
  rw [← Int.ediv_ediv_of_nonneg hwidth.le, ← Int.ediv_ediv_of_nonneg hwidth.le, hfine, hdirect]

/-- A fine bucket does not start before the coarse one it is in. -/
theorem start_le_start (h : C.Coarsens B) (t : ℤ) : C.start t ≤ B.start t := by
  rw [← h t]
  exact C.start_le _

/-- Of two moments in different buckets the one in the earlier bucket is the
earlier one. -/
theorem lt_of_start_lt {s t : ℤ} (h : B.start s < B.start t) : s < t := by
  by_contra hle
  exact absurd (B.start_mono (not_lt.mp hle)) (not_le.mpr h)

/-! ## The buckets of a window -/

/-- The starts of the buckets from the one that `lo` is in up to `hi`. -/
def buckets (B : Bucketing) (lo hi : ℤ) : List ℤ :=
  ((List.range (hi + 1 - B.start lo).toNat).map fun k : ℕ => B.start lo + (k : ℤ)).filter
    fun t => B.start t = t

/-- The buckets of a span are the starts within it, and the one it begins in. -/
theorem mem_buckets {lo hi b : ℤ} :
    b ∈ B.buckets lo hi ↔ (B.start lo ≤ b ∧ b ≤ hi) ∧ B.start b = b := by
  unfold buckets
  rw [List.mem_filter, List.mem_map, decide_eq_true_iff]
  refine and_congr_left fun _ => ?_
  constructor
  · intro h
    obtain ⟨k, hk, rfl⟩ := h
    rw [List.mem_range] at hk
    omega
  · intro h
    refine ⟨(b - B.start lo).toNat, ?_, by omega⟩
    rw [List.mem_range]
    omega

/-- They are in the order of time. -/
theorem pairwise_buckets (lo hi : ℤ) : (B.buckets lo hi).Pairwise (· < ·) := by
  unfold buckets
  apply List.Pairwise.filter
  rw [List.pairwise_map]
  apply List.pairwise_lt_range.imp
  intro a b hab
  omega

/-- The first bucket is the earliest. -/
theorem head_le_of_mem_buckets {lo hi b b' : ℤ} (h : b ∈ (B.buckets lo hi).head?)
    (hmem : b' ∈ B.buckets lo hi) : b ≤ b' := by
  have hsorted := pairwise_buckets (B := B) lo hi
  cases hl : B.buckets lo hi with
  | nil =>
    rw [hl] at h
    cases h
  | cons x l =>
    rw [hl] at h hmem hsorted
    obtain rfl : x = b := Option.some.inj h
    rcases List.mem_cons.mp hmem with heq | hmem
    · exact heq.ge
    · exact ((List.pairwise_cons.mp hsorted).1 _ hmem).le

/-- It is the one the span begins in. -/
theorem head?_buckets {lo hi : ℤ} (h : B.start lo ≤ hi) :
    (B.buckets lo hi).head? = some (B.start lo) := by
  have hmem : B.start lo ∈ B.buckets lo hi := mem_buckets.mpr ⟨⟨le_refl _, h⟩, B.start_start lo⟩
  obtain ⟨b, hb⟩ : ∃ b, (B.buckets lo hi).head? = some b := by
    rw [← Option.isSome_iff_exists, List.isSome_head?]
    exact List.ne_nil_of_mem hmem
  have hle := head_le_of_mem_buckets (B := B) hb hmem
  have hge := (mem_buckets.mp (List.mem_of_mem_head? hb)).1.1
  rw [hb, le_antisymm hle hge]

/-- The last one is the one the span ends in. -/
theorem getLast?_buckets {lo hi : ℤ} (h : lo ≤ hi) :
    (B.buckets lo hi).getLast? = some (B.start hi) := by
  have hmem : B.start hi ∈ B.buckets lo hi :=
    mem_buckets.mpr ⟨⟨B.start_mono h, B.start_le hi⟩, B.start_start hi⟩
  obtain ⟨l, b, hl⟩ : ∃ l b, B.buckets lo hi = l ++ [b] :=
    ⟨_, _, (List.dropLast_concat_getLast (List.ne_nil_of_mem hmem)).symm⟩
  have hsorted := pairwise_buckets (B := B) lo hi
  have hb : b ∈ B.buckets lo hi := by
    rw [hl]
    exact List.mem_append_right l (List.mem_singleton_self b)
  have hle := B.start_mono (mem_buckets.mp hb).1.2
  rw [(mem_buckets.mp hb).2] at hle
  rw [hl] at hmem hsorted
  rw [hl, List.getLast?_concat]
  rcases List.mem_append.mp hmem with hin | hin
  · have hlt := (List.pairwise_append.mp hsorted).2.2 _ hin b (List.mem_singleton_self b)
    omega
  · rw [List.mem_singleton.mp hin]

end Bucketing

end MxExchange.Collections
