import Mathlib.Data.List.Infix

/-!
# Splitting a text at a separator

`includes` and `split` as strings have them: the separator is searched from the
left, and what was found is not searched again. A separator is not empty.

The first occurrence decides (`FirstAt`): what stands before it is the first part
(`upTo`), and the rest is split the same way (`split_of_firstAt`). A field between
two markers is read back as it is where neither marker occurs in it, provided that
no occurrence can lie across its end, and is cut short where one does
(`between_field`, `length_between_lt`).
-/

namespace MxExchange.Text

variable {α : Type}

/-! ## The first occurrence -/

/-- The first occurrence of a separator: none is found before its end. -/
structure FirstAt (separator before after text : List α) : Prop where
  text_eq : text = before ++ separator ++ after
  first : ¬ separator <:+: before ++ separator.dropLast

section FirstOccurrence

variable {separator before after text : List α}

theorem not_infix_dropLast (h : separator ≠ []) : ¬ separator <:+: separator.dropLast := by
  intro hin
  have hle := hin.length_le
  have hpos := List.length_pos_iff.mpr h
  rw [List.length_dropLast] at hle
  omega

theorem dropLast_prefix_append (before separator after : List α) :
    before ++ separator.dropLast <+: before ++ separator ++ after := by
  rw [List.append_assoc]
  refine (List.prefix_append_right_inj before).mpr ?_
  exact (List.dropLast_prefix separator).trans (List.prefix_append _ _)

/-- Every other occurrence is to the right. -/
theorem FirstAt.length_le (h : FirstAt separator before after text) (hne : separator ≠ [])
    {u v : List α} (hother : text = u ++ separator ++ v) : before.length ≤ u.length := by
  by_contra hlt
  have hpos := List.length_pos_iff.mpr hne
  have hdrop : before ++ separator.dropLast <+: text := by
    rw [h.text_eq]
    exact dropLast_prefix_append before separator after
  have hprefix : u ++ separator <+: before ++ separator.dropLast := by
    refine List.prefix_of_prefix_length_le ⟨v, hother.symm⟩ hdrop ?_
    rw [List.length_append, List.length_append, List.length_dropLast]
    omega
  exact h.first ((List.suffix_append u separator).isInfix.trans hprefix.isInfix)

/-- A separator that occurs has a first occurrence. -/
theorem exists_firstAt (hne : separator ≠ []) (h : separator <:+: text) :
    ∃ before after, FirstAt separator before after text := by
  induction text with
  | nil => exact absurd (List.eq_nil_of_infix_nil h) hne
  | cons c text ih =>
    by_cases hprefix : separator <+: c :: text
    · obtain ⟨after, hafter⟩ := hprefix
      exact ⟨[], after, hafter.symm, not_infix_dropLast hne⟩
    · obtain ⟨before, after, hfirst⟩ := ih ((List.infix_cons_iff.mp h).resolve_left hprefix)
      refine ⟨c :: before, after, by rw [hfirst.text_eq]; rfl, ?_⟩
      intro hin
      rcases List.infix_cons_iff.mp hin with hstart | hin
      · -- an occurrence at the very start
        refine hprefix (hstart.trans ?_)
        rw [hfirst.text_eq]
        exact dropLast_prefix_append (c :: before) separator after
      · exact hfirst.first hin

theorem firstAt_append (hne : separator ≠ []) (text : List α) :
    FirstAt separator [] text (separator ++ text) := ⟨rfl, not_infix_dropLast hne⟩

end FirstOccurrence

/-! ## Occurrences that cannot lie across an end -/

section Overlap

variable {c : α} {l xs ys u v : List α}

/-- What ends with a character that does not follow is not found further on. -/
theorem infix_of_last_not_mem (h : c ∉ ys) (hin : l ++ [c] <:+: xs ++ ys) : l ++ [c] <:+: xs := by
  rcases List.infix_append_iff.mp hin with hxs | hys | ⟨l₁, l₂, hl, hsuffix, hbegins⟩
  · exact hxs
  · exact absurd (hys.subset (by simp)) h
  · rcases List.eq_nil_or_concat l₂ with rfl | ⟨l₃, d, rfl⟩
    · rw [hl, List.append_nil]
      exact hsuffix.isInfix
    · rw [List.concat_eq_append, ← List.append_assoc] at hl
      have hlast : [c] = [d] := (List.append_inj' hl rfl).2
      rw [List.singleton_inj.mp hlast] at h
      exact absurd (hbegins.subset (by simp)) h

/-- What does not have a character lies before it or after it. -/
theorem before_or_after_of_not_mem (h : c ∉ l) (heq : u ++ l ++ v = xs ++ c :: ys) :
    (∃ t, xs = u ++ l ++ t) ∨ ∃ t, u = xs ++ c :: t := by
  rcases List.append_eq_append_iff.mp heq with ⟨t, ht, -⟩ | ⟨t, ht, hrest⟩
  · exact Or.inl ⟨t, ht⟩
  · cases t with
    | nil => exact Or.inl ⟨[], by rw [List.append_nil] at ht ⊢; exact ht.symm⟩
    | cons d t =>
      obtain rfl : c = d := by
        rw [List.cons_append, List.cons.injEq] at hrest
        exact hrest.1
      rcases List.append_eq_append_iff.mp ht with ⟨s, hs, hl⟩ | ⟨s, hs, hl⟩
      · exact absurd (by rw [hl]; simp) h
      · cases s with
        | nil => exact absurd (by rw [List.nil_append] at hl; rw [← hl]; simp) h
        | cons e s =>
          rw [List.cons_append, List.cons.injEq] at hl
          exact Or.inr ⟨s, by rw [hs, hl.1]⟩

end Overlap

/-! ## Splitting -/

variable [DecidableEq α]

/-- `text.includes(sought)`. -/
def includes (text sought : List α) : Bool := decide (sought <:+: text)

/-- `text.split(separator)`, with so much of a separator still to be left out. -/
def splitFrom (separator : List α) : ℕ → List α → List (List α)
  | _, [] => [[]]
  | skip + 1, _ :: text => splitFrom separator skip text
  | 0, c :: text =>
    if separator <+: c :: text then [] :: splitFrom separator (separator.length - 1) text
    else (splitFrom separator 0 text).modifyHead (c :: ·)

/-- `text.split(separator)`. -/
def split (separator text : List α) : List (List α) := splitFrom separator 0 text

/-- `text.split(first)[1].split(second)[0]`. -/
def between (first second text : List α) : Option (List α) :=
  (split first text)[1]?.bind fun part => (split second part)[0]?

section Split

variable {separator before after text : List α}

theorem splitFrom_skip (l text : List α) :
    splitFrom separator l.length (l ++ text) = splitFrom separator 0 text := by
  induction l with
  | nil => rfl
  | cons c l ih => exact ih

/-- Without a separator the text is the only part. -/
theorem split_of_absent (h : ¬ separator <:+: text) : split separator text = [text] := by
  unfold split
  induction text with
  | nil => rfl
  | cons c text ih =>
    have hparts := not_or.mp (mt List.infix_cons_iff.mpr h)
    rw [splitFrom, if_neg hparts.1, ih hparts.2]
    rfl

/-- The first part ends at the first separator. -/
theorem split_of_firstAt (hne : separator ≠ []) (h : FirstAt separator before after text) :
    split separator text = before :: split separator after := by
  obtain ⟨rfl, hfirst⟩ := h
  unfold split
  induction before with
  | nil =>
    cases separator with
    | nil => exact absurd rfl hne
    | cons c separator =>
      have hprefix : c :: separator <+: c :: (separator ++ after) :=
        List.prefix_append (c :: separator) after
      show splitFrom (c :: separator) 0 (c :: (separator ++ after)) = _
      rw [splitFrom, if_pos hprefix]
      exact congrArg _ (splitFrom_skip separator after)
  | cons c before ih =>
    have hparts := not_or.mp (mt List.infix_cons_iff.mpr hfirst)
    have hprefix : ¬ separator <+: c :: (before ++ separator ++ after) := by
      intro hin
      have hpos := List.length_pos_iff.mpr hne
      have hdrop := dropLast_prefix_append (c :: before) separator after
      have hlength : separator.length ≤ (c :: before ++ separator.dropLast).length := by
        rw [List.length_append, List.length_cons, List.length_dropLast]
        omega
      exact hparts.1 (List.prefix_of_prefix_length_le hin hdrop hlength)
    show splitFrom separator 0 (c :: (before ++ separator ++ after)) = _
    rw [splitFrom, if_neg hprefix, ih hparts.2]
    rfl

/-- The text up to the first separator, or all of it. -/
def upTo (separator text : List α) : List α := (split separator text).headD []

theorem upTo_of_absent (h : ¬ separator <:+: text) : upTo separator text = text := by
  rw [upTo, split_of_absent h]
  rfl

/-- What stands before the first separator. -/
theorem upTo_of_firstAt (hne : separator ≠ []) (h : FirstAt separator before after text) :
    upTo separator text = before := by
  rw [upTo, split_of_firstAt hne h]
  rfl

/-- The text begins with it. -/
theorem upTo_isPrefix (hne : separator ≠ []) (text : List α) : upTo separator text <+: text := by
  by_cases hin : separator <:+: text
  · obtain ⟨before, after, hfirst⟩ := exists_firstAt hne hin
    rw [upTo_of_firstAt hne hfirst, hfirst.text_eq, List.append_assoc]
    exact List.prefix_append _ _
  · rw [upTo_of_absent hin]

/-- It is no longer than what stands before any separator. -/
theorem length_upTo_le (hne : separator ≠ []) {u v : List α} (h : text = u ++ separator ++ v) :
    (upTo separator text).length ≤ u.length := by
  obtain ⟨before, after, hfirst⟩ := exists_firstAt hne ⟨u, v, h.symm⟩
  rw [upTo_of_firstAt hne hfirst]
  exact hfirst.length_le hne h

/-- The first part is what stands before the first separator. -/
theorem getElem?_zero_split (hne : separator ≠ []) (text : List α) :
    (split separator text)[0]? = some (upTo separator text) := by
  by_cases hin : separator <:+: text
  · obtain ⟨before, after, hfirst⟩ := exists_firstAt hne hin
    rw [upTo_of_firstAt hne hfirst, split_of_firstAt hne hfirst]
    rfl
  · rw [upTo_of_absent hin, split_of_absent hin]
    rfl

/-- The second is what stands between the first two. -/
theorem getElem?_one_split (hne : separator ≠ []) (h : FirstAt separator before after text) :
    (split separator text)[1]? = some (upTo separator after) := by
  rw [split_of_firstAt hne h, List.getElem?_cons_succ, getElem?_zero_split hne]

/-- What follows a separator at the start, up to the next one. -/
theorem getElem?_one_split_append (hne : separator ≠ []) (text : List α) :
    (split separator (separator ++ text))[1]? = some (upTo separator text) :=
  getElem?_one_split hne (firstAt_append hne text)

theorem length_upTo_lt {field : List α} (hne : separator ≠ []) (h : separator <:+: field)
    (rest : List α) :
    (upTo separator (field ++ rest)).length < field.length := by
  obtain ⟨u, v, huv⟩ := h
  have hpos := List.length_pos_iff.mpr hne
  have hle : (upTo separator (field ++ rest)).length ≤ u.length := by
    refine length_upTo_le (v := v ++ rest) hne ?_
    rw [← huv, List.append_assoc]
  have hlength := congrArg List.length huv
  rw [List.length_append, List.length_append] at hlength
  omega

end Split

/-! ## A field between two markers -/

/-- The last character of the first marker is not in the second, and that of the
second nowhere else in the two. So none of them is found across the end of what
stands before the second. -/
structure Separate (first second : List α) : Prop where
  first_last : ∃ init last, first = init ++ [last] ∧ last ∉ second
  second_last : ∃ init last, second = init ++ [last] ∧ last ∉ init ∧ last ∉ first

section Field

variable {first second field rest : List α}

omit [DecidableEq α] in
theorem Separate.first_ne (h : Separate first second) : first ≠ [] := by
  obtain ⟨init, last, rfl, -⟩ := h.first_last
  simp

omit [DecidableEq α] in
theorem Separate.second_ne (h : Separate first second) : second ≠ [] := by
  obtain ⟨init, last, rfl, -⟩ := h.second_last
  simp

/-- What stands between the names, if the text begins with the first. -/
theorem between_append (h : Separate first second) (text : List α) :
    between first second (first ++ text) = some (upTo second (upTo first text)) := by
  rw [between, getElem?_one_split_append h.first_ne]
  exact getElem?_zero_split h.second_ne _

/-- The next first marker is not before the second one. -/
theorem exists_upTo_eq (h : Separate first second) (hfield : ¬ first <:+: field)
    (rest : List α) :
    ∃ w, upTo first (field ++ second ++ rest) = field ++ second ++ w := by
  by_cases hin : first <:+: field ++ second ++ rest
  · obtain ⟨before, after, hat⟩ := exists_firstAt h.first_ne hin
    rw [upTo_of_firstAt h.first_ne hat]
    obtain ⟨init, last, rfl, hinit, hlast⟩ := h.second_last
    have heq : before ++ first ++ after = (field ++ init) ++ last :: rest := by
      rw [← hat.text_eq]
      simp
    rcases before_or_after_of_not_mem hlast heq with ⟨t, ht⟩ | ⟨t, ht⟩
    · obtain ⟨init', last', rfl, hlast'⟩ := h.first_last
      have hearly : init' ++ [last'] <:+: field ++ init := ⟨before, t, ht.symm⟩
      exact absurd (infix_of_last_not_mem (fun hmem => hlast' (by simp [hmem])) hearly) hfield
    · exact ⟨t, by rw [ht]; simp⟩
  · exact ⟨rest, upTo_of_absent hin⟩

/-- A field without the names is found. -/
theorem between_field (h : Separate first second) (hfirst : ¬ first <:+: field)
    (hsecond : ¬ second <:+: field) :
    between first second (first ++ (field ++ second ++ rest)) = some field := by
  obtain ⟨w, hw⟩ := exists_upTo_eq h hfirst rest
  have hat : FirstAt second field w (field ++ second ++ w) := by
    refine ⟨rfl, ?_⟩
    obtain ⟨init, last, rfl, hinit, -⟩ := h.second_last
    rw [List.dropLast_concat]
    exact fun hin => hsecond (infix_of_last_not_mem hinit hin)
  rw [between_append h, hw, upTo_of_firstAt h.second_ne hat]

/-- With a marker in it a field is cut short. -/
theorem length_between_lt (h : Separate first second)
    (hmarker : first <:+: field ∨ second <:+: field) (rest : List α) :
    ∃ part, between first second (first ++ (field ++ second ++ rest)) = some part ∧
      part.length < field.length := by
  refine ⟨_, between_append h _, ?_⟩
  have hinner := (upTo_isPrefix h.second_ne (upTo first (field ++ second ++ rest))).length_le
  by_cases hshort : (upTo first (field ++ second ++ rest)).length < field.length
  · omega
  rw [List.append_assoc] at hshort ⊢
  have hfield : ¬ first <:+: field := fun hin => hshort (length_upTo_lt h.first_ne hin _)
  have hprefix : field <+: upTo first (field ++ (second ++ rest)) :=
    List.prefix_of_prefix_length_le (List.prefix_append _ _) (upTo_isPrefix h.first_ne _) (by omega)
  obtain ⟨w, hw⟩ := hprefix
  rw [← hw]
  exact length_upTo_lt h.second_ne (hmarker.resolve_left hfield) w

end Field

end MxExchange.Text
