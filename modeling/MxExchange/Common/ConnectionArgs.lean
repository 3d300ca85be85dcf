import Mathlib.Data.Int.Notation
import Mathlib.Data.List.TakeWhile
import MxExchange.Text.Buffer

/-!
# `connection.args.ts`: which page is asked for

A client asks for a page forward, so many items after a cursor, or backward,
so many before one. A cursor is a global id of graphql-relay that holds the
offset of an item. `checkPagingSanity` refuses what is neither, and
`getPagingParameters` makes an offset and a limit of the rest: for a page
forward those right behind the cursor (`getPagingParameters_after`), for a
page backward those up to the cursor, of which there may be fewer than asked
for (`getPagingParameters_before`).
-/

namespace MxExchange.Common

open MxExchange.Text

/-! ## Numbers to the base of ten -/

/-- The decimal digits at the front, if there is one. -/
def parseDigits (text : List Char) : Option ℕ :=
  match text.takeWhile Char.isDigit with
  | [] => none
  | digits => some (Nat.ofDigitChars 10 digits 0)

/-- `parseInt(text, 10)`, `NaN` as none. -/
def parseInt10 (text : List Char) : Option ℤ :=
  match text.dropWhile isStrWhiteSpace with
  | '-' :: rest => (parseDigits rest).map fun n => -(n : ℤ)
  | '+' :: rest => (parseDigits rest).map fun n => (n : ℤ)
  | rest => (parseDigits rest).map fun n => (n : ℤ)

theorem isStrWhiteSpace_of_isDigit {c : Char} (h : c.isDigit) : isStrWhiteSpace c = false := by
  have hrange : 48 ≤ c.toNat ∧ c.toNat ≤ 57 := by
    simpa [Char.isDigit, UInt32.le_iff_toNat_le] using h
  unfold isStrWhiteSpace
  simp only [Bool.or_eq_false_iff, Bool.and_eq_false_iff, decide_eq_false_iff_not]
  omega

/-- What is printed is read again. -/
theorem parseInt10_toDigits (n : ℕ) : parseInt10 (Nat.toDigits 10 n) = some (n : ℤ) := by
  have hdigits : ∀ c ∈ Nat.toDigits 10 n, c.isDigit := fun c hc =>
    Nat.isDigit_of_mem_toDigits (by omega) (by omega) hc
  obtain ⟨c, rest, hn⟩ := List.exists_cons_of_ne_nil (Nat.toDigits_ne_nil (n := n) (b := 10))
  have hc : c.isDigit := hdigits c (by rw [hn]; exact List.mem_cons_self)
  have hparse : parseDigits (Nat.toDigits 10 n) = some n := by
    unfold parseDigits
    rw [List.takeWhile_eq_self_iff.mpr hdigits, hn]
    show some (Nat.ofDigitChars 10 (c :: rest) 0) = some n
    rw [← hn, Nat.ofDigitChars_ten_toDigits]
  have hstart : (Nat.toDigits 10 n).dropWhile isStrWhiteSpace = Nat.toDigits 10 n := by
    rw [hn, List.dropWhile_cons, isStrWhiteSpace_of_isDigit hc]
    rfl
  unfold parseInt10
  rw [hstart]
  split
  next heq =>
    rw [hn] at heq
    obtain ⟨rfl, -⟩ := List.cons.inj heq
    exact absurd hc (by decide)
  next heq =>
    rw [hn] at heq
    obtain ⟨rfl, -⟩ := List.cons.inj heq
    exact absurd hc (by decide)
  next => rw [hparse]; rfl

/-! ## Which way -/

/-- The arguments of a page, each of which may be left out. -/
structure ConnectionArgs where
  before : Option String := none
  after : Option String := none
  first : Option ℤ := none
  last : Option ℤ := none

/-- How a request is paged. -/
inductive PagingMeta where
  | forward (after : Option String) (first : ℤ)
  | backward (before : Option String) (last : ℤ)
  | none

/-- A string that is there, and not empty. -/
def given (text : Option String) : Bool := text.any fun text => text ≠ ""

/-- Which of the three ways a request asks for, or why it is refused. -/
def checkPagingSanity (args : Option ConnectionArgs) : Except String PagingMeta :=
  match args with
  | none => .ok .none
  | some args =>
    let first := args.first.getD 0
    let last := args.last.getD 0
    let isForwardPaging := first ≠ 0 || given args.after
    let isBackwardPaging := last ≠ 0 || given args.before
    if isForwardPaging && isBackwardPaging then
      .error "Relay pagination cannot be both forward and backward!"
    else if (isForwardPaging && given args.before) || (isBackwardPaging && given args.after) then
      .error "Paging must use either first/after or last/before!"
    else if (isForwardPaging && first < 0) || (isBackwardPaging && last < 0) then
      .error "Paging limit must be positive!"
    else if last ≠ 0 && !given args.before then
      .error "When paging backwards, a 'before' argument is required!"
    else if isForwardPaging then .ok (.forward args.after first)
    else if isBackwardPaging then .ok (.backward args.before last)
    else .ok .none

/-! ## Offset and limit -/

/-- An offset that is not a number is none. -/
structure PaginationArgs where
  offset : Option ℤ
  limit : ℤ

section Sanity

variable {n : ℤ} {cursor : String}

/-- The first page. -/
theorem checkPagingSanity_first (hn : 0 < n) :
    checkPagingSanity (some { first := some n }) = .ok (.forward none n) := by
  have hne : n ≠ 0 := by omega
  have hpos : ¬n < 0 := by omega
  simp [checkPagingSanity, given, hne, hpos]

/-- A page forward from a cursor. -/
theorem checkPagingSanity_after (hn : 0 < n) (hcursor : cursor ≠ "") :
    checkPagingSanity (some { first := some n, after := some cursor }) =
      .ok (.forward (some cursor) n) := by
  have hne : n ≠ 0 := by omega
  have hpos : ¬n < 0 := by omega
  simp [checkPagingSanity, given, hne, hpos, hcursor]

/-- A page backward from a cursor. -/
theorem checkPagingSanity_before (hn : 0 < n) (hcursor : cursor ≠ "") :
    checkPagingSanity (some { last := some n, before := some cursor }) =
      .ok (.backward (some cursor) n) := by
  have hne : n ≠ 0 := by omega
  have hpos : ¬n < 0 := by omega
  simp [checkPagingSanity, given, hne, hpos, hcursor]

end Sanity

section Paging

-- `fromGlobalId` stands for `fromGlobalId(cursor).id` of graphql-relay
variable (fromGlobalId : String → String)

/-- The offset in a cursor. -/
def getId (cursor : String) : Option ℤ := parseInt10 (fromGlobalId cursor).toList

/-- The offset behind it. -/
def nextId (cursor : String) : Option ℤ := (getId fromGlobalId cursor).map (· + 1)

/-- The parameters, and the arguments as they are afterwards: without a page
asked for the first ten are shown, and the arguments say so. -/
def getPagingParameters (args : Option ConnectionArgs) :
    Except String (PaginationArgs × Option ConnectionArgs) :=
  match checkPagingSanity args with
  | .error message => .error message
  | .ok (.forward after first) =>
    let offset := match after with
      | some after => if given (some after) then nextId fromGlobalId after else some 0
      | none => some 0
    .ok ({ offset, limit := first }, args)
  | .ok (.backward before last) =>
    match (getId fromGlobalId (before.getD "")).map (· - last) with
    | some offset =>
      if offset < 0 then .ok ({ offset := some 0, limit := max (last + offset) 0 }, args)
      else .ok ({ offset := some offset, limit := last }, args)
    | none => .ok ({ offset := none, limit := last }, args)
  | .ok .none =>
    .ok ({ offset := some 0, limit := 10 }, args.map fun args => { args with first := some 10 })

variable {fromGlobalId : String → String} {n : ℤ} {cursor : String}

/-- An offset that was printed is read back. -/
theorem getId_of_toString {i : ℕ} (hid : fromGlobalId cursor = toString i) :
    getId fromGlobalId cursor = some (i : ℤ) := by
  unfold getId
  rw [hid]
  show parseInt10 (Nat.repr i).toList = _
  rw [Nat.toList_repr, parseInt10_toDigits]

/-- A page from the start. -/
theorem getPagingParameters_first (hn : 0 < n) :
    getPagingParameters fromGlobalId (some { first := some n }) =
      .ok ({ offset := some 0, limit := n }, some { first := some n }) := by
  unfold getPagingParameters
  rw [checkPagingSanity_first hn]

/-- A page forward begins right behind its cursor. -/
theorem getPagingParameters_after {a : ℕ} (hn : 0 < n) (hcursor : cursor ≠ "")
    (hid : fromGlobalId cursor = toString a) :
    getPagingParameters fromGlobalId (some { first := some n, after := some cursor }) =
      .ok ({ offset := some (a + 1), limit := n },
        some { first := some n, after := some cursor }) := by
  have hnext : nextId fromGlobalId cursor = some (a + 1 : ℤ) := by
    rw [nextId, getId_of_toString hid, Option.map_some]
  have hgiven : given (some cursor) = true := by simp [given, hcursor]
  unfold getPagingParameters
  rw [checkPagingSanity_after hn hcursor]
  simp only [hgiven, if_true, hnext]

/-- A page backward ends right before its cursor. -/
theorem getPagingParameters_before {b : ℕ} (hn : 0 < n) (hcursor : cursor ≠ "")
    (hid : fromGlobalId cursor = toString b) :
    ∃ offset limit : ℕ, getPagingParameters fromGlobalId
        (some { last := some n, before := some cursor }) =
      .ok ({ offset := some (offset : ℤ), limit := limit },
        some { last := some n, before := some cursor }) ∧
      offset + limit = b ∧ (limit : ℤ) = min n b := by
  have hoffset : (getId fromGlobalId ((some cursor).getD "")).map (· - n) = some (b - n : ℤ) := by
    rw [Option.getD_some, getId_of_toString hid, Option.map_some]
  unfold getPagingParameters
  rw [checkPagingSanity_before hn hcursor]
  simp only [hoffset]
  by_cases hlt : (b : ℤ) - n < 0
  · -- fewer items than asked for are before the cursor
    refine ⟨0, b, ?_, by omega, by omega⟩
    rw [if_pos hlt]
    have hmax : max (n + ((b : ℤ) - n)) 0 = b := by omega
    rw [hmax]
    rfl
  · refine ⟨((b : ℤ) - n).toNat, n.toNat, ?_, by omega, by omega⟩
    rw [if_neg hlt]
    have hsub : (((b : ℤ) - n).toNat : ℤ) = b - n := by omega
    have hlimit : (n.toNat : ℤ) = n := by omega
    rw [hsub, hlimit]

end Paging

end MxExchange.Common
