import Mathlib.Data.Int.Notation
import Mathlib.Data.Nat.Notation
import Mathlib.Data.List.TakeWhile
import Mathlib.Tactic.IntervalCases

/-!
# Buffers and numbers from text

`Buffer.from` for hexadecimal and base64 text, `Buffer.toString` (also as
hexadecimal text), and `parseInt` for a base of sixteen, the way Node has them.
None of them fails on a string: hexadecimal text is read up to the first pair
that is none, base64 skips what is not of its alphabet up to a `=`, bytes that
are no UTF-8 become replacement characters, and `parseInt` is not a number if it
finds no digit.
-/

namespace MxExchange.Text

/-- A byte is a number below 256. -/
abbrev Byte := ℕ

/-- The value of a digit, of either case. -/
def hexDigit (c : Char) : Option ℕ :=
  if '0' ≤ c ∧ c ≤ '9' then some (c.toNat - '0'.toNat)
  else if 'a' ≤ c ∧ c ≤ 'f' then some (c.toNat - 'a'.toNat + 10)
  else if 'A' ≤ c ∧ c ≤ 'F' then some (c.toNat - 'A'.toNat + 10)
  else none

/-- `Buffer.from(text, 'hex')`. -/
def bufferFromHex : List Char → List Byte
  | high :: low :: rest =>
    match hexDigit high, hexDigit low with
    | some high, some low => (16 * high + low) :: bufferFromHex rest
    | _, _ => []
  | _ => []

/-- The lower-case digit. -/
def hexChar (digit : ℕ) : Char := "0123456789abcdef".toList.getD digit '0'

/-- `buffer.toString('hex')`. -/
def bufferToHex (bytes : List Byte) : List Char :=
  bytes.flatMap fun b => [hexChar (b / 16), hexChar (b % 16)]

theorem hexDigit_hexChar {digit : ℕ} (h : digit < 16) : hexDigit (hexChar digit) = some digit := by
  interval_cases digit <;> rfl

/-- Two digits a byte. -/
theorem length_bufferToHex (bytes : List Byte) : (bufferToHex bytes).length = 2 * bytes.length := by
  induction bytes with
  | nil => rfl
  | cons b bytes ih =>
    rw [bufferToHex, List.flatMap_cons, List.length_append, ← bufferToHex, ih]
    simp only [List.length_cons, List.length_nil]
    omega

/-- Bytes that are printed are read back. -/
theorem bufferFromHex_bufferToHex {bytes : List Byte} (h : ∀ b ∈ bytes, b < 256) :
    bufferFromHex (bufferToHex bytes) = bytes := by
  induction bytes with
  | nil => rfl
  | cons b bytes ih =>
    have hhigh : b / 16 < 16 := Nat.div_lt_of_lt_mul (h b List.mem_cons_self)
    have hlow : b % 16 < 16 := Nat.mod_lt b (by norm_num)
    show bufferFromHex (hexChar (b / 16) :: hexChar (b % 16) :: bufferToHex bytes) = _
    rw [bufferFromHex, hexDigit_hexChar hhigh, hexDigit_hexChar hlow]
    dsimp only
    rw [Nat.div_add_mod, ih fun c hc => h c (List.mem_cons_of_mem _ hc)]

/-- Two digits make a byte at most. -/
theorem length_bufferFromHex_le (text : List Char) :
    2 * (bufferFromHex text).length ≤ text.length := by
  fun_induction bufferFromHex text with
  | case1 high low rest h l _ _ ih =>
    rw [List.length_cons, List.length_cons, List.length_cons]
    omega
  | case2 => exact Nat.zero_le _
  | case3 => exact Nat.zero_le _

/-! ## Base64 -/

/-- The digits of both alphabets. -/
def base64Digit (c : Char) : Option ℕ :=
  if 'A' ≤ c ∧ c ≤ 'Z' then some (c.toNat - 'A'.toNat)
  else if 'a' ≤ c ∧ c ≤ 'z' then some (c.toNat - 'a'.toNat + 26)
  else if '0' ≤ c ∧ c ≤ '9' then some (c.toNat - '0'.toNat + 52)
  else if c = '+' ∨ c = '-' then some 62
  else if c = '/' ∨ c = '_' then some 63
  else none

/-- Four digits are three bytes; less are less. -/
def bytesOfBase64 : List ℕ → List Byte
  | a :: b :: c :: d :: rest =>
    (4 * a + b / 16) :: (b % 16 * 16 + c / 4) :: (c % 4 * 64 + d) :: bytesOfBase64 rest
  | [a, b, c] => [4 * a + b / 16, b % 16 * 16 + c / 4]
  | [a, b] => [4 * a + b / 16]
  | _ => []

/-- `Buffer.from(text, 'base64')`. -/
def bufferFromBase64 (text : List Char) : List Byte :=
  bytesOfBase64 ((text.takeWhile fun c => c ≠ '=').filterMap base64Digit)

/-! ## UTF-8 -/

/-- A character that is not yet complete: how many bytes it still needs, what
the next one may be, and the code point so far. -/
structure Pending where
  needed : ℕ
  lower : Byte
  upper : Byte
  codePoint : ℕ

/-- What a decoder puts for bytes that are no character. -/
def replacement : Char := Char.ofNat 0xFFFD

/-- A byte at the start of a character. -/
def utf8Start (b : Byte) : List Char × Option Pending :=
  if b < 0x80 then ([Char.ofNat b], none)
  else if 0xC2 ≤ b ∧ b ≤ 0xDF then ([], some ⟨1, 0x80, 0xBF, b - 0xC0⟩)
  else if 0xE0 ≤ b ∧ b ≤ 0xEF then
    ([], some ⟨2, if b = 0xE0 then 0xA0 else 0x80, if b = 0xED then 0x9F else 0xBF, b - 0xE0⟩)
  else if 0xF0 ≤ b ∧ b ≤ 0xF4 then
    ([], some ⟨3, if b = 0xF0 then 0x90 else 0x80, if b = 0xF4 then 0x8F else 0xBF, b - 0xF0⟩)
  else ([replacement], none)

/-- A byte, with what is pending of a character. -/
def utf8Byte (pending : Option Pending) (b : Byte) : List Char × Option Pending :=
  match pending with
  | none => utf8Start b
  | some p =>
    if p.lower ≤ b ∧ b ≤ p.upper then
      let codePoint := p.codePoint * 64 + (b - 0x80)
      if p.needed = 1 then ([Char.ofNat codePoint], none)
      else ([], some ⟨p.needed - 1, 0x80, 0xBF, codePoint⟩)
    else
      -- what was begun is replaced, and the byte begins anew
      let (chars, pending) := utf8Start b
      (replacement :: chars, pending)

/-- Text that breaks off ends with a replacement. -/
def utf8Decode : Option Pending → List Byte → List Char
  | none, [] => []
  | some _, [] => [replacement]
  | pending, b :: bytes =>
    let (chars, pending) := utf8Byte pending b
    chars ++ utf8Decode pending bytes

/-- `buffer.toString()`. -/
def bufferToString (bytes : List Byte) : List Char := utf8Decode none bytes

/-- A character of ASCII is one byte. -/
theorem bufferToString_ascii {text : List Char} (h : ∀ c ∈ text, c.toNat < 128) :
    bufferToString (text.map Char.toNat) = text := by
  unfold bufferToString
  induction text with
  | nil => rfl
  | cons c text ih =>
    have hc : c.toNat < 0x80 := h c List.mem_cons_self
    rw [List.map_cons, utf8Decode, utf8Byte, utf8Start, if_pos hc, Char.ofNat_toNat]
    show c :: utf8Decode none (text.map Char.toNat) = _
    rw [ih fun d hd => h d (List.mem_cons_of_mem c hd)]

/-! ## Numbers -/

/-- White space and line ends. -/
def isStrWhiteSpace (c : Char) : Bool :=
  let n := c.toNat
  (0x9 ≤ n && n ≤ 0xD) || n = 0x20 || n = 0xA0 || n = 0x1680 || (0x2000 ≤ n && n ≤ 0x200A) ||
    n = 0x2028 || n = 0x2029 || n = 0x202F || n = 0x205F || n = 0x3000 || n = 0xFEFF

def dropHexMark : List Char → List Char
  | '0' :: 'x' :: rest => rest
  | '0' :: 'X' :: rest => rest
  | text => text

/-- The digits at the front, if there is one. -/
def parseHexDigits (text : List Char) : Option ℕ :=
  match text.takeWhile fun c => (hexDigit c).isSome with
  | [] => none
  | digits => some (digits.foldl (fun n c => 16 * n + (hexDigit c).getD 0) 0)

/-- `parseInt(text, 16)`, `NaN` as none. -/
def parseInt16 (text : List Char) : Option ℤ :=
  match text.dropWhile isStrWhiteSpace with
  | '-' :: rest => (parseHexDigits (dropHexMark rest)).map fun n => -(n : ℤ)
  | '+' :: rest => (parseHexDigits (dropHexMark rest)).map fun n => (n : ℤ)
  | rest => (parseHexDigits (dropHexMark rest)).map fun n => (n : ℤ)

/-! Numbers that have been printed, with any zeros before them. -/

/-- The number the digits stand for, `0` for what is no digit. -/
def hexValue (digits : List Char) : ℕ :=
  digits.foldl (fun n c => 16 * n + (hexDigit c).getD 0) 0

theorem isSome_hexDigit_iff_ne {c d : Char} (h : (hexDigit c).isSome) (hd : hexDigit d = none) :
    c ≠ d := by
  rintro rfl
  rw [hd] at h
  cases h

/-- No digit is a blank. -/
theorem isStrWhiteSpace_of_hexDigit {c : Char} (h : (hexDigit c).isSome) :
    isStrWhiteSpace c = false := by
  have hrange : (48 ≤ c.toNat ∧ c.toNat ≤ 57) ∨ (97 ≤ c.toNat ∧ c.toNat ≤ 102) ∨
      (65 ≤ c.toNat ∧ c.toNat ≤ 70) := by
    unfold hexDigit at h
    split at h
    next hdigit => exact Or.inl hdigit
    next =>
      split at h
      next hlower => exact Or.inr (Or.inl hlower)
      next =>
        split at h
        next hupper => exact Or.inr (Or.inr hupper)
        next => cases h
  unfold isStrWhiteSpace
  simp only [Bool.or_eq_false_iff, Bool.and_eq_false_iff, decide_eq_false_iff_not]
  omega

theorem dropHexMark_of_hexDigits {text : List Char} (h : ∀ c ∈ text, (hexDigit c).isSome) :
    dropHexMark text = text := by
  unfold dropHexMark
  split
  next rest => exact absurd (h 'x' (by simp)) (by decide)
  next rest => exact absurd (h 'X' (by simp)) (by decide)
  next => rfl

/-- Digits are read to their end. -/
theorem parseInt16_of_hexDigits {text : List Char} (hne : text ≠ [])
    (h : ∀ c ∈ text, (hexDigit c).isSome) : parseInt16 text = some (hexValue text : ℤ) := by
  obtain ⟨c, rest, rfl⟩ := List.exists_cons_of_ne_nil hne
  have hc := h c List.mem_cons_self
  have hdigits : parseHexDigits (c :: rest) = some (hexValue (c :: rest)) := by
    unfold parseHexDigits
    rw [List.takeWhile_eq_self_iff.mpr h]
    rfl
  have hstart : (c :: rest).dropWhile isStrWhiteSpace = c :: rest := by
    rw [List.dropWhile_cons, isStrWhiteSpace_of_hexDigit hc]
    rfl
  unfold parseInt16
  rw [hstart]
  split
  next heq => exact absurd (List.cons.inj heq).1 (isSome_hexDigit_iff_ne hc (by decide))
  next heq => exact absurd (List.cons.inj heq).1 (isSome_hexDigit_iff_ne hc (by decide))
  next =>
    rw [dropHexMark_of_hexDigits h, hdigits]
    rfl

theorem hexDigit_digitChar {digit : ℕ} (h : digit < 16) :
    hexDigit digit.digitChar = some digit := by
  interval_cases digit <;> rfl

/-- One more digit counts sixteen times what was there. -/
theorem hexValue_append (digits : List Char) (c : Char) :
    hexValue (digits ++ [c]) = 16 * hexValue digits + (hexDigit c).getD 0 := by
  rw [hexValue, List.foldl_append]
  rfl

/-- What is printed to the base of sixteen, read again. -/
theorem hexValue_toDigits (n : ℕ) :
    hexValue (Nat.toDigits 16 n) = n ∧ ∀ c ∈ Nat.toDigits 16 n, (hexDigit c).isSome := by
  induction n using Nat.strongRecOn with
  | ind n ih =>
    by_cases hn : n < 16
    · have hdigit := hexDigit_digitChar hn
      rw [Nat.toDigits_of_lt_base hn]
      refine ⟨?_, fun c hc => ?_⟩
      · show 16 * 0 + (hexDigit n.digitChar).getD 0 = n
        rw [hdigit, Option.getD_some, Nat.mul_zero, Nat.zero_add]
      · rw [List.mem_singleton.mp hc, hdigit]
        rfl
    · have hle : 16 ≤ n := Nat.le_of_not_lt hn
      obtain ⟨hvalue, hdigits⟩ := ih (n / 16) (Nat.div_lt_self (by omega) (by omega))
      have hdigit := hexDigit_digitChar (Nat.mod_lt n (by omega : 0 < 16))
      rw [Nat.toDigits_of_base_le (by omega) hle]
      refine ⟨?_, fun c hc => ?_⟩
      · rw [hexValue_append, hvalue, hdigit, Option.getD_some]
        exact Nat.div_add_mod n 16
      · rcases List.mem_append.mp hc with hc | hc
        · exact hdigits c hc
        · rw [List.mem_singleton.mp hc, hdigit]
          rfl

example : bufferToString (bufferFromHex "656e7465724661726d".toList) = "enterFarm".toList := by
  decide

end MxExchange.Text
