import Mathlib.Data.List.TakeWhile
import MxExchange.Text.Buffer

/-!
# Buffers as base64 text

`buffer.toString('base64')`: three bytes make four digits, and what is left
over at the end is filled up with `=`. `Buffer.from` for base64 text reads it
back (`bufferFromBase64_bufferToBase64`).
-/

namespace MxExchange.Text

/-- The digit of six bits. -/
def base64Char (digit : ℕ) : Char :=
  "ABCDEFGHIJKLMNOPQRSTUVWXYZabcdefghijklmnopqrstuvwxyz0123456789+/".toList.getD digit 'A'

/-- Three bytes are four digits. -/
def base64OfBytes : List ℕ → List ℕ
  | a :: b :: c :: rest =>
    (a / 4) :: (a % 4 * 16 + b / 16) :: (b % 16 * 4 + c / 64) :: (c % 64) :: base64OfBytes rest
  | [a, b] => [a / 4, a % 4 * 16 + b / 16, b % 16 * 4]
  | [a] => [a / 4, a % 4 * 16]
  | [] => []

/-- The filling of a text with so many bytes. -/
def padding (length : ℕ) : List Char :=
  match length % 3 with
  | 1 => ['=', '=']
  | 2 => ['=']
  | _ => []

/-- `buffer.toString('base64')`. -/
def bufferToBase64 (bytes : List Byte) : List Char :=
  (base64OfBytes bytes).map base64Char ++ padding bytes.length

/-- Reading a digit gives its bits. -/
theorem base64Digit_base64Char : ∀ digit < 64, base64Digit (base64Char digit) = some digit := by
  decide +kernel

/-- No digit is the padding. -/
theorem base64Char_ne_padding : ∀ digit < 64, base64Char digit ≠ '=' := by
  decide +kernel

/-- Bytes make digits, and those make the bytes again. -/
theorem bytesOfBase64_base64OfBytes {bytes : List ℕ} (h : ∀ b ∈ bytes, b < 256) :
    (∀ digit ∈ base64OfBytes bytes, digit < 64) ∧
      bytesOfBase64 (base64OfBytes bytes) = bytes := by
  -- three bytes at a time, and one or two at the end
  fun_induction base64OfBytes bytes with
  | case1 a b c rest ih =>
    have ha : a < 256 := h a (by simp)
    have hb : b < 256 := h b (by simp)
    have hc : c < 256 := h c (by simp)
    obtain ⟨hdigits, hrest⟩ := ih fun x hx => h x (by simp [hx])
    constructor
    · intro digit hdigit
      simp only [List.mem_cons] at hdigit
      rcases hdigit with hd | hd | hd | hd | hd
      · omega
      · omega
      · omega
      · omega
      · exact hdigits digit hd
    · have hfirst : 4 * (a / 4) + (a % 4 * 16 + b / 16) / 16 = a := by omega
      have hsecond : (a % 4 * 16 + b / 16) % 16 * 16 + (b % 16 * 4 + c / 64) / 4 = b := by omega
      have hthird : (b % 16 * 4 + c / 64) % 4 * 64 + c % 64 = c := by omega
      simp only [bytesOfBase64, hrest, hfirst, hsecond, hthird]
  | case2 a b =>
    have ha : a < 256 := h a (by simp)
    have hb : b < 256 := h b (by simp)
    constructor
    · intro digit hdigit
      simp only [List.mem_cons, List.not_mem_nil, or_false] at hdigit
      rcases hdigit with hd | hd | hd
      · omega
      · omega
      · omega
    · have hfirst : 4 * (a / 4) + (a % 4 * 16 + b / 16) / 16 = a := by omega
      have hsecond : (a % 4 * 16 + b / 16) % 16 * 16 + b % 16 * 4 / 4 = b := by omega
      simp only [bytesOfBase64, hfirst, hsecond]
  | case3 a =>
    have ha : a < 256 := h a (by simp)
    constructor
    · intro digit hdigit
      simp only [List.mem_cons, List.not_mem_nil, or_false] at hdigit
      rcases hdigit with hd | hd
      · omega
      · omega
    · have hfirst : 4 * (a / 4) + a % 4 * 16 / 16 = a := by omega
      simp only [bytesOfBase64, hfirst]
  | case4 => exact ⟨fun digit hdigit => absurd hdigit List.not_mem_nil, rfl⟩

theorem padding_eq (length : ℕ) : ∀ c ∈ padding length, c = '=' := by
  intro c hc
  unfold padding at hc
  split at hc
  next => simpa using hc
  next => simpa using hc
  next => exact absurd hc List.not_mem_nil

/-- The filling ends the text, and nothing before it does. -/
theorem takeWhile_padding {digits : List ℕ} (h : ∀ digit ∈ digits, digit < 64) (length : ℕ) :
    (digits.map base64Char ++ padding length).takeWhile (fun c => c ≠ '=') =
      digits.map base64Char := by
  have hdigits : ∀ c ∈ digits.map base64Char, decide (c ≠ '=') = true := by
    intro c hc
    obtain ⟨digit, hdigit, rfl⟩ := List.mem_map.mp hc
    exact decide_eq_true (base64Char_ne_padding digit (h digit hdigit))
  rw [List.takeWhile_append_of_pos hdigits]
  cases hpadding : padding length with
  | nil => rw [List.takeWhile_nil, List.append_nil]
  | cons c rest =>
    obtain rfl : c = '=' := padding_eq length c (by rw [hpadding]; exact List.mem_cons_self)
    rw [List.takeWhile_cons]
    simp

/-- Digits are read back as they were written. -/
theorem filterMap_base64Digit {digits : List ℕ} (h : ∀ digit ∈ digits, digit < 64) :
    (digits.map base64Char).filterMap base64Digit = digits := by
  induction digits with
  | nil => rfl
  | cons digit digits ih =>
    rw [List.map_cons, List.filterMap_cons_some
      (base64Digit_base64Char digit (h digit List.mem_cons_self)),
      ih fun d hd => h d (List.mem_cons_of_mem _ hd)]

/-- Bytes that are printed are read back. -/
theorem bufferFromBase64_bufferToBase64 {bytes : List Byte} (h : ∀ b ∈ bytes, b < 256) :
    bufferFromBase64 (bufferToBase64 bytes) = bytes := by
  obtain ⟨hdigits, hbytes⟩ := bytesOfBase64_base64OfBytes h
  rw [bufferFromBase64, bufferToBase64, takeWhile_padding hdigits, filterMap_base64Digit hdigits,
    hbytes]

end MxExchange.Text
