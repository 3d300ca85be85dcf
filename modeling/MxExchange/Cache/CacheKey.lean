import MxExchange.Collections.JsMap

/-!
# `generate-cache-key.ts`: cache keys

A cache key is its parts, each with a dot behind it, less the last dot:
the parts joined by dots (`generateCacheKeyFromParams_toList`). Strings and
numbers print as they are, arrays and objects as JSON.

Parts that contain no dot can be read back from the key, so two keys of such
parts are equal only part by part (`generateCacheKeyFromParams_inj`). Token
identifiers and addresses are of that kind, and neither can be taken for the
name of a method: the one has a dash, the other begins like no method does.
-/

namespace MxExchange.Cache

/-- What a key is made of, by how `generateCacheKeyFromParams` prints it. -/
inductive CacheArg where
  | string (s : String)
  | number (n : ℕ)
  /-- An array of words, without characters that JSON escapes. -/
  | array (words : List String)
  /-- An object, given by its JSON. -/
  | object (json : String)
  deriving DecidableEq

/-- `JSON.stringify` of an array of words. -/
def stringifyWords (words : List String) : String :=
  "[" ++ ",".intercalate (words.map fun word => "\"" ++ word ++ "\"") ++ "]"

/-- What an argument is printed as. -/
def CacheArg.text : CacheArg → String
  | string s => s
  | number n => toString n
  | array words => stringifyWords words
  | object json => json

/-- What stands between the parts of a key. -/
def SEPARATOR : String := "."

/-- The reducer over the arguments; the last separator is taken off. -/
def generateCacheKeyFromParams (args : List CacheArg) : String :=
  let cacheKey := args.foldl (fun cacheKey arg => cacheKey ++ (arg.text ++ SEPARATOR)) ""
  String.ofList cacheKey.toList.dropLast

/-- A part that cannot be mistaken for several. -/
def CacheArg.Plain (arg : CacheArg) : Prop := '.' ∉ arg.text.toList

/-- A token identifier: a ticker, a dash and a suffix. -/
structure TokenIdentifier where
  text : String
  dash : '-' ∈ text.toList
  plain : '.' ∉ text.toList

/-- A bech32 address. -/
structure Address where
  text : String
  hrp : "erd1".toList <+: text.toList
  plain : '.' ∉ text.toList

deriving instance DecidableEq for TokenIdentifier, Address

/-- A span of time, such as `24h`. -/
structure TimeSpan where
  text : String
  plain : '.' ∉ text.toList

/-! ## Reading a key back -/

/-- The reducer, by characters. -/
theorem foldl_append_toList (args : List CacheArg) (key : String) :
    (args.foldl (fun key arg => key ++ (arg.text ++ SEPARATOR)) key).toList =
      key.toList ++ args.flatMap fun arg => arg.text.toList ++ ['.'] := by
  induction args generalizing key with
  | nil => simp
  | cons arg args ih =>
    rw [List.foldl_cons, ih]
    simp [SEPARATOR]

/-- Without the last separator it is the arguments joined. -/
theorem dropLast_flatMap (args : List CacheArg) :
    (args.flatMap fun arg => arg.text.toList ++ ['.']).dropLast =
      ['.'].intercalate (args.map fun arg => arg.text.toList) := by
  induction args with
  | nil => rfl
  | cons arg args ih =>
    cases args with
    | nil => simp [List.intercalate]
    | cons next args =>
      have hne : ((next :: args).flatMap fun arg => arg.text.toList ++ ['.']) ≠ [] := by simp
      rw [List.flatMap_cons, List.dropLast_append_of_ne_nil hne, ih]
      simp [List.intercalate]

/-- A key is its parts joined by dots. -/
theorem generateCacheKeyFromParams_toList (args : List CacheArg) :
    (generateCacheKeyFromParams args).toList =
      ['.'].intercalate (args.map fun arg => arg.text.toList) := by
  unfold generateCacheKeyFromParams
  rw [String.toList_ofList, foldl_append_toList, ← dropLast_flatMap]
  rfl

/-- Arguments without separators can be read off the key. -/
theorem generateCacheKeyFromParams_inj {args args' : List CacheArg} (hargs : args ≠ [])
    (hargs' : args' ≠ []) (hplain : ∀ a ∈ args, a.Plain) (hplain' : ∀ a ∈ args', a.Plain)
    (h : generateCacheKeyFromParams args = generateCacheKeyFromParams args') :
    args.map CacheArg.text = args'.map CacheArg.text := by
  have hsplit : ∀ l : List CacheArg, l ≠ [] → (∀ a ∈ l, a.Plain) →
      (generateCacheKeyFromParams l).toList.splitOn '.' = l.map fun a => a.text.toList := by
    intro l hl hlplain
    rw [generateCacheKeyFromParams_toList, List.splitOn_intercalate]
    · intro t ht
      obtain ⟨a, ha, rfl⟩ := List.mem_map.mp ht
      exact hlplain a ha
    · simpa using hl
  have hmap : (args.map CacheArg.text).map String.toList =
      (args'.map CacheArg.text).map String.toList := by
    rw [List.map_map, List.map_map]
    show (args.map fun a => a.text.toList) = args'.map fun a => a.text.toList
    rw [← hsplit args hargs hplain, ← hsplit args' hargs' hplain', h]
  exact List.map_injective_iff.mpr (fun _ _ => String.toList_inj.mp) hmap

/-- A string printed behind the last dot. -/
theorem generateCacheKeyFromParams_concat {args : List CacheArg} (h : args ≠ [])
    (arg : CacheArg) :
    generateCacheKeyFromParams (args ++ [arg]) =
      generateCacheKeyFromParams args ++ (SEPARATOR ++ arg.text) := by
  refine String.toList_inj.mp ?_
  rw [String.toList_append, generateCacheKeyFromParams_toList, generateCacheKeyFromParams_toList]
  induction args with
  | nil => exact absurd rfl h
  | cons a args ih =>
    cases args with
    | nil => simp [List.intercalate, SEPARATOR]
    | cons b args =>
      have := ih (by simp)
      simp only [List.intercalate, List.map_cons, List.map_append, List.cons_append,
        List.map_nil, List.intersperse_cons_cons, List.flatten_cons] at this ⊢
      rw [this]
      simp

theorem plain_number (n : ℕ) : (CacheArg.number n).Plain := by
  intro h
  have hmem : '.' ∈ Nat.toDigits 10 n := by simpa [CacheArg.text] using h
  have hdigit := Nat.isDigit_of_mem_toDigits (by omega) (by omega) hmem
  exact absurd hdigit (by decide)

/-- Numbers print differently. -/
theorem number_text_inj {n m : ℕ} (h : (CacheArg.number n).text = (CacheArg.number m).text) :
    n = m := by
  have hdigits : Nat.toDigits 10 n = Nat.toDigits 10 m := by
    simpa [CacheArg.text] using congrArg String.toList h
  rw [← Nat.ofDigitChars_toDigits (b := 10) (n := n) (by omega) (by omega), hdigits,
    Nat.ofDigitChars_toDigits (by omega) (by omega)]

end MxExchange.Cache
