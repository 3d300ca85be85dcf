import Mathlib.Algebra.Group.Nat.Defs
import Mathlib.Data.Int.Notation
import MxExchange.Cache.CachedMethods

/-!
# `caching.decorator.ts`: which calls share a key

A key has its parts joined by dots and no mark of what they are: nothing
tells a timestamp from a last argument, or a number from the text it prints
as. For the declared methods of the three base keys the lists of parameters
make up for it (`cacheKey_inj`); for getters in general nothing does.

`eq_of_cacheKey_iff` says what a key is worth without the lists. Two calls
that share one are the same call unless they clash: they go to one method of
one base key, and the one's timestamp stands where the other has an argument,
or a number stands where the other has its digits. Farms have such a method,
of two services that share the base key: `undistributedBoostedRewards` takes
the farm in the one, and the farm and a week in the other.
-/

namespace MxExchange.Cache

/-- An argument of a getter. -/
inductive MethodArg where
  | string (s : String)
  | number (z : ℤ)
  deriving DecidableEq

/-- Strings have no separator, and numbers are in the range in which
JavaScript prints an integer as its digits. -/
def MethodArg.Valid : MethodArg → Prop
  | string s => '.' ∉ s.toList
  | number z => z.natAbs < 10 ^ 21

/-- The argument as it is put into a key. -/
def MethodArg.cacheArg : MethodArg → CacheArg
  | string s => .string s
  | number z => .string (toString z)

/-- A call of a getter decorated with `GetOrSetCache`, whatever its base key
is. The timestamp is that of the request's context, `0` for none. -/
@[ext] structure MethodCall where
  baseKey : String
  propertyKey : String
  args : List MethodArg
  deepHistoryTimestamp : ℕ
  baseKey_plain : '.' ∉ baseKey.toList
  propertyKey_plain : '.' ∉ propertyKey.toList
  args_valid : ∀ arg ∈ args, arg.Valid

/-- The key under which the decorator caches the call. -/
def MethodCall.cacheKey (call : MethodCall) : String :=
  CachedCall.cacheKey ⟨call.baseKey, call.propertyKey, call.args.map MethodArg.cacheArg,
    call.deepHistoryTimestamp⟩

/-! ## Calls that clash -/

/-- The same argument, or a number and its digits. -/
inductive MethodArg.Alike : MethodArg → MethodArg → Prop
  | same (arg : MethodArg) : Alike arg arg
  | digits (z : ℤ) : Alike (.number z) (.string (toString z))
  | number (z : ℤ) : Alike (.string (toString z)) (.number z)

/-- The arguments differ, but only in how they are passed. -/
def PassedOtherwise (call call' : MethodCall) : Prop :=
  call.args ≠ call'.args ∧ call.deepHistoryTimestamp = call'.deepHistoryTimestamp ∧
    List.Forall₂ MethodArg.Alike call.args call'.args

/-- A call about the past whose timestamp is the last argument of a call
about the present. -/
def StampAsArg (past present : MethodCall) : Prop :=
  past.deepHistoryTimestamp ≠ 0 ∧ present.deepHistoryTimestamp = 0 ∧
    List.Forall₂ MethodArg.Alike (past.args ++ [.number past.deepHistoryTimestamp]) present.args

/-- Two calls of one method of one base key that a key does not tell apart. -/
def Clash (call call' : MethodCall) : Prop :=
  call.baseKey = call'.baseKey ∧ call.propertyKey = call'.propertyKey ∧
    (PassedOtherwise call call' ∨ StampAsArg call call' ∨ StampAsArg call' call)

/-! ## Numbers in a key -/

/-- An integer is a number, or a dash and a positive number. -/
theorem int_text_cases (z : ℤ) :
    (∃ n : ℕ, z = n ∧ toString z = toString n) ∨
      ∃ n : ℕ, z = -(n + 1 : ℕ) ∧ toString z = "-" ++ toString (n + 1) := by
  cases z with
  | ofNat n => exact Or.inl ⟨n, rfl, rfl⟩
  | negSucc n => exact Or.inr ⟨n, rfl, rfl⟩

theorem dash_not_mem_text (n : ℕ) : '-' ∉ (toString n).toList := by
  intro h
  have hmem : '-' ∈ Nat.toDigits 10 n := by simpa using h
  have hdigit := Nat.isDigit_of_mem_toDigits (by omega) (by omega) hmem
  exact absurd hdigit (by decide)

/-- Integers print without dots. -/
theorem int_text_plain (z : ℤ) : '.' ∉ (toString z).toList := by
  have hnat : ∀ n : ℕ, '.' ∉ (toString n).toList := plain_number
  rcases int_text_cases z with ⟨n, -, htext⟩ | ⟨n, -, htext⟩
  · rw [htext]
    exact hnat n
  · rw [htext, String.toList_append, List.mem_append]
    rintro (h | h)
    · exact absurd h (by decide)
    · exact hnat (n + 1) h

/-- Integers print differently. -/
theorem int_text_inj {z w : ℤ} (h : toString z = toString w) : z = w := by
  have hnat : ∀ {n m : ℕ}, toString n = toString m → n = m := number_text_inj
  -- only one of them would begin with a dash
  have hmixed : ∀ n m : ℕ, toString n ≠ "-" ++ toString (m + 1) := by
    intro n m heq
    refine dash_not_mem_text n ?_
    rw [heq, String.toList_append]
    simp
  rcases int_text_cases z with ⟨n, rfl, hz⟩ | ⟨n, rfl, hz⟩ <;>
    rcases int_text_cases w with ⟨m, rfl, hw⟩ | ⟨m, rfl, hw⟩
  · rw [hz, hw] at h
    rw [hnat h]
  · rw [hz, hw] at h
    exact absurd h (hmixed n m)
  · rw [hz, hw] at h
    exact absurd h.symm (hmixed m n)
  · rw [hz, hw] at h
    have htail : toString (n + 1) = toString (m + 1) := by
      have := congrArg String.toList h
      rw [String.toList_append, String.toList_append, List.append_cancel_left_eq] at this
      exact String.toList_inj.mp this
    rw [hnat htail]

/-- Arguments print alike only if they are. -/
theorem MethodArg.alike_iff {a b : MethodArg} :
    a.Alike b ↔ a.cacheArg.text = b.cacheArg.text := by
  constructor
  · intro h
    cases h <;> rfl
  · intro h
    cases a with
    | string s =>
      cases b with
      | string t =>
        obtain rfl : s = t := h
        exact .same _
      | number z =>
        obtain rfl : s = toString z := h
        exact .number z
    | number z =>
      cases b with
      | string t =>
        obtain rfl : toString z = t := h
        exact .digits z
      | number w =>
        obtain rfl : z = w := int_text_inj h
        exact .same _

/-- Arguments are alike if their texts are. -/
theorem alike_lists_iff {args args' : List MethodArg} :
    List.Forall₂ MethodArg.Alike args args' ↔
      (args.map MethodArg.cacheArg).map CacheArg.text =
        (args'.map MethodArg.cacheArg).map CacheArg.text := by
  rw [List.map_map, List.map_map, ← List.forall₂_eq_eq_eq, List.forall₂_map_left_iff,
    List.forall₂_map_right_iff]
  exact ⟨fun h => h.imp fun _ _ => MethodArg.alike_iff.mp,
    fun h => h.imp fun _ _ => MethodArg.alike_iff.mpr⟩

/-! ## Calls that share a key -/

/-- What stands behind the name of the method. -/
def MethodCall.behind (call : MethodCall) : List MethodArg :=
  call.args ++ if call.deepHistoryTimestamp ≠ 0 then [.number call.deepHistoryTimestamp] else []

/-- In the past the timestamp is one more argument. -/
theorem MethodCall.behind_past {call : MethodCall} (h : call.deepHistoryTimestamp ≠ 0) :
    call.behind = call.args ++ [.number call.deepHistoryTimestamp] := by
  unfold behind
  rw [if_pos h]

theorem MethodCall.behind_present {call : MethodCall} (h : call.deepHistoryTimestamp = 0) :
    call.behind = call.args := by
  unfold behind
  rw [if_neg (by omega), List.append_nil]

/-- The parts of the call's key. -/
def MethodCall.keyArgs (call : MethodCall) : List CacheArg :=
  .string call.baseKey :: .string call.propertyKey :: call.behind.map MethodArg.cacheArg

/-- None of the parts of a key has a separator in it. -/
theorem MethodCall.keyArgs_plain (call : MethodCall) : ∀ arg ∈ call.keyArgs, arg.Plain := by
  have hargs : ∀ arg ∈ call.args, arg.cacheArg.Plain := by
    intro arg harg
    have hvalid := call.args_valid arg harg
    cases arg with
    | string s => exact hvalid
    | number z => exact int_text_plain z
  intro arg harg
  rcases List.mem_cons.mp harg with rfl | harg
  · exact call.baseKey_plain
  rcases List.mem_cons.mp harg with rfl | harg
  · exact call.propertyKey_plain
  obtain ⟨a, ha, rfl⟩ := List.mem_map.mp harg
  by_cases hstamp : call.deepHistoryTimestamp = 0
  · rw [MethodCall.behind_present hstamp] at ha
    exact hargs a ha
  · rw [MethodCall.behind_past hstamp, List.mem_append, List.mem_singleton] at ha
    rcases ha with ha | rfl
    · exact hargs a ha
    · exact int_text_plain _

/-- The key is made of its parts. -/
theorem MethodCall.cacheKey_eq (call : MethodCall) :
    call.cacheKey = generateCacheKeyFromParams call.keyArgs := by
  unfold MethodCall.cacheKey CachedCall.cacheKey MethodCall.keyArgs
  by_cases h : call.deepHistoryTimestamp = 0
  · rw [if_neg (by simpa using h), MethodCall.behind_present h]
  · rw [if_pos h, MethodCall.behind_past h, List.map_append, ← List.cons_append,
      ← List.cons_append]
    show _ = generateCacheKeyFromParams
      (_ ++ [CacheArg.string (toString (call.deepHistoryTimestamp : ℤ))])
    rw [generateCacheKeyFromParams_concat (by simp)]
    rfl

/-- Two calls share a key when all parts print alike. -/
theorem cacheKey_eq_iff (call call' : MethodCall) :
    call.cacheKey = call'.cacheKey ↔
      call.baseKey = call'.baseKey ∧ call.propertyKey = call'.propertyKey ∧
        List.Forall₂ MethodArg.Alike call.behind call'.behind := by
  have htexts : call.cacheKey = call'.cacheKey ↔
      call.keyArgs.map CacheArg.text = call'.keyArgs.map CacheArg.text := by
    rw [call.cacheKey_eq, call'.cacheKey_eq]
    constructor
    · exact generateCacheKeyFromParams_inj (by simp [MethodCall.keyArgs])
        (by simp [MethodCall.keyArgs]) call.keyArgs_plain call'.keyArgs_plain
    · intro h
      refine String.toList_inj.mp ?_
      rw [generateCacheKeyFromParams_toList, generateCacheKeyFromParams_toList]
      have := congrArg (List.map String.toList) h
      rw [List.map_map, List.map_map] at this
      exact congrArg _ this
  rw [htexts, alike_lists_iff]
  unfold MethodCall.keyArgs
  rw [List.map_cons, List.map_cons, List.map_cons, List.map_cons, List.cons.injEq,
    List.cons.injEq]
  exact Iff.rfl

/-- Timestamps of two calls about the past print alike only if they are the same. -/
theorem stamp_of_alike {n m : ℕ} (h : MethodArg.Alike (.number n) (.number m)) : n = m := by
  have := int_text_inj (MethodArg.alike_iff.mp h)
  omega

/-- The last arguments are compared like the others. -/
theorem alike_concat_iff {args args' : List MethodArg} {a b : MethodArg} :
    List.Forall₂ MethodArg.Alike (args ++ [a]) (args' ++ [b]) ↔
      List.Forall₂ MethodArg.Alike args args' ∧ a.Alike b := by
  rw [alike_lists_iff, alike_lists_iff, MethodArg.alike_iff]
  simp

/-- What stands behind the method prints alike for calls that are the same
up to how their arguments are passed, or where a timestamp is an argument. -/
theorem alike_behind_iff (call call' : MethodCall) :
    List.Forall₂ MethodArg.Alike call.behind call'.behind ↔
      (call.deepHistoryTimestamp = call'.deepHistoryTimestamp ∧
          List.Forall₂ MethodArg.Alike call.args call'.args) ∨
        StampAsArg call call' ∨ StampAsArg call' call := by
  have hsymm : ∀ {l l' : List MethodArg}, List.Forall₂ MethodArg.Alike l l' →
      List.Forall₂ MethodArg.Alike l' l := by
    intro l l' h
    rw [alike_lists_iff] at h ⊢
    exact h.symm
  unfold StampAsArg
  by_cases h : call.deepHistoryTimestamp = 0 <;> by_cases h' : call'.deepHistoryTimestamp = 0
  · rw [MethodCall.behind_present h, MethodCall.behind_present h']
    simp [h, h']
  · rw [MethodCall.behind_present h, MethodCall.behind_past h']
    constructor
    · intro halike
      exact Or.inr (Or.inr ⟨h', h, hsymm halike⟩)
    · rintro (⟨heq, -⟩ | ⟨hne, -, -⟩ | ⟨-, -, halike⟩)
      · omega
      · exact absurd h hne
      · exact hsymm halike
  · rw [MethodCall.behind_past h, MethodCall.behind_present h']
    constructor
    · intro halike
      exact Or.inr (Or.inl ⟨h, h', halike⟩)
    · rintro (⟨heq, -⟩ | ⟨-, -, halike⟩ | ⟨hne, -, -⟩)
      · omega
      · exact halike
      · exact absurd h' hne
  · rw [MethodCall.behind_past h, MethodCall.behind_past h', alike_concat_iff]
    constructor
    · rintro ⟨halike, hstamp⟩
      exact Or.inl ⟨stamp_of_alike hstamp, halike⟩
    · rintro (⟨heq, halike⟩ | ⟨-, hzero, -⟩ | ⟨-, hzero, -⟩)
      · rw [heq]
        exact ⟨halike, .same _⟩
      · exact absurd hzero h'
      · exact absurd hzero h

/-- A key stands for one call, next to calls that do not clash with it. -/
theorem eq_of_cacheKey_iff (call call' : MethodCall) :
    (call.cacheKey = call'.cacheKey → call = call') ↔ ¬Clash call call' := by
  constructor
  · rintro hinj ⟨hbase, hname, hclash⟩
    have hkey : call.cacheKey = call'.cacheKey := by
      refine (cacheKey_eq_iff call call').mpr ⟨hbase, hname, (alike_behind_iff call call').mpr ?_⟩
      exact hclash.imp_left And.right
    obtain rfl := hinj hkey
    rcases hclash with ⟨hne, -⟩ | ⟨hstamp, hzero, -⟩ | ⟨hstamp, hzero, -⟩
    · exact hne rfl
    · exact hstamp hzero
    · exact hstamp hzero
  · intro hclash hkey
    obtain ⟨hbase, hname, halike⟩ := (cacheKey_eq_iff call call').mp hkey
    rcases (alike_behind_iff call call').mp halike with ⟨hstamp, hargs⟩ | hpast
    · by_contra hne
      refine hclash ⟨hbase, hname, Or.inl ⟨fun heq => hne ?_, hstamp, hargs⟩⟩
      exact MethodCall.ext hbase hname heq hstamp
    · exact absurd ⟨hbase, hname, Or.inr hpast⟩ hclash

/-- The rewards of a farm that were never claimed, for a request about the
past: `undistributedBoostedRewards` of `farm.v2.abi.service.ts`. -/
def pastRewards : MethodCall where
  baseKey := "farm"
  propertyKey := "undistributedBoostedRewards"
  args := [.string "erd1qqqqqqqqqqqqqpgqapxdp9gjxtg60mjwhle3n6h88zch9e7kkp2s8aqhkg"]
  deepHistoryTimestamp := 100
  baseKey_plain := by decide
  propertyKey_plain := by decide
  args_valid := by
    intro arg harg
    rw [List.mem_singleton.mp harg]
    show '.' ∉ "erd1qqqqqqqqqqqqqpgqapxdp9gjxtg60mjwhle3n6h88zch9e7kkp2s8aqhkg".toList
    decide

/-- The same, up to a week and for the present:
`undistributedBoostedRewards` of `farm.v2.compute.service.ts`. -/
def presentRewards : MethodCall where
  baseKey := "farm"
  propertyKey := "undistributedBoostedRewards"
  args := [.string "erd1qqqqqqqqqqqqqpgqapxdp9gjxtg60mjwhle3n6h88zch9e7kkp2s8aqhkg", .number 100]
  deepHistoryTimestamp := 0
  baseKey_plain := by decide
  propertyKey_plain := by decide
  args_valid := by
    intro arg harg
    rcases List.mem_cons.mp harg with rfl | harg
    · show '.' ∉ "erd1qqqqqqqqqqqqqpgqapxdp9gjxtg60mjwhle3n6h88zch9e7kkp2s8aqhkg".toList
      decide
    · rw [List.mem_singleton.mp harg]
      show (100 : ℤ).natAbs < 10 ^ 21
      decide

/-- Rewards of the past are served as those of the present. -/
theorem past_shares_key :
    ¬∀ call call' : MethodCall, call.cacheKey = call'.cacheKey → call = call' := by
  intro h
  have heq := h pastRewards presentRewards (by decide +kernel)
  exact absurd (congrArg MethodCall.deepHistoryTimestamp heq) (by decide)

end MxExchange.Cache
