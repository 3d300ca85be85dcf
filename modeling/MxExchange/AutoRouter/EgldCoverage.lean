import MxExchange.AutoRouter.Transactions

/-!
# EGLD in a batch of transactions

A swap of EGLD is a swap of wrapped EGLD with a wrapping transaction before
it or an unwrapping one after it. The batch holds together when the first
wraps what the swap pays (`WrapsPayment`) and the last unwraps no more than
the swap guarantees (`UnwrapsGuaranteed`).

The pair's builders take both amounts from the call itself. The router's
builder takes them from the ends of the list of intermediary amounts, while
the call has the tolerance added to the first and taken off the last. So the
two agree only where the tolerance makes no difference: `wrapsPayment_iff`
and `unwrapsGuaranteed_iff` say when that is.
-/

namespace MxExchange.AutoRouter

open MxExchange.Num MxExchange.Pair MxExchange.Collections

/-- An amount past the end of the list is no number, so a whole one is on it. -/
theorem multiSwapArgs_amountAt_eq_ofNat_iff (m : AutoRouteModel) (i n : ℕ) :
    (multiSwapArgs m).amountAt i = .ofNat n ↔ m.intermediaryAmounts[i]? = some (.ofNat n) := by
  unfold MultiSwapTokensArgs.amountAt multiSwapArgs
  cases m.intermediaryAmounts[i]? with
  | none => simp [BigNumber.ofNat]
  | some a => simp

/-! ## EGLD going in -/

/-- The batch wraps exactly what the swap after it pays. -/
def WrapsPayment (env : Env) (txs : List TransactionModel) : Prop :=
  ∃ wrap swap rest payment, txs = wrap :: swap :: rest ∧
    swap.call.payment = some payment ∧
    payment.tokenIdentifier = env.wrappedEgldTokenID ∧
    wrap.call = .wrapEgld (.ofNat payment.amountAsBigInteger)

/-- The pair's builders transfer the very amount they wrap. -/
theorem PairBatch.wrapsPayment {env : Env} {args : SwapTokensArgs}
    {swapCall : TokenID → TokenTransfer → ContractCall} {out : BigNumber}
    {txs : List TransactionModel} (h : PairBatch env args swapCall out txs)
    (hpay : ∀ token payment, (swapCall token payment).payment = some payment)
    (hegld : args.tokenInID = EGLDIdentifier) : WrapsPayment env txs := by
  cases h with
  | wrapping payment gasLimit hin hp =>
    obtain ⟨htok, hval⟩ := fungibleFromBigInteger_ok hp
    exact ⟨_, _, [], payment, rfl, hpay _ _, htok, by rw [wrapEgld, hval]⟩
  | unwrapping payment gasLimit unwrap hin => exact absurd hegld hin
  | plain payment gasLimit hin => exact absurd hegld hin

/-- The router's builder wraps the first amount and pays it with the
tolerance added. -/
theorem multiPairSwap_wrapsPayment_iff {env : Env} {args : MultiSwapTokensArgs}
    {txs : List TransactionModel} (h : multiPairSwap env args = .ok txs)
    (hegld : args.tokenInID = EGLDIdentifier)
    (hroute : args.tokenRoute.head? = some env.wrappedEgldTokenID)
    (htol : 0 ≤ args.tolerance.val) :
    WrapsPayment env txs ↔ ∃ n : ℕ, args.amountAt 0 = .ofNat n ∧
      (args.swapType = .fixedInput ∨ n * args.tolerance.toDecimal < 1) := by
  obtain ⟨unwrapTransaction, swaps, payment, -, -, hpay, rfl⟩ := multiPairSwap_ok h
  obtain ⟨htok, q, hq, hq0, hround⟩ := fungibleFromIntegerValue_ok hpay
  rw [← List.head?_eq_getElem?, hroute, Option.getD_some] at htok
  -- the tolerance as a decimal, zero for a fixed input
  obtain ⟨s, hs, hs0, hcase⟩ : ∃ s : ℚ, inputTolerance args = .fin s ∧ 0 ≤ s ∧ ∀ n : ℕ,
      n * s < 1 ↔ args.swapType = .fixedInput ∨ n * args.tolerance.toDecimal < 1 := by
    unfold inputTolerance
    cases args.swapType with
    | fixedInput => exact ⟨0, rfl, le_rfl, fun n => by simp⟩
    | fixedOutput => exact ⟨_, rfl, Double.toDecimal_nonneg htol, fun n => by simp⟩
  rw [hs] at hq
  obtain ⟨x, hx, rfl⟩ := plus_multipliedBy_eq_fin hq
  have hx0 : 0 ≤ x := by
    have hfac : x + x * s = x * (1 + s) := by ring
    rw [hfac] at hq0
    exact nonneg_of_mul_nonneg_left hq0 (by linarith)
  have hwraps : WrapsPayment env ((wrapIfNeeded args.tokenInID (args.amountAt 0)).toList
      ++ [⟨.multiPairSwap swaps payment, args.addressRoute.length * 35000000⟩]
      ++ unwrapTransaction.toList) ↔ x = payment.amountAsBigInteger := by
    rw [wrapIfNeeded, if_pos hegld, hx]
    constructor
    · intro hw
      obtain ⟨wrap, swap, rest, payment', htxs, hpay', -, hwrap⟩ := hw
      obtain ⟨rfl, htail⟩ := List.cons.inj htxs
      obtain ⟨rfl, -⟩ := List.cons.inj htail
      obtain rfl := Option.some.inj hpay'
      simpa [wrapEgld, BigNumber.ofNat] using hwrap
    · intro hw
      refine ⟨_, _, _, payment, rfl, rfl, htok, ?_⟩
      rw [wrapEgld, hw]
      rfl
  -- the payment is the inflated amount rounded, so `x` must survive that
  have hcast : x = payment.amountAsBigInteger ↔
      ((truncate (x + x * s) : ℤ) : ℚ) = x := by
    rw [hround]
    push_cast
    exact eq_comm
  rw [hwraps, hcast, truncate_add_eq_iff hx0 (mul_nonneg hx0 hs0), hx]
  constructor
  · intro hn
    obtain ⟨n, rfl, hlt⟩ := hn
    exact ⟨n, rfl, (hcase n).mp hlt⟩
  · intro hn
    obtain ⟨n, hxn, hor⟩ := hn
    have hxn' : x = n := BigNumber.fin.inj hxn
    exact ⟨n, hxn', by rw [hxn']; exact (hcase n).mpr hor⟩

/-- For EGLD going in, the wrapped amount covers the payment exactly when
one pair does the swap, or the amount is whole and no tolerance is added to
it, or one too small to count. -/
theorem wrapsPayment_iff {env : Env} {args : AutoRouterArgs} {m : AutoRouteModel}
    {txs : List TransactionModel} (hswap : swap env args = .ok m)
    (hegld : args.tokenInID = EGLDIdentifier) (htol : 0 ≤ args.tolerance.val)
    (htx : getTransactions env m = .ok txs) :
    WrapsPayment env txs ↔ m.pairs.length = 1 ∨
      ∃ n : ℕ, m.intermediaryAmounts[0]? = some (.ofNat n) ∧
        (m.swapType = .fixedInput ∨ n * args.tolerance.toDecimal < 1) := by
  have hans := (swap_ok hswap).1
  by_cases hlen : m.pairs.length = 1
  · obtain ⟨args', swapCall, out, hin, -, hbatch, hpay, -⟩ := getTransactions_single htx hlen
    refine iff_of_true ?_ (Or.inl hlen)
    exact hbatch.wrapsPayment hpay (by rw [hin, hans.tokenIn, hegld])
  · have hrouted := (routed_of_swap hswap).resolve_left hlen
    have hwrapped : toWrappedIfEGLD env args.tokenInID = env.wrappedEgldTokenID := by
      rw [hegld, toWrappedIfEGLD, if_pos rfl]
    rw [multiPairSwap_wrapsPayment_iff (getTransactions_multi htx hlen)
      (hans.tokenIn.trans hegld) (hrouted.head.trans (by rw [hwrapped]))
      (by rw [multiSwapArgs, hans.tolerance]; exact htol)]
    simp only [multiSwapArgs_amountAt_eq_ofNat_iff, hlen, false_or]
    rw [← hans.tolerance]
    rfl

/-- Two pairs in a row from wrapped EGLD, with a million units on each side. -/
def twoPairEnv : Env where
  wrappedEgldTokenID := "WEGLD-1"
  tokenDecimals := fun _ => 3
  tokenPriceUSD := fun _ => .fin 1
  multiSwapStatus := true
  MAX_SWAP_SPREAD := .ofRat (5 / 100)
  pairsAddress := ["erd1wa", "erd1ab"]
  state := fun _ => "Active"
  firstTokenID := fun address => if address = "erd1wa" then "WEGLD-1" else "TOKA-1"
  secondTokenID := fun address => if address = "erd1wa" then "TOKA-1" else "TOKB-1"
  pairInfoMetadata := fun _ => ⟨1000000, 1000000, 1000000⟩
  totalFeePercent := fun _ => .ofRat (3 / 1000)
  hasLockedTokensInfo := fun _ => false
  trustedSwapPairs := fun _ => []
  cachedPathsPairs := fun _ _ => none
  graphPairs := [samplePair "erd1wa" "WEGLD-1" "TOKA-1" 1000000,
    samplePair "erd1ab" "TOKA-1" "TOKB-1" 1000000]

/-- The routed swap of EGLD for 1000 units with a tolerance of 1% wraps 1010
and spends 1020. -/
theorem wrap_short :
    (swap twoPairEnv ⟨"EGLD", "TOKB-1", none, some (.ofNat 1000), .ofRat (1 / 100)⟩).bind
        (getTransactions twoPairEnv)
      = .ok [⟨.wrapEgld (.fin 1010), 4200000⟩,
          ⟨.multiPairSwap
            [⟨"erd1wa", "swapTokensFixedOutput", "TOKA-1", .fin 1010⟩,
             ⟨"erd1ab", "swapTokensFixedOutput", "TOKB-1", .fin 1000⟩]
            ⟨"WEGLD-1", 1020⟩, 70000000⟩] ∧
    ¬ WrapsPayment twoPairEnv
        [⟨.wrapEgld (.fin 1010), 4200000⟩,
          ⟨.multiPairSwap
            [⟨"erd1wa", "swapTokensFixedOutput", "TOKA-1", .fin 1010⟩,
             ⟨"erd1ab", "swapTokensFixedOutput", "TOKB-1", .fin 1000⟩]
            ⟨"WEGLD-1", 1020⟩, 70000000⟩] := by
  refine ⟨by decide +kernel, fun h => ?_⟩
  obtain ⟨wrap, swap, rest, payment, htxs, hpay, -, hwrap⟩ := h
  obtain ⟨rfl, htail⟩ := List.cons.inj htxs
  obtain ⟨rfl, -⟩ := List.cons.inj htail
  obtain rfl := Option.some.inj hpay
  exact absurd hwrap (by decide +kernel)

/-- With a fixed input nothing is added to the wrapped amount. -/
theorem wrap_fixedInput :
    ∃ txs, (swap twoPairEnv ⟨"EGLD", "TOKB-1", some (.ofNat 1000), none, .ofRat (1 / 100)⟩).bind
        (getTransactions twoPairEnv) = .ok txs ∧ WrapsPayment twoPairEnv txs := by
  have hok : ((swap twoPairEnv ⟨"EGLD", "TOKB-1", some (.ofNat 1000), none,
      .ofRat (1 / 100)⟩).bind (getTransactions twoPairEnv)).toOption.isSome := by decide +kernel
  have hroute : (swap twoPairEnv ⟨"EGLD", "TOKB-1", some (.ofNat 1000), none,
      .ofRat (1 / 100)⟩).toOption.map (fun m => (m.swapType, m.intermediaryAmounts[0]?))
        = some (.fixedInput, some (.ofNat 1000)) := by decide +kernel
  cases hb : (swap twoPairEnv ⟨"EGLD", "TOKB-1", some (.ofNat 1000), none,
      .ofRat (1 / 100)⟩).bind (getTransactions twoPairEnv) with
  | error e => rw [hb] at hok; exact absurd hok (by simp [Except.toOption])
  | ok txs =>
    obtain ⟨m, hm, htx⟩ := bind_eq_ok.mp hb
    rw [hm] at hroute
    obtain ⟨htype, hfirst⟩ := Prod.mk.inj (Option.some.inj hroute)
    exact ⟨txs, rfl, (wrapsPayment_iff hm rfl (by decide +kernel) htx).mpr
      (Or.inr ⟨1000, hfirst, Or.inl htype⟩)⟩

/-! ## EGLD coming out -/

/-- The output a swap call guarantees: the minimum or exact output it asks
for, of the last operation if there are several. -/
def ContractCall.guaranteed : ContractCall → Option BigNumber
  | .wrapEgld _ => none
  | .unwrapEgld _ => none
  | .swapTokensFixedInput _ _ amountOutMin _ => some amountOutMin
  | .swapTokensFixedOutput _ _ amountOut _ => some amountOut
  | .multiPairSwap swaps _ => swaps.getLast?.map (·.amountWanted)

/-- What the batch unwraps at its end, the swap before it has guaranteed. -/
def UnwrapsGuaranteed (txs : List TransactionModel) : Prop :=
  ∀ pre swap unwrap payment, txs = pre ++ [swap, unwrap] → unwrap.call = .unwrapEgld payment →
    ∃ g : ℚ, swap.call.guaranteed = some (.fin g) ∧ (payment.amountAsBigInteger : ℚ) ≤ g

/-- The pair's builders unwrap the output they ask for. -/
theorem PairBatch.unwrapsGuaranteed {env : Env} {args : SwapTokensArgs}
    {swapCall : TokenID → TokenTransfer → ContractCall} {out : BigNumber}
    {txs : List TransactionModel} (h : PairBatch env args swapCall out txs)
    (hswap : ∀ token payment,
      (∃ address, swapCall token payment = .swapTokensFixedInput address token out payment) ∨
      ∃ address, swapCall token payment = .swapTokensFixedOutput address token out payment) :
    UnwrapsGuaranteed txs := by
  have hguar : ∀ token payment, (swapCall token payment).guaranteed = some out := by
    intro token payment
    rcases hswap token payment with ⟨address, he⟩ | ⟨address, he⟩
    · rw [he]
      rfl
    · rw [he]
      rfl
  intro pre swap unwrap payment htxs hcall
  cases h with
  | wrapping payment' gasLimit hin hp =>
    -- the batch ends with the swap
    have hlast := congrArg List.getLast? htxs
    rw [List.getLast?_append] at hlast
    have heq : unwrap = ⟨swapCall args.tokenOutID payment', gasLimit⟩ := by
      simpa using hlast.symm
    rw [heq] at hcall
    rcases hswap args.tokenOutID payment' with ⟨address, he⟩ | ⟨address, he⟩
    · exact absurd (he.symm.trans hcall) (by simp)
    · exact absurd (he.symm.trans hcall) (by simp)
  | unwrapping payment' gasLimit unwrap' hin hout hu =>
    have hpre : pre = [] := by
      have := congrArg List.length htxs
      simp only [List.length_append, List.length_cons, List.length_nil] at this
      exact List.length_eq_zero_iff.mp (by omega)
    subst hpre
    obtain ⟨rfl, htail⟩ := List.cons.inj htxs
    obtain ⟨rfl, -⟩ := List.cons.inj htail
    obtain ⟨payment'', hcall'', -, hval⟩ := unwrapEgld_ok hu
    rw [hcall''] at hcall
    obtain rfl := ContractCall.unwrapEgld.inj hcall
    refine ⟨payment''.amountAsBigInteger, ?_, le_rfl⟩
    rw [hguar, hval]
    rfl
  | plain payment' gasLimit hin hout =>
    have := congrArg List.length htxs
    simp only [List.length_append, List.length_cons, List.length_nil] at this
    omega

/-- A batch that ends with a swap and the unwrapping of a payment. -/
theorem unwrapsGuaranteed_append_iff (pre : List TransactionModel) (swap : TransactionModel)
    {unwrap : TransactionModel} {payment : TokenTransfer}
    (hcall : unwrap.call = .unwrapEgld payment) :
    UnwrapsGuaranteed (pre ++ [swap, unwrap]) ↔
      ∃ g : ℚ, swap.call.guaranteed = some (.fin g) ∧ (payment.amountAsBigInteger : ℚ) ≤ g := by
  constructor
  · intro h
    exact h pre swap unwrap payment rfl hcall
  · intro h pre' swap' unwrap' payment' htxs hcall'
    obtain ⟨-, hend⟩ := List.append_inj' htxs rfl
    obtain ⟨rfl, htail⟩ := List.cons.inj hend
    obtain ⟨rfl, -⟩ := List.cons.inj htail
    obtain rfl := ContractCall.unwrapEgld.inj (hcall.symm.trans hcall')
    exact h

/-- What the last operation asks for when the last amount is whole: all of
it for a fixed output, and all but its share of the tolerance for a fixed
input. -/
theorem lastOperation_amountWanted {args : MultiSwapTokensArgs} {swaps : List SwapOperation}
    (h : transactionArgs args = .ok swaps) (hne : args.addressRoute ≠ []) {k : ℕ}
    (hk : args.amountAt args.addressRoute.length = .ofNat k) :
    ∃ g : ℚ, swaps.getLast?.map (·.amountWanted) = some (.fin g) ∧
      match args.swapType with
      | .fixedOutput => g = k
      | .fixedInput =>
        0 ≤ k - k * (args.tolerance.div (Double.ofRat args.addressRoute.length)).toDecimal ∧
        g = truncate
          (k - k * (args.tolerance.div (Double.ofRat args.addressRoute.length)).toDecimal) := by
  have hpos := List.length_pos_of_ne_nil hne
  have hidx : args.addressRoute.length - 1 + 1 = args.addressRoute.length := by omega
  have hlast : args.addressRoute[args.addressRoute.length - 1]?
      = some (args.addressRoute.getLast hne) := by
    rw [← List.getLast?_eq_getElem?, List.getLast?_eq_some_getLast hne]
  have hend : ∀ op, swaps.length = args.addressRoute.length →
      swaps[args.addressRoute.length - 1]? = some op →
      swaps.getLast?.map (·.amountWanted) = some op.amountWanted := by
    intro op hlen hop
    rw [List.getLast?_eq_getElem?, hlen, hop]
    rfl
  unfold transactionArgs at h
  cases hst : args.swapType with
  | fixedInput =>
    rw [hst] at h
    obtain ⟨hlen, hall⟩ := mapM_zipIdx_ok h
    obtain ⟨op, hop, hf⟩ := hall _ _ hlast
    obtain ⟨v, hv, hpure⟩ := bind_eq_ok.mp hf
    obtain ⟨hval, hneg⟩ := bigUIntOfIntegerValue_ok hv
    -- the last hop takes one share of the tolerance
    have hshare : args.addressRoute.length - (args.addressRoute.length - 1) = 1 := by omega
    rw [hidx, hk, hshare, intermediaryTolerance, Nat.cast_one, Double.one_mul,
      BigNumber.ofNat, BigNumber.ofDouble, BigNumber.multipliedBy_fin, BigNumber.minus_fin]
      at hval hneg
    refine ⟨_, ?_, ?_, rfl⟩
    · rw [hend op hlen hop, ← pure_eq_ok.mp hpure, hval, BigNumber.integerValue_fin]
    · simpa [BigNumber.isNegative] using hneg
  | fixedOutput =>
    rw [hst] at h
    obtain ⟨hlen, hall⟩ := mapM_zipIdx_ok h
    obtain ⟨op, hop, hf⟩ := hall _ _ hlast
    obtain ⟨v, hv, hpure⟩ := bind_eq_ok.mp hf
    obtain ⟨hval, -⟩ := bigUIntOfIntegerValue_ok hv
    -- and here none
    have hshare : args.addressRoute.length - (args.addressRoute.length - 1) - 1 = 0 := by omega
    rw [hidx, hk, hshare, intermediaryTolerance, Nat.cast_zero, BigNumber.ofDouble,
      Double.toDecimal_zero_mul, BigNumber.ofNat, BigNumber.multipliedBy_fin,
      BigNumber.plus_fin, mul_zero, add_zero, BigNumber.integerValue_fin, truncate_natCast]
      at hval
    refine ⟨k, ?_, rfl⟩
    rw [hend op hlen hop, ← pure_eq_ok.mp hpure, hval]
    norm_cast

/-- Without pairs there is nothing to build. -/
theorem transactionArgs_of_no_pairs {args : MultiSwapTokensArgs} (h : args.addressRoute = []) :
    transactionArgs args = .ok [] := by
  unfold transactionArgs multiPairFixedInputSwaps multiPairFixedOutputSwaps
  rw [h]
  cases args.swapType <;> rfl

/-- A bound on an amount that is known. -/
theorem exists_fin_ge_iff {amount : Option BigNumber} {g : ℚ} (h : amount = some (.fin g)) (n : ℚ) :
    (∃ g' : ℚ, amount = some (.fin g') ∧ n ≤ g') ↔ n ≤ g := by
  constructor
  · intro hx
    obtain ⟨g', hg', hle⟩ := hx
    rw [h] at hg'
    rw [BigNumber.fin.inj (Option.some.inj hg')]
    exact hle
  · intro hle
    exact ⟨g, h, hle⟩

/-- The router's builder unwraps the last amount, whatever the last
operation asks for. -/
theorem multiPairSwap_unwrapsGuaranteed_iff {env : Env} {args : MultiSwapTokensArgs}
    {txs : List TransactionModel} (h : multiPairSwap env args = .ok txs)
    (hegld : args.tokenOutID = EGLDIdentifier)
    (hlen : args.intermediaryAmounts.length = args.addressRoute.length + 1) :
    UnwrapsGuaranteed txs ↔ args.addressRoute ≠ [] ∧
      (args.swapType = .fixedOutput ∨ ∃ n : ℕ,
        args.amountAt args.addressRoute.length = .ofNat n ∧
        n * (args.tolerance.div (Double.ofRat args.addressRoute.length)).toDecimal ≤ 0) := by
  obtain ⟨unwrapTransaction, swaps, payment, hunwrap, hswaps, -, rfl⟩ := multiPairSwap_ok h
  -- the amount that is unwrapped is the one after the last pair
  have hindex : args.intermediaryAmounts.length - 1 = args.addressRoute.length := by omega
  rw [hindex] at hunwrap
  obtain ⟨unwrap, -, rfl, hu⟩ :=
    (unwrapIfNeeded_ok hunwrap).resolve_left (fun hn => hn.1 hegld)
  obtain ⟨payment', hcall, -, hk⟩ := unwrapEgld_ok hu
  have hend := unwrapsGuaranteed_append_iff
    (wrapIfNeeded args.tokenInID (args.amountAt 0)).toList
    ⟨.multiPairSwap swaps payment, args.addressRoute.length * 35000000⟩ hcall
  rw [Option.toList_some, List.append_assoc]
  refine hend.trans ?_
  show (∃ g : ℚ, swaps.getLast?.map (·.amountWanted) = some (.fin g) ∧ _) ↔ _
  by_cases hne : args.addressRoute = []
  · -- no operation, nothing guaranteed
    refine iff_of_false (fun hg => ?_) (fun hc => hc.1 hne)
    obtain ⟨g, hg, -⟩ := hg
    rw [transactionArgs_of_no_pairs hne] at hswaps
    obtain rfl := Except.ok.inj hswaps
    simp at hg
  · obtain ⟨g, hg, hcase⟩ := lastOperation_amountWanted hswaps hne hk
    rw [exists_fin_ge_iff hg]
    cases hst : args.swapType with
    | fixedOutput =>
      rw [hst] at hcase
      refine iff_of_true ?_ ⟨hne, Or.inl rfl⟩
      exact hcase.ge
    | fixedInput =>
      rw [hst] at hcase
      obtain ⟨h0, rfl⟩ := hcase
      -- a whole amount is not above a truncated one only if it is not above the number
      -- itself
      have hround : (payment'.amountAsBigInteger : ℚ) ≤ ((truncate
          (payment'.amountAsBigInteger - payment'.amountAsBigInteger *
            (args.tolerance.div (Double.ofRat args.addressRoute.length)).toDecimal) : ℤ) : ℚ) ↔
          payment'.amountAsBigInteger *
            (args.tolerance.div (Double.ofRat args.addressRoute.length)).toDecimal ≤ 0 := by
        rw [natCast_le_truncate_iff h0]
        constructor <;> intro hx <;> linarith
      rw [hround]
      constructor
      · intro hx
        exact ⟨hne, Or.inr ⟨_, hk, hx⟩⟩
      · intro hx
        obtain ⟨n, hn, hle⟩ := hx.2.resolve_left (by simp)
        rw [hk, BigNumber.ofNat, BigNumber.ofNat, BigNumber.fin.injEq, Nat.cast_inj] at hn
        rw [hn]
        exact hle

/-- For EGLD coming out, the amount unwrapped is guaranteed exactly when one
pair does the swap, or there is a last operation and it asks for an exact
output, or there is no tolerance that would lower its minimum. -/
theorem unwrapsGuaranteed_iff {env : Env} {args : AutoRouterArgs} {m : AutoRouteModel}
    {txs : List TransactionModel} (hswap : swap env args = .ok m)
    (hegld : args.tokenOutID = EGLDIdentifier) (htx : getTransactions env m = .ok txs) :
    UnwrapsGuaranteed txs ↔ m.pairs.length = 1 ∨ (m.pairs ≠ [] ∧
      (m.swapType = .fixedOutput ∨ ∃ n : ℕ,
        m.intermediaryAmounts[m.pairs.length]? = some (.ofNat n) ∧
        n * (args.tolerance.div (Double.ofRat m.pairs.length)).toDecimal ≤ 0)) := by
  have hans := (swap_ok hswap).1
  by_cases hlen : m.pairs.length = 1
  · obtain ⟨args', swapCall, out, -, -, hbatch, -, hcall⟩ := getTransactions_single htx hlen
    exact iff_of_true (hbatch.unwrapsGuaranteed hcall) (Or.inl hlen)
  · have hrouted := (routed_of_swap hswap).resolve_left hlen
    have hlength : (multiSwapArgs m).addressRoute.length = m.pairs.length := List.length_map ..
    rw [multiPairSwap_unwrapsGuaranteed_iff (getTransactions_multi htx hlen)
      (hans.tokenOut.trans hegld) (by rw [hlength]; exact hrouted.amounts), hlength]
    have hnil : (multiSwapArgs m).addressRoute ≠ [] ↔ m.pairs ≠ [] := by
      simp [multiSwapArgs]
    simp only [hnil, multiSwapArgs_amountAt_eq_ofNat_iff, hlen, false_or]
    rw [← hans.tolerance]
    rfl

/-- The routed swap of 1000 units for EGLD with a tolerance of 1% unwraps
992 although only 987 are guaranteed. -/
theorem unwrap_excess :
    (swap twoPairEnv ⟨"TOKB-1", "EGLD", some (.ofNat 1000), none, .ofRat (1 / 100)⟩).bind
        (getTransactions twoPairEnv)
      = .ok [⟨.multiPairSwap
            [⟨"erd1ab", "swapTokensFixedInput", "TOKA-1", .fin 986⟩,
             ⟨"erd1wa", "swapTokensFixedInput", "WEGLD-1", .fin 987⟩]
            ⟨"TOKB-1", 1000⟩, 70000000⟩,
          ⟨.unwrapEgld ⟨"WEGLD-1", 992⟩, 4200000⟩] ∧
    ¬ UnwrapsGuaranteed [⟨.multiPairSwap
            [⟨"erd1ab", "swapTokensFixedInput", "TOKA-1", .fin 986⟩,
             ⟨"erd1wa", "swapTokensFixedInput", "WEGLD-1", .fin 987⟩]
            ⟨"TOKB-1", 1000⟩, 70000000⟩,
          ⟨.unwrapEgld ⟨"WEGLD-1", 992⟩, 4200000⟩] := by
  refine ⟨by decide +kernel, fun h => ?_⟩
  obtain ⟨g, hg, hle⟩ := h [] _ _ _ rfl rfl
  have hval : g = 987 := (BigNumber.fin.inj (Option.some.inj hg)).symm
  rw [hval] at hle
  norm_num at hle

/-- With a fixed output the exact amount comes out. -/
theorem unwrap_fixedOutput :
    ∃ txs, (swap twoPairEnv ⟨"TOKB-1", "EGLD", none, some (.ofNat 1000), .ofRat (1 / 100)⟩).bind
        (getTransactions twoPairEnv) = .ok txs ∧ UnwrapsGuaranteed txs := by
  have hroute : ((swap twoPairEnv ⟨"TOKB-1", "EGLD", none, some (.ofNat 1000),
      .ofRat (1 / 100)⟩).toOption.bind fun m =>
        ((getTransactions twoPairEnv m).toOption.map fun _ => (m.swapType, m.pairs.length)))
        = some (.fixedOutput, 2) := by decide +kernel
  cases hm : swap twoPairEnv ⟨"TOKB-1", "EGLD", none, some (.ofNat 1000), .ofRat (1 / 100)⟩ with
  | error e => rw [hm] at hroute; exact absurd hroute (by simp [Except.toOption])
  | ok m =>
    rw [hm] at hroute
    cases htx : getTransactions twoPairEnv m with
    | error e => simp [Except.toOption, htx] at hroute
    | ok txs =>
      have hpair : (m.swapType, m.pairs.length) = (SWAP_TYPE.fixedOutput, 2) := by
        simpa [Except.toOption, htx] using hroute
      obtain ⟨htype, hlen⟩ := Prod.mk.inj hpair
      refine ⟨txs, htx, (unwrapsGuaranteed_iff hm rfl htx).mpr (Or.inr ⟨?_, Or.inl htype⟩)⟩
      apply List.ne_nil_of_length_pos
      omega

end MxExchange.AutoRouter
