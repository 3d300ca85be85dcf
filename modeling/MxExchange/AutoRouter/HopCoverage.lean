import MxExchange.AutoRouter.Transactions

/-!
# Does every hop of a fixed-output swap pay for the next one?

A fixed-output swap over several pairs asks every pair for the amount the
next one needs, plus a share of the tolerance that shrinks from hop to hop.
On reserves that have not moved, a hop succeeds when what it is offered, the
payment or the output of the hop before, covers the input it needs for its
own output (`HopSucceeds`).

The tolerance is spread linearly, but the input a pair needs grows faster
than linearly in the output and jumps with every rounding. So a hop can be
asked for more than it is paid for. `multiPairSwap_succeeds_iff` is the exact
condition, one inequality for each hop: what it is asked for is below what the
unrounded curve gives for what it is offered (`hopSucceeds_iff`).
-/

namespace MxExchange.AutoRouter

open MxExchange.Num MxExchange.Pair MxExchange.Collections

/-! ## Success of a built transaction -/

/-- The output is there, and the input for it is offered. -/
def HopSucceeds (h : Hop) (offered requested : BigNumber) : Prop :=
  requested.isLessThan (.ofNat h.reserveOut) = true ∧
  ∃ x n : ℚ, h.amountIn requested = .fin x ∧ offered = .fin n ∧ x ≤ n

/-- What the operations ask of hop `i`. -/
def requestedFrom (swaps : List SwapOperation) (i : ℕ) : BigNumber :=
  (swaps[i]?.map (·.amountWanted)).getD .nan

/-- What hop `i` is offered: the payment, or the output of the hop before. -/
def offeredTo (swaps : List SwapOperation) (payment : TokenTransfer) : ℕ → BigNumber
  | 0 => .ofNat payment.amountAsBigInteger
  | i + 1 => requestedFrom swaps i

/-- Every hop of the swap in the batch succeeds. -/
def AllHopsSucceed (hs : List Hop) (txs : List TransactionModel) : Prop :=
  ∃ tx ∈ txs, ∃ swaps payment, tx.call = .multiPairSwap swaps payment ∧
    swaps.length = hs.length ∧
    ∀ (i : ℕ) (h : Hop), hs[i]? = some h →
      HopSucceeds h (offeredTo swaps payment i) (requestedFrom swaps i)

/-! ## The amounts of the route -/

/-- The arguments are those of a fixed-output route over funded pairs whose
amounts were chained backwards on their reserves. -/
structure Chained (args : MultiSwapTokensArgs) (hs : List Hop) (q : ℚ) : Prop where
  swapType : args.swapType = .fixedOutput
  addresses : args.addressRoute = hs.map (·.pair.address)
  amounts : args.intermediaryAmounts = hs.scanr Hop.amountIn (.fin q)
  funded : ∀ h ∈ hs, IsFunded h.pair
  amount_pos : 0 < q
  feasible : Feasible (.fin q) hs

/-- An intermediary amount as a number. -/
def MultiSwapTokensArgs.units (args : MultiSwapTokensArgs) (index : ℕ) : ℚ :=
  match args.amountAt index with
  | .fin q => q
  | _ => 0

/-- An amount with a share of itself on top, in whole units. -/
def inflated (amount share : ℚ) : ℤ := truncate (amount + amount * share)

/-- What hop `i` is asked for: the amount after it, inflated by one share of
the tolerance for every hop still to come. -/
def requested (args : MultiSwapTokensArgs) (i : ℕ) : ℤ :=
  inflated (args.units (i + 1))
    (intermediaryTolerance args (args.addressRoute.length - i - 1)).toDecimal

/-- What hop `i` is offered: the first amount inflated by the tolerance, or
what the hop before is asked for. -/
def offered (args : MultiSwapTokensArgs) : ℕ → ℤ
  | 0 => inflated (args.units 0) args.tolerance.toDecimal
  | i + 1 => requested args i

/-- The rest of a feasible route is feasible. -/
theorem feasible_drop {amount : BigNumber} {hs : List Hop} (h : Feasible amount hs) (i : ℕ) :
    Feasible amount (hs.drop i) := by
  induction hs generalizing i with
  | nil =>
    rw [List.drop_nil]
    exact h
  | cons h' hs ih =>
    cases i with
    | zero => exact h
    | succ i => exact ih h.1 i

/-- The first amount of a feasible chain is a positive number of units. -/
theorem foldr_amountIn_cons {h : Hop} {hs : List Hop} {q : ℚ}
    (hf : ∀ h' ∈ h :: hs, IsFunded h'.pair) (hq : 0 < q) (hfeas : Feasible (.fin q) (h :: hs)) :
    ∃ n : ℕ, (h :: hs).foldr Hop.amountIn (.fin q) = .ofNat n ∧ 0 < n := by
  rcases composed_fixedOutput_cases _ (fun h' hh' => hf h' (List.mem_cons_of_mem _ hh')) hq with
    ⟨-, y, hy, -, hy0⟩ | ⟨hn, -⟩
  · have hlt := hfeas.2
    rw [hy] at hlt
    obtain ⟨n, hn, -, hpos⟩ := Hop.requiredFrom_of_lt (hf h (List.mem_cons_self ..)).fee hy0.le
      (by simpa [BigNumber.ofNat] using hlt)
    refine ⟨n, ?_, hpos⟩
    rw [List.foldr_cons, hy, hn]
  · exact absurd hfeas.1 hn

/-- The amount at a token of the route is what the rest of the route asks for
the last one. -/
theorem Chained.amountAt_eq {args : MultiSwapTokensArgs} {hs : List Hop} {q : ℚ}
    (hc : Chained args hs q) {i : ℕ} (hi : i ≤ hs.length) :
    args.amountAt i = (hs.drop i).foldr Hop.amountIn (.fin q) := by
  unfold MultiSwapTokensArgs.amountAt
  rw [hc.amounts, List.getElem?_scanr, if_pos (by omega)]
  rfl

/-- Before every hop the route has a positive number of units. -/
theorem Chained.units_before {args : MultiSwapTokensArgs} {hs : List Hop} {q : ℚ}
    (hc : Chained args hs q) {i : ℕ} (hi : i < hs.length) :
    ∃ n : ℕ, args.amountAt i = .ofNat n ∧ args.units i = n ∧ 0 < n := by
  have hcons := List.drop_eq_getElem_cons hi
  have hfeas := feasible_drop hc.feasible i
  have hmem : ∀ h ∈ hs.drop i, IsFunded h.pair := fun h hh =>
    hc.funded h (List.mem_of_mem_drop hh)
  rw [hcons] at hfeas hmem
  obtain ⟨n, hn, hpos⟩ := foldr_amountIn_cons hmem hc.amount_pos hfeas
  have hamount : args.amountAt i = .ofNat n := by
    rw [hc.amountAt_eq hi.le, hcons, hn]
  refine ⟨n, hamount, ?_, hpos⟩
  unfold MultiSwapTokensArgs.units
  rw [hamount]
  rfl

/-- After every hop it has a positive amount. -/
theorem Chained.units_after {args : MultiSwapTokensArgs} {hs : List Hop} {q : ℚ}
    (hc : Chained args hs q) {i : ℕ} (hi : i < hs.length) :
    args.amountAt (i + 1) = .fin (args.units (i + 1)) ∧ 0 < args.units (i + 1) := by
  rcases Nat.lt_or_ge (i + 1) hs.length with hlt | hge
  · -- what one hop delivers is what the next one needs
    obtain ⟨n, hn, hu, hpos⟩ := hc.units_before hlt
    rw [hu]
    exact ⟨hn, by exact_mod_cast hpos⟩
  · have hend : args.amountAt (i + 1) = .fin q := by
      rw [hc.amountAt_eq (by omega), List.drop_eq_nil_of_le hge]
      rfl
    have hu : args.units (i + 1) = q := by
      unfold MultiSwapTokensArgs.units
      rw [hend]
    rw [hu]
    exact ⟨hend, hc.amount_pos⟩

/-- A tolerance takes nothing away. -/
theorem le_inflated {amount share : ℚ} (hs : 0 ≤ share) {n : ℕ} (h : amount = n) :
    (n : ℤ) ≤ inflated amount share := by
  have hn : (0 : ℚ) ≤ n := Nat.cast_nonneg n
  have hshare := mul_nonneg hn hs
  unfold inflated
  rw [h, le_truncate_iff (by linarith)]
  push_cast
  linarith

theorem inflated_nonneg {amount share : ℚ} (hs : 0 ≤ share) (h : 0 ≤ amount) :
    0 ≤ inflated amount share :=
  truncate_nonneg (add_nonneg h (mul_nonneg h hs))

/-- The tolerance of a hop is a part of the whole, and not negative. -/
theorem intermediaryTolerance_nonneg {args : MultiSwapTokensArgs} (htol : 0 ≤ args.tolerance.val)
    (k : ℕ) : 0 ≤ (intermediaryTolerance args k).toDecimal := by
  apply Double.toDecimal_nonneg
  have hk : 0 ≤ (Double.ofRat (k : ℚ)).val := roundDouble_nonneg (Nat.cast_nonneg k)
  have hn : 0 ≤ (Double.ofRat (args.addressRoute.length : ℚ)).val :=
    roundDouble_nonneg (Nat.cast_nonneg _)
  exact Double.mul_val_nonneg hk (Double.div_val_nonneg htol hn)

theorem Chained.requested_nonneg {args : MultiSwapTokensArgs} {hs : List Hop} {q : ℚ}
    (hc : Chained args hs q) (htol : 0 ≤ args.tolerance.val) {i : ℕ} (hi : i < hs.length) :
    0 ≤ requested args i :=
  inflated_nonneg (intermediaryTolerance_nonneg htol _) (hc.units_after hi).2.le

/-- Something is offered to every hop. -/
theorem Chained.one_le_offered {args : MultiSwapTokensArgs} {hs : List Hop} {q : ℚ}
    (hc : Chained args hs q) (htol : 0 ≤ args.tolerance.val) {i : ℕ} (hi : i < hs.length) :
    1 ≤ offered args i := by
  obtain ⟨n, -, hu, hpos⟩ := hc.units_before hi
  have hone : ∀ share : ℚ, 0 ≤ share → 1 ≤ inflated (args.units i) share := by
    intro share hshare
    have hle := le_inflated hshare hu
    omega
  cases i with
  | zero => exact hone _ (Double.toDecimal_nonneg htol)
  | succ i => exact hone _ (intermediaryTolerance_nonneg htol _)

/-! ## What is built -/

/-- The operations ask for the requested amounts. -/
theorem Chained.requestedFrom_eq {args : MultiSwapTokensArgs} {hs : List Hop} {q : ℚ}
    (hc : Chained args hs q) {swaps : List SwapOperation}
    (h : transactionArgs args = .ok swaps) :
    swaps.length = hs.length ∧
      ∀ i < hs.length, requestedFrom swaps i = .fin (requested args i) := by
  have hlength : args.addressRoute.length = hs.length := by rw [hc.addresses, List.length_map]
  rw [transactionArgs, hc.swapType] at h
  obtain ⟨hlen, hall⟩ := mapM_zipIdx_ok h
  refine ⟨hlen.trans hlength, ?_⟩
  intro i hi
  have hget := List.getElem?_eq_getElem (l := args.addressRoute) (i := i) (by omega)
  obtain ⟨op, hop, hf⟩ := hall i _ hget
  obtain ⟨v, hv, hpure⟩ := bind_eq_ok.mp hf
  obtain ⟨hval, -⟩ := bigUIntOfIntegerValue_ok hv
  rw [(hc.units_after hi).1, BigNumber.ofDouble, BigNumber.multipliedBy_fin, BigNumber.plus_fin,
    BigNumber.integerValue_fin] at hval
  unfold requestedFrom
  rw [hop, ← pure_eq_ok.mp hpure, hval]
  rfl

/-- The payment is what is offered to the first hop. -/
theorem Chained.payment_eq {args : MultiSwapTokensArgs} {hs : List Hop} {q : ℚ}
    (hc : Chained args hs q) {token : TokenID} {payment : TokenTransfer}
    (h : fungibleFromIntegerValue token
      ((args.amountAt 0).plus ((args.amountAt 0).multipliedBy (inputTolerance args)))
        = .ok payment) : (payment.amountAsBigInteger : ℤ) = offered args 0 := by
  obtain ⟨-, x, hx, -, hround⟩ := fungibleFromIntegerValue_ok h
  rw [inputTolerance, hc.swapType] at hx
  obtain ⟨u, hu, rfl⟩ := plus_multipliedBy_eq_fin hx
  rw [← hround]
  unfold offered inflated MultiSwapTokensArgs.units
  rw [hu]

/-- Each hop is offered what the one before was asked for. -/
theorem offeredTo_eq {args : MultiSwapTokensArgs} {hs : List Hop} {swaps : List SwapOperation}
    {payment : TokenTransfer}
    (hreq : ∀ i < hs.length, requestedFrom swaps i = .fin (requested args i))
    (hpay : (payment.amountAsBigInteger : ℤ) = offered args 0) {i : ℕ} (hi : i < hs.length) :
    offeredTo swaps payment i = .fin (offered args i) := by
  cases i with
  | zero =>
    rw [← hpay]
    show BigNumber.fin _ = _
    norm_cast
  | succ i => exact hreq i (by omega)

/-- One hop: the request is below what the curve gives for the offer. -/
theorem hopSucceeds_iff {h : Hop} (hf : IsFunded h.pair) {offer request : ℤ}
    (hr : 0 ≤ request) (ho : 1 ≤ offer) :
    HopSucceeds h (.fin offer) (.fin request) ↔
      (request : ℚ) < curveOut offer h.reserveIn h.reserveOut
        h.pair.totalFeePercent := by
  have hrq : (0 : ℚ) ≤ request := by exact_mod_cast hr
  rw [← getAmountIn_le_iff hf.fee (Hop.reserveIn_pos hf) (Hop.reserveOut_pos hf) hrq ho]
  unfold HopSucceeds
  rw [Hop.amountIn_eq, BigNumber.ofNat, BigNumber.isLessThan_fin, decide_eq_true_iff]
  refine and_congr_right fun hlt => ?_
  -- the input is an integer
  have hint := @getAmountIn_fin _ h.reserveIn _ _ hf.fee hlt
  constructor
  · intro hx
    obtain ⟨x, n, hin, hn, hle⟩ := hx
    obtain rfl := BigNumber.fin.inj hn
    refine ⟨_, hint, ?_⟩
    have heq : _ = x := BigNumber.fin.inj (hint.symm.trans hin)
    rw [← heq] at hle
    exact_mod_cast hle
  · intro hx
    obtain ⟨a, ha, hle⟩ := hx
    exact ⟨a, offer, ha, rfl, by exact_mod_cast hle⟩

/-- The whole swap succeeds on unmoved reserves exactly when for every hop
the request is below what the unrounded curve gives for the offer. -/
theorem multiPairSwap_succeeds_iff {env : Env} {args : MultiSwapTokensArgs} {hs : List Hop}
    {q : ℚ} {txs : List TransactionModel} (hc : Chained args hs q)
    (htol : 0 ≤ args.tolerance.val) (htx : multiPairSwap env args = .ok txs) :
    AllHopsSucceed hs txs ↔ ∀ (i : ℕ) (h : Hop), hs[i]? = some h →
      (requested args i : ℚ) < curveOut (offered args i) h.reserveIn h.reserveOut
        h.pair.totalFeePercent := by
  obtain ⟨unwrapTransaction, swaps, payment, hunwrap, hswaps, hpay, rfl⟩ := multiPairSwap_ok htx
  obtain ⟨hlen, hreq⟩ := hc.requestedFrom_eq hswaps
  have hoff := fun i hi => offeredTo_eq hreq (hc.payment_eq hpay) (i := i) hi
  have hhops : (∀ (i : ℕ) (h : Hop), hs[i]? = some h →
        HopSucceeds h (offeredTo swaps payment i) (requestedFrom swaps i)) ↔
      ∀ (i : ℕ) (h : Hop), hs[i]? = some h →
        (requested args i : ℚ) < curveOut (offered args i) h.reserveIn
          h.reserveOut h.pair.totalFeePercent := by
    refine forall₃_congr fun i h hi => ?_
    have hlt : i < hs.length := (List.getElem?_eq_some_iff.mp hi).1
    rw [hoff i hlt, hreq i hlt]
    exact hopSucceeds_iff (hc.funded h (List.mem_of_getElem? hi)) (hc.requested_nonneg htol hlt)
      (hc.one_le_offered htol hlt)
  rw [← hhops]
  constructor
  · intro hall
    obtain ⟨tx, htx, swaps', payment', hcall, -, hsucc⟩ := hall
    -- the other transactions of the batch are no swaps
    have hmid : tx = ⟨.multiPairSwap swaps payment, args.addressRoute.length * 35000000⟩ := by
      rcases List.mem_append.mp htx with hl | hr
      · rcases List.mem_append.mp hl with hw | hm
        · unfold wrapIfNeeded wrapEgld at hw
          split at hw
          next =>
            simp only [Option.toList_some, List.mem_singleton] at hw
            rw [hw] at hcall
            exact absurd hcall (by simp)
          next => simp at hw
        · exact List.mem_singleton.mp hm
      · rcases unwrapIfNeeded_ok hunwrap with ⟨-, rfl⟩ | ⟨unwrap, -, rfl, hu⟩
        · simp at hr
        · obtain ⟨p, hp, -⟩ := unwrapEgld_ok hu
          rw [Option.toList_some, List.mem_singleton] at hr
          rw [hr, hp] at hcall
          exact absurd hcall (by simp)
    rw [hmid] at hcall
    obtain ⟨rfl, rfl⟩ := ContractCall.multiPairSwap.inj hcall
    exact hsucc
  · intro hsucc
    refine ⟨⟨.multiPairSwap swaps payment, args.addressRoute.length * 35000000⟩, ?_, swaps,
      payment, rfl, hlen, hsucc⟩
    simp

/-! ## Two hops over a million units each -/

def sampleHops : List Hop :=
  [⟨"TOKA-1", "TOKB-1", samplePair "erd1ab" "TOKA-1" "TOKB-1" 1000000⟩,
   ⟨"TOKB-1", "TOKC-1", samplePair "erd1bc" "TOKB-1" "TOKC-1" 1000000⟩]

/-- The arguments for so many units of output with a tolerance of 1%. -/
def sampleArgs (amountOut : ℕ) : MultiSwapTokensArgs where
  swapType := .fixedOutput
  tokenInID := "TOKA-1"
  tokenOutID := "TOKC-1"
  tokenRoute := ["TOKA-1", "TOKB-1", "TOKC-1"]
  intermediaryAmounts := sampleHops.scanr Hop.amountIn (.ofNat amountOut)
  addressRoute := sampleHops.map (·.pair.address)
  tolerance := .ofRat (1 / 100)

theorem sampleHops_funded : ∀ h ∈ sampleHops, IsFunded h.pair := by
  intro h hh
  rcases List.mem_cons.mp hh with rfl | hh
  · exact ⟨by decide, by decide, by decide +kernel, by decide +kernel⟩
  · rw [List.mem_singleton.mp hh]
    exact ⟨by decide, by decide, by decide +kernel, by decide +kernel⟩

/-- A request over the two sample pairs, with amounts that fit together. -/
theorem sampleArgs_chained (amountOut : ℕ) (hpos : 0 < amountOut)
    (hfeas : Feasible (.ofNat amountOut) sampleHops) :
    Chained (sampleArgs amountOut) sampleHops amountOut where
  swapType := rfl
  addresses := rfl
  amounts := rfl
  funded := sampleHops_funded
  amount_pos := by exact_mod_cast hpos
  feasible := hfeas

/-- 450000 units cost 4589272 of the first token. The transaction pays
4635164 and asks the first pair for 824747, which costs 4720198. -/
theorem multiPairSwap_fails : Chained (sampleArgs 450000) sampleHops (450000 : ℕ) ∧
    ∃ txs, multiPairSwap onePairEnv (sampleArgs 450000) = .ok txs ∧
      ¬ AllHopsSucceed sampleHops txs := by
  refine ⟨sampleArgs_chained _ (by decide) ⟨⟨trivial, by decide +kernel⟩, by decide +kernel⟩,
    [⟨.multiPairSwap [⟨"erd1ab", "swapTokensFixedOutput", "TOKB-1", .fin 824747⟩,
      ⟨"erd1bc", "swapTokensFixedOutput", "TOKC-1", .fin 450000⟩] ⟨"TOKA-1", 4635164⟩,
      70000000⟩], by decide +kernel, ?_⟩
  intro hall
  obtain ⟨tx, htx, swaps, payment, hcall, -, hsucc⟩ := hall
  rw [List.mem_singleton.mp htx] at hcall
  obtain ⟨rfl, rfl⟩ := ContractCall.multiPairSwap.inj hcall
  obtain ⟨-, x, n, hin, hoff, hle⟩ := hsucc 0 _ rfl
  have hcost : (Hop.mk "TOKA-1" "TOKB-1" (samplePair "erd1ab" "TOKA-1" "TOKB-1" 1000000)).amountIn
      (.fin 824747) = .fin 4720198 := by decide +kernel
  have hx : x = 4720198 := BigNumber.fin.inj (hin.symm.trans hcost)
  have hn : n = (4635164 : ℕ) := (BigNumber.fin.inj hoff).symm
  rw [hx, hn] at hle
  norm_num at hle

/-- 10000 units cost 10267, the transaction pays 10369 and asks the first
pair for 10182. -/
theorem multiPairSwap_succeeds_small :
    ∃ txs, multiPairSwap onePairEnv (sampleArgs 10000) = .ok txs ∧
      AllHopsSucceed sampleHops txs := by
  have hok : multiPairSwap onePairEnv (sampleArgs 10000) = .ok
      [⟨.multiPairSwap [⟨"erd1ab", "swapTokensFixedOutput", "TOKB-1", .fin 10182⟩,
        ⟨"erd1bc", "swapTokensFixedOutput", "TOKC-1", .fin 10000⟩] ⟨"TOKA-1", 10369⟩,
        70000000⟩] := by decide +kernel
  have hchained := sampleArgs_chained 10000 (by decide)
    ⟨⟨trivial, by decide +kernel⟩, by decide +kernel⟩
  refine ⟨_, hok, (multiPairSwap_succeeds_iff hchained (by decide +kernel) hok).mpr ?_⟩
  intro i h hi
  have hlt : i < 2 := (List.getElem?_eq_some_iff.mp hi).1
  rcases (by omega : i = 0 ∨ i = 1) with rfl | rfl
  · obtain rfl := Option.some.inj hi
    decide +kernel
  · obtain rfl := Option.some.inj hi
    decide +kernel

end MxExchange.AutoRouter
