import MxExchange.AutoRouter.Service
import MxExchange.Collections.Outcome

/-!
# The transactions of a swap

`getTransactions` turns the route of a request into the batch of
transactions to sign: wrap the EGLD that goes in, swap, unwrap the EGLD that
comes out. A route of one pair is built by the pair's own builders
(`swapTokensFixedInput`, `swapTokensFixedOutput`), any other route by the
router's (`multiPairSwap`). The receiver and the shard of a wrapping
contract play no role here and are left out.

An amount of a token payment is a natural number by construction: building
the payment checks it (`fungibleFromBigInteger`). An EGLD value is not
checked.
-/

namespace MxExchange.AutoRouter

open MxExchange.Num MxExchange.Pair MxExchange.Collections

/-! ## Values of the contract interface -/

/-- A payment in one fungible token. -/
structure TokenTransfer where
  tokenIdentifier : TokenID
  amountAsBigInteger : ℕ
  deriving DecidableEq

/-- Refuses what is not an integer or is negative. -/
def fungibleFromBigInteger (tokenIdentifier : TokenID) (amount : BigNumber) :
    Except String TokenTransfer :=
  match amount with
  | .fin q =>
    if q.den = 1 ∧ 0 ≤ q then .ok ⟨tokenIdentifier, q.num.toNat⟩ else .error "Invalid argument"
  | _ => .error "Invalid argument"

/-- The same on `amount.integerValue()`. Rounding to an integer keeps the
sign, so what is negative before is refused even if it rounds to zero. -/
def fungibleFromIntegerValue (tokenIdentifier : TokenID) (amount : BigNumber) :
    Except String TokenTransfer :=
  if amount.isNegative then .error "Invalid argument"
  else fungibleFromBigInteger tokenIdentifier amount.integerValue

/-- The argument value of an unsigned integer: not `NaN`, not negative. -/
def BigUIntValue (value : BigNumber) : Except String BigNumber :=
  if value = .nan ∨ value.isNegative then .error "Invalid argument" else .ok value

/-- The same on `value.integerValue()`. -/
def bigUIntOfIntegerValue (value : BigNumber) : Except String BigNumber :=
  if value.isNegative then .error "Invalid argument" else BigUIntValue value.integerValue

/-- One operation of a multi-pair swap: the four arguments the router takes. -/
structure SwapOperation where
  address : Address
  function : String
  tokenWantedID : TokenID
  amountWanted : BigNumber
  deriving DecidableEq

/-- The calls of contracts that are built, with their arguments. -/
inductive ContractCall where
  | wrapEgld (value : BigNumber)
  | unwrapEgld (payment : TokenTransfer)
  | swapTokensFixedInput (pairAddress : Address) (tokenOutID : TokenID)
      (amountOutMin : BigNumber) (payment : TokenTransfer)
  | swapTokensFixedOutput (pairAddress : Address) (tokenOutID : TokenID)
      (amountOut : BigNumber) (payment : TokenTransfer)
  | multiPairSwap (swaps : List SwapOperation) (payment : TokenTransfer)
  deriving DecidableEq

/-- A transaction as far as it is about tokens. -/
structure TransactionModel where
  call : ContractCall
  gasLimit : ℕ
  deriving DecidableEq

/-! ## Wrapping -/

/-- EGLD is sent along with the call. -/
def wrapEgld (amount : BigNumber) : TransactionModel := ⟨.wrapEgld amount, 4200000⟩

/-- The wrapped token is sent, which is a payment and may be refused. -/
def unwrapEgld (env : Env) (amount : BigNumber) : Except String TransactionModel := do
  let payment ← fungibleFromBigInteger env.wrappedEgldTokenID amount
  return ⟨.unwrapEgld payment, 4200000⟩

/-- EGLD is wrapped before it is traded. -/
def wrapIfNeeded (tokenID : TokenID) (amount : BigNumber) : Option TransactionModel :=
  if tokenID = EGLDIdentifier then some (wrapEgld amount) else none

/-- What was bought is unwrapped if EGLD was asked for. -/
def unwrapIfNeeded (env : Env) (tokenID : TokenID) (amount : BigNumber) :
    Except String (Option TransactionModel) :=
  if tokenID = EGLDIdentifier then do
    let transaction ← unwrapEgld env amount
    return some transaction
  else .ok none

/-! ## `auto-router.transactions.service.ts` -/

/-- A route with its amounts, as a transaction is built from it. -/
structure MultiSwapTokensArgs where
  swapType : SWAP_TYPE
  tokenInID : TokenID
  tokenOutID : TokenID
  tokenRoute : List TokenID
  intermediaryAmounts : List BigNumber
  addressRoute : List Address
  tolerance : Double

/-- `k` shares of the tolerance when it is spread over the hops. -/
def intermediaryTolerance (args : MultiSwapTokensArgs) (multiplier : ℕ) : Double :=
  (Double.ofRat multiplier).mul (args.tolerance.div (Double.ofRat args.addressRoute.length))

/-- `intermediaryAmounts[index]`. -/
def MultiSwapTokensArgs.amountAt (args : MultiSwapTokensArgs) (index : ℕ) : BigNumber :=
  args.intermediaryAmounts[index]?.getD .nan

/-- Each hop guarantees its amount less the tolerance. -/
def multiPairFixedInputSwaps (args : MultiSwapTokensArgs) :
    Except String (List SwapOperation) :=
  args.addressRoute.zipIdx.mapM fun (address, index) => do
    -- the whole tolerance at the first hop, one share of it at the last
    let toleranceAmount := (args.amountAt (index + 1)).multipliedBy
      (.ofDouble (intermediaryTolerance args (args.addressRoute.length - index)))
    let amountOutMin ←
      bigUIntOfIntegerValue ((args.amountAt (index + 1)).minus toleranceAmount)
    return ⟨address, "swapTokensFixedInput", args.tokenRoute[index + 1]?.getD "", amountOutMin⟩

/-- Each hop is asked for its amount and a part of the tolerance more. -/
def multiPairFixedOutputSwaps (args : MultiSwapTokensArgs) :
    Except String (List SwapOperation) :=
  args.addressRoute.zipIdx.mapM fun (address, index) => do
    -- one share less than for a fixed input: the last output is exact
    let toleranceAmount := (args.amountAt (index + 1)).multipliedBy
      (.ofDouble (intermediaryTolerance args (args.addressRoute.length - index - 1)))
    let amountOut ←
      bigUIntOfIntegerValue ((args.amountAt (index + 1)).plus toleranceAmount)
    return ⟨address, "swapTokensFixedOutput", args.tokenRoute[index + 1]?.getD "", amountOut⟩

/-- The tolerance added to the input. -/
def inputTolerance (args : MultiSwapTokensArgs) : BigNumber :=
  match args.swapType with
  | .fixedOutput => .ofDouble args.tolerance
  | .fixedInput => .fin 0

/-- The operations asked for. -/
def transactionArgs (args : MultiSwapTokensArgs) : Except String (List SwapOperation) :=
  match args.swapType with
  | .fixedInput => multiPairFixedInputSwaps args
  | .fixedOutput => multiPairFixedOutputSwaps args

/-- Wrapping, the swaps in one call, unwrapping. -/
def multiPairSwap (env : Env) (args : MultiSwapTokensArgs) :
    Except String (List TransactionModel) := do
  -- the ends of the amounts as they are, without the tolerance
  let wrapTransaction := wrapIfNeeded args.tokenInID (args.amountAt 0)
  let unwrapTransaction ← unwrapIfNeeded env args.tokenOutID
    (args.amountAt (args.intermediaryAmounts.length - 1))
  let amountIn := (args.amountAt 0).plus ((args.amountAt 0).multipliedBy (inputTolerance args))
  let swaps ← transactionArgs args
  let payment ← fungibleFromIntegerValue (args.tokenRoute[0]?.getD "") amountIn
  return wrapTransaction.toList
    ++ [⟨.multiPairSwap swaps payment, args.addressRoute.length * 35000000⟩]
    ++ unwrapTransaction.toList

/-! ## `pair.transactions.service.ts` -/

/-- A token that a client sends along. -/
structure InputTokenModel where
  tokenID : TokenID
  nonce : ℕ

/-- The two tokens in the order of the pair, EGLD as wrapped EGLD, and
nothing when the other token is none of the pair's. -/
def getTokensInOrder (env : Env) (firstToken secondToken : InputTokenModel)
    (firstTokenID secondTokenID : TokenID) : Option (InputTokenModel × InputTokenModel) :=
  let wrapped : InputTokenModel := ⟨env.wrappedEgldTokenID, secondToken.nonce⟩
  if firstToken.tokenID = firstTokenID then some (firstToken, wrapped)
  else if firstToken.tokenID = secondTokenID then some (wrapped, firstToken)
  else none

/-- Which of two tokens is the first of the pair; `none` is `undefined`. -/
def validateTokens (env : Env) (pairAddress : Address) (token0 token1 : InputTokenModel) :
    Except String (Option (InputTokenModel × InputTokenModel)) :=
  let firstTokenID := env.firstTokenID pairAddress
  let secondTokenID := env.secondTokenID pairAddress
  if 0 < token0.nonce ∨ 0 < token1.nonce then .error "Only ESDT tokens allowed!"
  else if token0.tokenID = EGLDIdentifier then
    .ok (getTokensInOrder env token1 token0 firstTokenID secondTokenID)
  else if token1.tokenID = EGLDIdentifier then
    .ok (getTokensInOrder env token0 token1 firstTokenID secondTokenID)
  else if token0.tokenID = firstTokenID ∧ token1.tokenID = secondTokenID then
    .ok (some (token0, token1))
  else if token1.tokenID = firstTokenID ∧ token0.tokenID = secondTokenID then
    .ok (some (token1, token0))
  else .error "invalid tokens received"

/-- The arguments of a swap on one pair. -/
structure SwapTokensArgs where
  pairAddress : Address
  tokenInID : TokenID
  tokenOutID : TokenID
  amountIn : BigNumber
  amountOut : BigNumber

/-- The least output a tolerance allows. -/
def amountOutMin (amountOut : BigNumber) (tolerance : Double) : BigNumber :=
  ((BigNumber.fin 1).dividedBy ((BigNumber.fin 1).plus (.ofDouble tolerance))).multipliedBy
    amountOut

/-- A swap that guarantees what comes out. -/
def swapTokensFixedInput (env : Env) (args : SwapTokensArgs) (tolerance : Double) :
    Except String (List TransactionModel) := do
  -- only awaited for the errors it may throw
  let _ ← validateTokens env args.pairAddress ⟨args.tokenInID, 0⟩ ⟨args.tokenOutID, 0⟩
  let gasLimit := if (env.trustedSwapPairs args.pairAddress).length = 0 then 17500000 else 30000000
  let minimum ← bigUIntOfIntegerValue (amountOutMin args.amountOut tolerance)
  if args.tokenInID = EGLDIdentifier then
    let payment ← fungibleFromBigInteger env.wrappedEgldTokenID args.amountIn
    return [wrapEgld args.amountIn,
      ⟨.swapTokensFixedInput args.pairAddress args.tokenOutID minimum payment, gasLimit⟩]
  else if args.tokenOutID = EGLDIdentifier then
    let payment ← fungibleFromBigInteger args.tokenInID args.amountIn
    let unwrapTransaction ← unwrapEgld env minimum
    return [⟨.swapTokensFixedInput args.pairAddress env.wrappedEgldTokenID minimum payment,
      gasLimit⟩, unwrapTransaction]
  else
    let payment ← fungibleFromBigInteger args.tokenInID args.amountIn
    return [⟨.swapTokensFixedInput args.pairAddress args.tokenOutID minimum payment, gasLimit⟩]

/-- A swap that asks for what is to come out. -/
def swapTokensFixedOutput (env : Env) (args : SwapTokensArgs) :
    Except String (List TransactionModel) := do
  let _ ← validateTokens env args.pairAddress ⟨args.tokenInID, 0⟩ ⟨args.tokenOutID, 0⟩
  let gasLimit := if (env.trustedSwapPairs args.pairAddress).length = 0 then 18000000 else 35000000
  let exact ← BigUIntValue args.amountOut
  if args.tokenInID = EGLDIdentifier then
    let payment ← fungibleFromBigInteger env.wrappedEgldTokenID args.amountIn
    return [wrapEgld args.amountIn,
      ⟨.swapTokensFixedOutput args.pairAddress args.tokenOutID exact payment, gasLimit⟩]
  else if args.tokenOutID = EGLDIdentifier then
    let payment ← fungibleFromBigInteger args.tokenInID args.amountIn
    let unwrapTransaction ← unwrapEgld env args.amountOut
    return [⟨.swapTokensFixedOutput args.pairAddress env.wrappedEgldTokenID exact payment,
      gasLimit⟩, unwrapTransaction]
  else
    let payment ← fungibleFromBigInteger args.tokenInID args.amountIn
    return [⟨.swapTokensFixedOutput args.pairAddress args.tokenOutID exact payment, gasLimit⟩]

/-! ## `getTransactions` -/

/-- `tokensPriceDeviationPercent > maxPriceDeviationPercent`, false when
there is no deviation to compare. -/
def spreadTooBig (m : AutoRouteModel) : Bool :=
  match m.tokensPriceDeviationPercent with
  | none => false
  | some percent => percent.gt (.fin m.maxPriceDeviationPercent)

/-- The arguments the router's builder gets for a route. -/
def multiSwapArgs (m : AutoRouteModel) : MultiSwapTokensArgs where
  swapType := m.swapType
  tokenInID := m.tokenInID
  tokenOutID := m.tokenOutID
  tokenRoute := m.tokenRoute
  intermediaryAmounts := m.intermediaryAmounts
  addressRoute := m.pairs.map (·.address)
  tolerance := m.tolerance

/-- The transactions of a quote. -/
def getTransactions (env : Env) (m : AutoRouteModel) : Except String (List TransactionModel) :=
  match m.pairs with
  | [pair] =>
    let args : SwapTokensArgs :=
      ⟨pair.address, m.tokenInID, m.tokenOutID, m.amountIn, m.amountOut⟩
    match m.swapType with
    | .fixedInput => swapTokensFixedInput env args m.tolerance
    | .fixedOutput => swapTokensFixedOutput env args
  | _ => if spreadTooBig m then .error "Spread too big!" else multiPairSwap env (multiSwapArgs m)

/-! ## What a built batch is made of -/

/-- A payment is of a whole number of units. -/
theorem fungibleFromBigInteger_ok {tokenIdentifier : TokenID} {amount : BigNumber}
    {payment : TokenTransfer} (h : fungibleFromBigInteger tokenIdentifier amount = .ok payment) :
    payment.tokenIdentifier = tokenIdentifier ∧ amount = .ofNat payment.amountAsBigInteger := by
  unfold fungibleFromBigInteger at h
  split at h
  next q =>
    split at h
    next hq =>
      rw [← Except.ok.inj h]
      refine ⟨rfl, ?_⟩
      have hnum : ((q.num.toNat : ℤ) : ℚ) = q := by
        rw [Int.toNat_of_nonneg (Rat.num_nonneg.mpr hq.2)]
        exact (Rat.den_eq_one_iff q).mp hq.1
      rw [BigNumber.ofNat, BigNumber.fin.injEq]
      exact_mod_cast hnum.symm
    next => exact absurd h (by simp)
  next => exact absurd h (by simp)

/-- A payment is of the whole part of what is not negative. -/
theorem fungibleFromIntegerValue_ok {tokenIdentifier : TokenID} {amount : BigNumber}
    {payment : TokenTransfer} (h : fungibleFromIntegerValue tokenIdentifier amount = .ok payment) :
    payment.tokenIdentifier = tokenIdentifier ∧ ∃ q : ℚ, amount = .fin q ∧ 0 ≤ q ∧
      truncate q = payment.amountAsBigInteger := by
  unfold fungibleFromIntegerValue at h
  split at h
  next => exact absurd h (by simp)
  next hneg =>
    obtain ⟨htok, hval⟩ := fungibleFromBigInteger_ok h
    refine ⟨htok, ?_⟩
    cases amount with
    | fin q =>
      refine ⟨q, rfl, ?_, ?_⟩
      · simpa [BigNumber.isNegative] using hneg
      · rw [BigNumber.integerValue_fin, BigNumber.ofNat, BigNumber.fin.injEq] at hval
        exact_mod_cast hval
    | nan => simp [BigNumber.integerValue, BigNumber.ofNat] at hval
    | infinity => simp [BigNumber.integerValue, BigNumber.ofNat] at hval
    | negInfinity => simp [BigNumber.integerValue, BigNumber.ofNat] at hval

theorem BigUIntValue_ok {value v : BigNumber} (h : BigUIntValue value = .ok v) : v = value := by
  unfold BigUIntValue at h
  split at h
  next => exact absurd h (by simp)
  next => exact (Except.ok.inj h).symm

/-- An argument is the whole part of what is not negative. -/
theorem bigUIntOfIntegerValue_ok {value v : BigNumber} (h : bigUIntOfIntegerValue value = .ok v) :
    v = value.integerValue ∧ value.isNegative = false := by
  unfold bigUIntOfIntegerValue at h
  split at h
  next => exact absurd h (by simp)
  next hneg => exact ⟨BigUIntValue_ok h, by simpa using hneg⟩

/-- Exactly the amount is unwrapped. -/
theorem unwrapEgld_ok {env : Env} {amount : BigNumber} {tx : TransactionModel}
    (h : unwrapEgld env amount = .ok tx) :
    ∃ payment : TokenTransfer, tx.call = .unwrapEgld payment ∧
      payment.tokenIdentifier = env.wrappedEgldTokenID ∧
      amount = .ofNat payment.amountAsBigInteger := by
  obtain ⟨payment, hp, hpure⟩ := bind_eq_ok.mp h
  obtain ⟨htok, hval⟩ := fungibleFromBigInteger_ok hp
  rw [← pure_eq_ok.mp hpure]
  exact ⟨payment, rfl, htok, hval⟩

/-- There is an unwrapping exactly for EGLD. -/
theorem unwrapIfNeeded_ok {env : Env} {tokenID : TokenID} {amount : BigNumber}
    {tx : Option TransactionModel} (h : unwrapIfNeeded env tokenID amount = .ok tx) :
    (tokenID ≠ EGLDIdentifier ∧ tx = none) ∨
    ∃ unwrap, tokenID = EGLDIdentifier ∧ tx = some unwrap ∧ unwrapEgld env amount = .ok unwrap := by
  unfold unwrapIfNeeded at h
  split at h
  next heq =>
    obtain ⟨unwrap, hu, hpure⟩ := bind_eq_ok.mp h
    exact Or.inr ⟨unwrap, heq, (pure_eq_ok.mp hpure).symm, hu⟩
  next hne => exact Or.inl ⟨hne, (Except.ok.inj h).symm⟩

/-- What a batch over several pairs consists of. -/
theorem multiPairSwap_ok {env : Env} {args : MultiSwapTokensArgs} {txs : List TransactionModel}
    (h : multiPairSwap env args = .ok txs) :
    ∃ unwrapTransaction swaps payment,
      unwrapIfNeeded env args.tokenOutID (args.amountAt (args.intermediaryAmounts.length - 1))
        = .ok unwrapTransaction ∧
      transactionArgs args = .ok swaps ∧
      fungibleFromIntegerValue (args.tokenRoute[0]?.getD "")
        ((args.amountAt 0).plus ((args.amountAt 0).multipliedBy (inputTolerance args)))
        = .ok payment ∧
      txs = (wrapIfNeeded args.tokenInID (args.amountAt 0)).toList
        ++ [⟨.multiPairSwap swaps payment, args.addressRoute.length * 35000000⟩]
        ++ unwrapTransaction.toList := by
  obtain ⟨unwrapTransaction, hu, h⟩ := bind_eq_ok.mp h
  obtain ⟨swaps, hs, h⟩ := bind_eq_ok.mp h
  obtain ⟨payment, hp, h⟩ := bind_eq_ok.mp h
  exact ⟨unwrapTransaction, swaps, payment, hu, hs, hp, (pure_eq_ok.mp h).symm⟩

/-- Adding a share of an amount yields a finite value only for a finite amount. -/
theorem plus_multipliedBy_eq_fin {a : BigNumber} {s q : ℚ}
    (h : a.plus (a.multipliedBy (.fin s)) = .fin q) : ∃ x : ℚ, a = .fin x ∧ q = x + x * s := by
  cases a with
  | fin x => exact ⟨x, rfl, (BigNumber.fin.inj h).symm⟩
  | nan => simp [BigNumber.plus] at h
  | infinity =>
    -- whatever the product is, adding it to an infinity is not finite
    generalize BigNumber.infinity.multipliedBy (.fin s) = b at h
    cases b <;> simp [BigNumber.plus] at h
  | negInfinity =>
    generalize BigNumber.negInfinity.multipliedBy (.fin s) = b at h
    cases b <;> simp [BigNumber.plus] at h

/-- The three shapes of a batch the pair's builders make, around a swap call
that still needs the token it asks for and the payment. -/
inductive PairBatch (env : Env) (args : SwapTokensArgs)
    (swapCall : TokenID → TokenTransfer → ContractCall) (out : BigNumber) :
    List TransactionModel → Prop
  | wrapping (payment : TokenTransfer) (gasLimit : ℕ)
      (hin : args.tokenInID = EGLDIdentifier)
      (hp : fungibleFromBigInteger env.wrappedEgldTokenID args.amountIn = .ok payment) :
      PairBatch env args swapCall out
        [wrapEgld args.amountIn, ⟨swapCall args.tokenOutID payment, gasLimit⟩]
  | unwrapping (payment : TokenTransfer) (gasLimit : ℕ) (unwrap : TransactionModel)
      (hin : args.tokenInID ≠ EGLDIdentifier) (hout : args.tokenOutID = EGLDIdentifier)
      (hu : unwrapEgld env out = .ok unwrap) :
      PairBatch env args swapCall out
        [⟨swapCall env.wrappedEgldTokenID payment, gasLimit⟩, unwrap]
  | plain (payment : TokenTransfer) (gasLimit : ℕ)
      (hin : args.tokenInID ≠ EGLDIdentifier) (hout : args.tokenOutID ≠ EGLDIdentifier) :
      PairBatch env args swapCall out [⟨swapCall args.tokenOutID payment, gasLimit⟩]

/-- What both builders do once the bound on the other side is known. -/
theorem pairBatch_ok {env : Env} {args : SwapTokensArgs}
    {swapCall : TokenID → TokenTransfer → ContractCall} {out : BigNumber} {gasLimit : ℕ}
    {txs : List TransactionModel}
    (h : (if args.tokenInID = EGLDIdentifier then do
        let payment ← fungibleFromBigInteger env.wrappedEgldTokenID args.amountIn
        return [wrapEgld args.amountIn, ⟨swapCall args.tokenOutID payment, gasLimit⟩]
      else if args.tokenOutID = EGLDIdentifier then do
        let payment ← fungibleFromBigInteger args.tokenInID args.amountIn
        let unwrapTransaction ← unwrapEgld env out
        return [⟨swapCall env.wrappedEgldTokenID payment, gasLimit⟩, unwrapTransaction]
      else do
        let payment ← fungibleFromBigInteger args.tokenInID args.amountIn
        return [⟨swapCall args.tokenOutID payment, gasLimit⟩]) = .ok txs) :
    PairBatch env args swapCall out txs := by
  split at h
  next hin =>
    obtain ⟨payment, hp, h⟩ := bind_eq_ok.mp h
    rw [← pure_eq_ok.mp h]
    exact .wrapping payment _ hin hp
  next hin =>
    split at h
    next hout =>
      obtain ⟨payment, -, h⟩ := bind_eq_ok.mp h
      obtain ⟨unwrap, hu, h⟩ := bind_eq_ok.mp h
      rw [← pure_eq_ok.mp h]
      exact .unwrapping payment _ unwrap hin hout hu
    next hout =>
      obtain ⟨payment, -, h⟩ := bind_eq_ok.mp h
      rw [← pure_eq_ok.mp h]
      exact .plain payment _ hin hout

/-- What a batch over one pair consists of. -/
theorem swapTokensFixedInput_ok {env : Env} {args : SwapTokensArgs} {tolerance : Double}
    {txs : List TransactionModel} (h : swapTokensFixedInput env args tolerance = .ok txs) :
    ∃ minimum, PairBatch env args
      (fun token payment => .swapTokensFixedInput args.pairAddress token minimum payment)
      minimum txs := by
  obtain ⟨-, -, h⟩ := bind_eq_ok.mp h
  obtain ⟨minimum, -, h⟩ := bind_eq_ok.mp h
  exact ⟨minimum, pairBatch_ok h⟩

theorem swapTokensFixedOutput_ok {env : Env} {args : SwapTokensArgs}
    {txs : List TransactionModel} (h : swapTokensFixedOutput env args = .ok txs) :
    PairBatch env args
      (fun token payment => .swapTokensFixedOutput args.pairAddress token args.amountOut payment)
      args.amountOut txs := by
  obtain ⟨-, -, h⟩ := bind_eq_ok.mp h
  obtain ⟨exact', he, h⟩ := bind_eq_ok.mp h
  obtain rfl := BigUIntValue_ok he
  exact pairBatch_ok h

/-- The payment a call takes. -/
def ContractCall.payment : ContractCall → Option TokenTransfer
  | .wrapEgld _ => none
  | .unwrapEgld payment => some payment
  | .swapTokensFixedInput _ _ _ payment => some payment
  | .swapTokensFixedOutput _ _ _ payment => some payment
  | .multiPairSwap _ payment => some payment

/-- A quote over one pair is built as a swap on it. -/
theorem getTransactions_single {env : Env} {m : AutoRouteModel} {txs : List TransactionModel}
    (h : getTransactions env m = .ok txs) (hlen : m.pairs.length = 1) :
    ∃ args swapCall out, args.tokenInID = m.tokenInID ∧ args.tokenOutID = m.tokenOutID ∧
      PairBatch env args swapCall out txs ∧
      (∀ token payment, (swapCall token payment).payment = some payment) ∧
      (∀ token payment, (∃ address,
        swapCall token payment = .swapTokensFixedInput address token out payment) ∨
        ∃ address, swapCall token payment = .swapTokensFixedOutput address token out payment) := by
  obtain ⟨pair, hp⟩ := List.length_eq_one_iff.mp hlen
  unfold getTransactions at h
  rw [hp] at h
  dsimp only at h
  cases hst : m.swapType with
  | fixedInput =>
    rw [hst] at h
    obtain ⟨minimum, hb⟩ := swapTokensFixedInput_ok h
    exact ⟨_, _, minimum, rfl, rfl, hb, fun _ _ => rfl, fun _ _ => Or.inl ⟨_, rfl⟩⟩
  | fixedOutput =>
    rw [hst] at h
    exact ⟨_, _, _, rfl, rfl, swapTokensFixedOutput_ok h, fun _ _ => rfl,
      fun _ _ => Or.inr ⟨_, rfl⟩⟩

/-- Any other is built as a swap over several pairs. -/
theorem getTransactions_multi {env : Env} {m : AutoRouteModel} {txs : List TransactionModel}
    (h : getTransactions env m = .ok txs) (hlen : m.pairs.length ≠ 1) :
    multiPairSwap env (multiSwapArgs m) = .ok txs := by
  unfold getTransactions at h
  split at h
  next pair hp => exact absurd (by rw [hp]; rfl) hlen
  next =>
    split at h
    next => exact absurd h (by simp)
    next => exact h

end MxExchange.AutoRouter
