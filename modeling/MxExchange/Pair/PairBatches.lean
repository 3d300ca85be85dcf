import MxExchange.Collections.Wallets
import MxExchange.Pair.LiquidityPositions
import MxExchange.Pair.PairTransactions

/-!
# `pair.transactions.service.ts`: the batches a user signs

A request that names EGLD becomes up to two transactions: EGLD is wrapped before it
is paid to a pair, and wrapped EGLD that a pair is asked for is unwrapped after it.
The transactions are signed together and sent one after the other, so whether the
later ones can be paid for depends on what the earlier ones are sure to deliver.

`BuiltTransaction.payment` reads a transaction as a payment: what it sends, and what
the call is sure to return, since the contracts refuse where the least amounts of a
call cannot be met. `Request.build` are the builders. A batch that is built can
always be carried out by a user who has what the request offers, and it costs no
more than that and returns at least what the request asks for, in the tokens the
request names (`build_exchanges`).
-/

namespace MxExchange.Pair

open MxExchange.Num MxExchange.Collections
open AutoRouter (Env EGLDIdentifier TokenTransfer TransactionModel SwapTokensArgs wrapEgld
  unwrapEgld fungibleFromBigInteger fungibleFromBigInteger_ok bigUIntOfIntegerValue
  bigUIntOfIntegerValue_ok BigUIntValue_ok unwrapEgld_ok amountOutMin swapTokensFixedInput
  swapTokensFixedOutput)
open StakingProxy (getLiquidityPosition)
open StakingProxy.DualYieldPosition (getTokenForGivenPosition_eq)

/-! ## `removeLiquidity` -/

/-- What a client asks for. -/
structure RemoveLiquidityArgs where
  pairAddress : Address
  liquidity : BigNumber
  liquidityTokenID : TokenID
  tolerance : Double

/-- The call that removes liquidity. -/
structure RemoveLiquidityTransaction where
  pairAddress : Address
  amount0Min : BigNumber
  amount1Min : BigNumber
  payment : TokenTransfer
  gasLimit : ℕ
  deriving DecidableEq

/-- The transactions of all builders. -/
inductive BuiltTransaction where
  | plain (transaction : TransactionModel)
  | liquidity (transaction : LiquidityTransaction)
  | removal (transaction : RemoveLiquidityTransaction)
  deriving DecidableEq

namespace PairTransactionService

variable (service : PairTransactionService)

/-- The least amount of a token that a tolerance allows. -/
def leastAmount (amount : BigNumber) (tolerance : Double) : Except String BigNumber :=
  bigUIntOfIntegerValue (amount.multipliedBy (.ofDouble ((Double.ofRat 1).sub tolerance)))

/-- The call, and what is unwrapped of the EGLD it gives. -/
def removeLiquidity (args : RemoveLiquidityArgs) : Except String (List BuiltTransaction) := do
  let wrappedTokenID := service.env.wrappedEgldTokenID
  let firstTokenID := service.env.firstTokenID args.pairAddress
  let secondTokenID := service.env.secondTokenID args.pairAddress
  let liquidityPosition :=
    getLiquidityPosition (service.env.pairInfoMetadata args.pairAddress) args.liquidity
  let amount0Min ← leastAmount liquidityPosition.firstTokenAmount args.tolerance
  let amount1Min ← leastAmount liquidityPosition.secondTokenAmount args.tolerance
  let payment ← fungibleFromBigInteger args.liquidityTokenID args.liquidity
  let removal : BuiltTransaction :=
    .removal ⟨args.pairAddress, amount0Min, amount1Min, payment, 10000000⟩
  if wrappedTokenID = firstTokenID then
    let unwrap ← unwrapEgld service.env amount0Min
    return [removal, .plain unwrap]
  else if wrappedTokenID = secondTokenID then
    let unwrap ← unwrapEgld service.env amount1Min
    return [removal, .plain unwrap]
  else return [removal]

end PairTransactionService

/-! ## Transactions as payments -/

/-- What a wallet holds: EGLD, or a token. -/
inductive Asset where
  | egld
  | esdt (tokenID : TokenID)
  deriving DecidableEq

/-- What a token in a request stands for. -/
def namedAsset (tokenID : TokenID) : Asset :=
  if tokenID = EGLDIdentifier then .egld else .esdt tokenID

/-- An amount that a transaction can carry. -/
def wholeAmount : BigNumber → Option ℕ
  | .fin q => if q.den = 1 ∧ 0 ≤ q then some q.num.toNat else none
  | _ => none

/-- What a payment takes. -/
def transferAmount (payment : TokenTransfer) : Asset × ℕ :=
  (.esdt payment.tokenIdentifier, payment.amountAsBigInteger)

/-- What a transaction sends, and what is sure to come back: all of what is wrapped
or unwrapped, and of the tokens of a swap or of liquidity that is removed at least
the least amounts. What adding liquidity returns is not counted on. -/
def BuiltTransaction.payment (env : Env) : BuiltTransaction → Option (Payment Asset)
  | .plain ⟨.wrapEgld value, _⟩ => do
    let amount ← wholeAmount value
    return ⟨[(.egld, amount)], [(.esdt env.wrappedEgldTokenID, amount)]⟩
  | .plain ⟨.unwrapEgld payment, _⟩ =>
    some ⟨[transferAmount payment], [(.egld, payment.amountAsBigInteger)]⟩
  | .plain ⟨.swapTokensFixedInput _ tokenOutID minimum payment, _⟩ => do
    let amount ← wholeAmount minimum
    return ⟨[transferAmount payment], [(.esdt tokenOutID, amount)]⟩
  | .plain ⟨.swapTokensFixedOutput _ tokenOutID amountOut payment, _⟩ => do
    let amount ← wholeAmount amountOut
    return ⟨[transferAmount payment], [(.esdt tokenOutID, amount)]⟩
  | .plain ⟨.multiPairSwap _ _, _⟩ => none -- no call of a pair
  | .liquidity transaction =>
    some ⟨[transferAmount transaction.firstPayment, transferAmount transaction.secondPayment], []⟩
  | .removal transaction => do
    let first ← wholeAmount transaction.amount0Min
    let second ← wholeAmount transaction.amount1Min
    return ⟨[transferAmount transaction.payment],
      [(.esdt (env.firstTokenID transaction.pairAddress), first),
        (.esdt (env.secondTokenID transaction.pairAddress), second)]⟩

/-- All transactions of a batch as payments. -/
def payments (env : Env) (batch : List BuiltTransaction) : Option (List (Payment Asset)) :=
  batch.mapM fun transaction => transaction.payment env

/-! ## Requests -/

/-- What can be asked of the builders. -/
inductive Request where
  | addInitialLiquidity (sender : Address) (args : AddLiquidityArgs)
  | addLiquidity (args : AddLiquidityArgs)
  | removeLiquidity (args : RemoveLiquidityArgs)
  | swapTokensFixedInput (args : SwapTokensArgs) (tolerance : Double)
  | swapTokensFixedOutput (args : SwapTokensArgs)

def BatchTransaction.built : BatchTransaction → BuiltTransaction
  | .wrap transaction => .plain transaction
  | .liquidity transaction => .liquidity transaction

namespace Request

variable (service : PairTransactionService)

/-- The resolver's mutations. -/
def build : Request → Except String (List BuiltTransaction)
  | .addInitialLiquidity sender args => do
    let batch ← service.addInitialLiquidityBatch sender args
    return batch.map BatchTransaction.built
  | .addLiquidity args => do
    let batch ← service.addLiquidityBatch args
    return batch.map BatchTransaction.built
  | .removeLiquidity args => service.removeLiquidity args
  | .swapTokensFixedInput args tolerance => do
    let batch ← AutoRouter.swapTokensFixedInput service.env args tolerance
    return batch.map BuiltTransaction.plain
  | .swapTokensFixedOutput args => do
    let batch ← AutoRouter.swapTokensFixedOutput service.env args
    return batch.map BuiltTransaction.plain

def amountOf (amount : BigNumber) : ℕ := (wholeAmount amount).getD 0

/-- What the user is ready to give. -/
def offered : Request → List (Asset × ℕ)
  | .addInitialLiquidity _ args =>
    [(namedAsset args.tokens.1.tokenID, amountOf args.tokens.1.amount),
      (namedAsset args.tokens.2.tokenID, amountOf args.tokens.2.amount)]
  | .addLiquidity args =>
    [(namedAsset args.tokens.1.tokenID, amountOf args.tokens.1.amount),
      (namedAsset args.tokens.2.tokenID, amountOf args.tokens.2.amount)]
  | .removeLiquidity args => [(.esdt args.liquidityTokenID, amountOf args.liquidity)]
  | .swapTokensFixedInput args _ => [(namedAsset args.tokenInID, amountOf args.amountIn)]
  | .swapTokensFixedOutput args => [(namedAsset args.tokenInID, amountOf args.amountIn)]

/-- Wrapped EGLD is returned as EGLD. -/
def unwrapped (tokenID : TokenID) : Asset :=
  if tokenID = service.env.wrappedEgldTokenID then .egld else .esdt tokenID

/-- What a tolerance leaves of an amount. -/
def keptAmount (amount : BigNumber) (tolerance : Double) : ℕ :=
  amountOf (amount.multipliedBy (.ofDouble ((Double.ofRat 1).sub tolerance))).integerValue

/-- What the user asks for at least. -/
def received : Request → List (Asset × ℕ)
  | .addInitialLiquidity _ _ => []
  | .addLiquidity _ => []
  | .removeLiquidity args =>
    let position :=
      getLiquidityPosition (service.env.pairInfoMetadata args.pairAddress) args.liquidity
    [(unwrapped service (service.env.firstTokenID args.pairAddress),
        keptAmount position.firstTokenAmount args.tolerance),
      (unwrapped service (service.env.secondTokenID args.pairAddress),
        keptAmount position.secondTokenAmount args.tolerance)]
  | .swapTokensFixedInput args tolerance =>
    [(namedAsset args.tokenOutID, amountOf (amountOutMin args.amountOut tolerance).integerValue)]
  | .swapTokensFixedOutput args => [(namedAsset args.tokenOutID, amountOf args.amountOut)]

/-- No token of the pair is called EGLD; a swap is between two tokens, and its
output and its tolerance are amounts. -/
def Proper : Request → Prop
  | .addInitialLiquidity _ args =>
    service.env.firstTokenID args.pairAddress ≠ EGLDIdentifier ∧
      service.env.secondTokenID args.pairAddress ≠ EGLDIdentifier
  | .addLiquidity args =>
    service.env.firstTokenID args.pairAddress ≠ EGLDIdentifier ∧
      service.env.secondTokenID args.pairAddress ≠ EGLDIdentifier
  | .removeLiquidity _ => True
  | .swapTokensFixedInput args tolerance =>
    args.tokenInID ≠ args.tokenOutID ∧ (∃ q, args.amountOut = .fin q) ∧ 0 ≤ tolerance.val
  | .swapTokensFixedOutput args =>
    args.tokenInID ≠ args.tokenOutID ∧ ∃ n, args.amountOut = .ofNat n

end Request

/-! ## Amounts -/

section Amounts

theorem wholeAmount_ofNat (n : ℕ) : wholeAmount (.ofNat n) = some n := by
  show (if ((n : ℚ)).den = 1 ∧ (0 : ℚ) ≤ n then some (n : ℚ).num.toNat else none) = some n
  rw [if_pos ⟨Rat.den_natCast n, Nat.cast_nonneg n⟩, Rat.num_natCast, Int.toNat_natCast]

theorem amountOf_ofNat (n : ℕ) : Request.amountOf (.ofNat n) = n := by
  rw [Request.amountOf, wholeAmount_ofNat, Option.getD_some]

/-- What is finite and not negative is whole once it is rounded. -/
theorem exists_integerValue {value : BigNumber} {q : ℚ} (hvalue : value = .fin q)
    (h : value.isNegative = false) : ∃ n : ℕ, value.integerValue = .ofNat n := by
  rw [hvalue, BigNumber.isNegative_fin, decide_eq_false_iff_not, not_lt] at h
  refine ⟨(truncate q).toNat, ?_⟩
  have hcast : ((truncate q).toNat : ℤ) = truncate q :=
    Int.toNat_of_nonneg (truncate_nonneg h)
  rw [hvalue, BigNumber.integerValue_fin, BigNumber.ofNat, BigNumber.fin.injEq]
  exact_mod_cast hcast.symm

/-- A payment takes its amount. -/
theorem transferAmount_eq {tokenID : TokenID} {amount : BigNumber} {payment : TokenTransfer}
    (h : fungibleFromBigInteger tokenID amount = .ok payment) :
    transferAmount payment = (.esdt tokenID, Request.amountOf amount) := by
  obtain ⟨hid, hamount⟩ := fungibleFromBigInteger_ok h
  rw [transferAmount, hid, hamount, amountOf_ofNat]

/-- A batch of one transaction. -/
theorem payments_singleton {env : Env} {transaction : BuiltTransaction} {payment : Payment Asset}
    (h : transaction.payment env = some payment) : payments env [transaction] = some [payment] := by
  unfold payments
  rw [List.mapM_cons, h]
  rfl

/-- A batch of two. -/
theorem payments_pair {env : Env} {transaction next : BuiltTransaction}
    {payment nextPayment : Payment Asset} (h : transaction.payment env = some payment)
    (hnext : next.payment env = some nextPayment) :
    payments env [transaction, next] = some [payment, nextPayment] := by
  unfold payments
  rw [List.mapM_cons, List.mapM_cons, h, hnext]
  rfl

theorem namedAsset_of_eq {tokenID : TokenID} (h : tokenID = EGLDIdentifier) :
    namedAsset tokenID = .egld := if_pos h

theorem namedAsset_of_ne {tokenID : TokenID} (h : tokenID ≠ EGLDIdentifier) :
    namedAsset tokenID = .esdt tokenID := if_neg h

/-- What wrapping is as a payment. -/
theorem payment_wrapEgld {env : Env} {amount : BigNumber} {n : ℕ} (h : amount = .ofNat n) :
    (BuiltTransaction.plain (wrapEgld amount)).payment env =
      some ⟨[(.egld, n)], [(.esdt env.wrappedEgldTokenID, n)]⟩ := by
  show (do
    let amount ← wholeAmount amount
    return (⟨[(.egld, amount)], [(.esdt env.wrappedEgldTokenID, amount)]⟩ : Payment Asset)) = _
  rw [h, wholeAmount_ofNat]
  rfl

/-- Unwrapping takes the wrapped token and gives as much EGLD. -/
theorem payment_unwrapEgld {env : Env} {amount : BigNumber} {n : ℕ} {unwrap : TransactionModel}
    (h : unwrapEgld env amount = .ok unwrap) (hamount : amount = .ofNat n) :
    (BuiltTransaction.plain unwrap).payment env =
      some ⟨[(.esdt env.wrappedEgldTokenID, n)], [(.egld, n)]⟩ := by
  obtain ⟨payment, hcall, hid, hpaid⟩ := unwrapEgld_ok h
  obtain ⟨call, gasLimit⟩ := unwrap
  obtain rfl : call = .unwrapEgld payment := hcall
  have hn : payment.amountAsBigInteger = n := by
    rw [← amountOf_ofNat payment.amountAsBigInteger, ← hpaid, hamount, amountOf_ofNat]
  show some (⟨[transferAmount payment], [(.egld, payment.amountAsBigInteger)]⟩ : Payment Asset) = _
  rw [transferAmount, hid, hn]

end Amounts

/-! ## Adding liquidity -/

section Liquidity

variable {service : PairTransactionService} {pairAddress : Address}
  {tokens result : InputTokenModel × InputTokenModel}

open PairTransactionService

/-- The tokens come back with EGLD as wrapped EGLD, one way round or the other. -/
def SameTokens (service : PairTransactionService)
    (tokens result : InputTokenModel × InputTokenModel) : Prop :=
  result = (service.asWrapped tokens.1, service.asWrapped tokens.2) ∨
    result = (service.asWrapped tokens.2, service.asWrapped tokens.1)

theorem getTokensInOrder_same {other egld : InputTokenModel} {firstTokenID secondTokenID : TokenID}
    (h : service.getTokensInOrder other egld firstTokenID secondTokenID = some result)
    (hfirst : firstTokenID ≠ EGLDIdentifier) (hsecond : secondTokenID ≠ EGLDIdentifier)
    (hegld : egld.tokenID = EGLDIdentifier) :
    other.tokenID ≠ EGLDIdentifier ∧ SameTokens service (other, egld) result := by
  have hwrapped : service.asWrapped egld =
      { egld with tokenID := service.env.wrappedEgldTokenID } := asWrapped_of_eq hegld
  unfold getTokensInOrder at h
  dsimp only at h
  split at h
  next heq =>
    have hother : other.tokenID ≠ EGLDIdentifier := heq ▸ hfirst
    refine ⟨hother, Or.inl ?_⟩
    rw [← Option.some.inj h, hwrapped, asWrapped_of_ne hother]
  next =>
    split at h
    next heq =>
      have hother : other.tokenID ≠ EGLDIdentifier := heq ▸ hsecond
      refine ⟨hother, Or.inr ?_⟩
      rw [← Option.some.inj h, hwrapped, asWrapped_of_ne hother]
    next => cases h

/-- Tokens that are accepted are those that were sent. -/
theorem validateTokens_same
    (h : service.validateTokens pairAddress tokens = .ok (some result))
    (hfirst : service.env.firstTokenID pairAddress ≠ EGLDIdentifier)
    (hsecond : service.env.secondTokenID pairAddress ≠ EGLDIdentifier) :
    (tokens.1.tokenID = EGLDIdentifier → tokens.2.tokenID ≠ EGLDIdentifier) ∧
      SameTokens service tokens result := by
  by_cases hnonce : 0 < tokens.1.nonce ∨ 0 < tokens.2.nonce
  · rw [validateTokens_of_nonce hnonce] at h
    cases h
  have hzero : tokens.1.nonce = 0 ∧ tokens.2.nonce = 0 := by omega
  by_cases hegld : tokens.1.tokenID = EGLDIdentifier ∨ tokens.2.tokenID = EGLDIdentifier
  · rw [validateTokens_of_egld hzero hegld, Except.ok.injEq] at h
    split at h
    next heq =>
      obtain ⟨hother, hsame⟩ := getTokensInOrder_same h hfirst hsecond heq
      exact ⟨fun _ => hother, hsame.symm⟩
    next hne =>
      obtain ⟨-, hsame⟩ := getTokensInOrder_same h hfirst hsecond (hegld.resolve_left hne)
      exact ⟨fun heq => absurd heq hne, hsame⟩
  · refine ⟨fun heq => absurd (Or.inl heq) hegld, ?_⟩
    rcases @validateTokens_of_ne service tokens pairAddress hzero (not_or.mp hegld) with
      ⟨-, result', hresult, hinOrder⟩ | ⟨-, herror⟩
    · rw [hresult, Except.ok.injEq, Option.some.injEq] at h
      exact h ▸ hinOrder.same
    · rw [herror] at h
      cases h

/-- Wrapping, if it is needed, and the call that sends both tokens. -/
theorem liquidity_exchanges {transaction : LiquidityTransaction}
    (honce : tokens.1.tokenID = EGLDIdentifier → tokens.2.tokenID ≠ EGLDIdentifier)
    (hsame : SameTokens service tokens result)
    (hfirst : fungibleFromBigInteger result.1.tokenID result.1.amount =
      .ok transaction.firstPayment)
    (hsecond : fungibleFromBigInteger result.2.tokenID result.2.amount =
      .ok transaction.secondPayment) :
    ∃ batch, payments service.env
        ((wrapTransactions tokens ++ [BatchTransaction.liquidity transaction]).map
          BatchTransaction.built) =
          some batch ∧
      Exchanges [(namedAsset tokens.1.tokenID, Request.amountOf tokens.1.amount),
        (namedAsset tokens.2.tokenID, Request.amountOf tokens.2.amount)] [] batch := by
  have hamount : ∀ token, (service.asWrapped token).amount = token.amount := by
    intro token
    unfold asWrapped
    split
    next => rfl
    next => rfl
  have hnat : ∀ token, (service.asWrapped token = result.1 ∨ service.asWrapped token = result.2) →
      ∃ n : ℕ, token.amount = .ofNat n := by
    intro token htoken
    rcases htoken with heq | heq
    · exact ⟨_, by rw [← hamount, heq]; exact (fungibleFromBigInteger_ok hfirst).2⟩
    · exact ⟨_, by rw [← hamount, heq]; exact (fungibleFromBigInteger_ok hsecond).2⟩
  obtain ⟨n, hn⟩ : ∃ n : ℕ, tokens.1.amount = .ofNat n := by
    apply hnat
    rcases hsame with rfl | rfl
    · exact Or.inl rfl
    · exact Or.inr rfl
  obtain ⟨m, hm⟩ : ∃ m : ℕ, tokens.2.amount = .ofNat m := by
    apply hnat
    rcases hsame with rfl | rfl
    · exact Or.inr rfl
    · exact Or.inl rfl
  rw [hn, hm, amountOf_ofNat, amountOf_ofNat]
  -- the call takes both tokens, in the order of the pair
  have hcall : Exchanges
      [(Asset.esdt (service.asWrapped tokens.1).tokenID, n),
        (Asset.esdt (service.asWrapped tokens.2).tokenID, m)] []
      [⟨[transferAmount transaction.firstPayment, transferAmount transaction.secondPayment],
        []⟩] := by
    have htakes := exchanges_singleton (⟨[transferAmount transaction.firstPayment,
      transferAmount transaction.secondPayment], []⟩ : Payment Asset)
    refine htakes.perm ?_ (List.Perm.refl _)
    rw [transferAmount_eq hfirst, transferAmount_eq hsecond]
    rcases hsame with rfl | rfl
    · rw [hamount, hamount, hn, hm, amountOf_ofNat, amountOf_ofNat]
    · rw [hamount, hamount, hn, hm, amountOf_ofNat, amountOf_ofNat]
      exact List.Perm.swap _ _ _
  have hwrap : ∀ k : ℕ, Exchanges [(Asset.egld, k)] [(Asset.esdt service.env.wrappedEgldTokenID, k)]
      [⟨[(.egld, k)], [(.esdt service.env.wrappedEgldTokenID, k)]⟩] := fun k =>
    exchanges_singleton ⟨[(Asset.egld, k)], [(Asset.esdt service.env.wrappedEgldTokenID, k)]⟩
  unfold wrapTransactions
  by_cases hone : tokens.1.tokenID = EGLDIdentifier
  · have htwo := honce hone
    rw [if_pos hone]
    refine ⟨_, payments_pair (payment_wrapEgld hn) rfl, ?_⟩
    rw [asWrapped_of_eq hone, asWrapped_of_ne htwo] at hcall
    rw [namedAsset_of_eq hone, namedAsset_of_ne htwo]
    exact ((hwrap n).frame [(Asset.esdt tokens.2.tokenID, m)]).trans hcall
  · rw [if_neg hone]
    by_cases htwo : tokens.2.tokenID = EGLDIdentifier
    · rw [if_pos htwo]
      refine ⟨_, payments_pair (payment_wrapEgld hm) rfl, ?_⟩
      rw [asWrapped_of_ne hone, asWrapped_of_eq htwo] at hcall
      rw [namedAsset_of_ne hone, namedAsset_of_eq htwo]
      exact (((hwrap m).frame [(Asset.esdt tokens.1.tokenID, n)]).perm
        (List.Perm.swap _ _ _) (List.Perm.swap _ _ _)).trans hcall
    · rw [if_neg htwo]
      refine ⟨_, payments_singleton rfl, ?_⟩
      rw [asWrapped_of_ne hone, asWrapped_of_ne htwo] at hcall
      rw [namedAsset_of_ne hone, namedAsset_of_ne htwo]
      exact hcall

theorem eq_ok_of_ite {α : Type} {p : Prop} [Decidable p] {message : String}
    {outcome : Except String α} {value : α}
    (h : (if p then .error message else outcome) = .ok value) : outcome = .ok value := by
  split at h
  next => cases h
  next => exact h

/-- What the first liquidity takes. -/
theorem addInitialLiquidity_exchanges {sender : Address} {args : AddLiquidityArgs}
    {transaction : LiquidityTransaction}
    (hproper : service.env.firstTokenID args.pairAddress ≠ EGLDIdentifier ∧
      service.env.secondTokenID args.pairAddress ≠ EGLDIdentifier)
    (h : service.addInitialLiquidity sender args = .ok transaction) :
    ∃ batch, payments service.env
        ((wrapTransactions args.tokens ++ [BatchTransaction.liquidity transaction]).map
          BatchTransaction.built) = some batch ∧
      Exchanges [(namedAsset args.tokens.1.tokenID, Request.amountOf args.tokens.1.amount),
        (namedAsset args.tokens.2.tokenID, Request.amountOf args.tokens.2.amount)] [] batch := by
  unfold addInitialLiquidity at h
  split at h
  next => cases h
  next =>
    obtain ⟨returned, hreturned, h⟩ := bind_eq_ok.mp h
    obtain ⟨result, hresult, h⟩ := bind_eq_ok.mp h
    rw [destructured_ok hresult] at hreturned
    obtain ⟨honce, hsame⟩ := validateTokens_same hreturned hproper.1 hproper.2
    obtain ⟨first, hfirst, h⟩ := bind_eq_ok.mp (eq_ok_of_ite (eq_ok_of_ite h))
    obtain ⟨second, hsecond, h⟩ := bind_eq_ok.mp h
    rw [← pure_eq_ok.mp h]
    exact liquidity_exchanges honce hsame hfirst hsecond

/-- What further liquidity takes. -/
theorem addLiquidity_exchanges {args : AddLiquidityArgs} {transaction : LiquidityTransaction}
    (hproper : service.env.firstTokenID args.pairAddress ≠ EGLDIdentifier ∧
      service.env.secondTokenID args.pairAddress ≠ EGLDIdentifier)
    (h : service.addLiquidity args = .ok transaction) :
    ∃ batch, payments service.env
        ((wrapTransactions args.tokens ++ [BatchTransaction.liquidity transaction]).map
          BatchTransaction.built) = some batch ∧
      Exchanges [(namedAsset args.tokens.1.tokenID, Request.amountOf args.tokens.1.amount),
        (namedAsset args.tokens.2.tokenID, Request.amountOf args.tokens.2.amount)] [] batch := by
  obtain ⟨returned, hreturned, h⟩ := bind_eq_ok.mp h
  obtain ⟨result, hresult, h⟩ := bind_eq_ok.mp h
  rw [destructured_ok hresult] at hreturned
  obtain ⟨honce, hsame⟩ := validateTokens_same hreturned hproper.1 hproper.2
  dsimp only at h
  obtain ⟨amount0Min, -, h⟩ := bind_eq_ok.mp h
  obtain ⟨amount1Min, -, h⟩ := bind_eq_ok.mp h
  obtain ⟨first, hfirst, h⟩ := bind_eq_ok.mp h
  obtain ⟨second, hsecond, h⟩ := bind_eq_ok.mp h
  rw [← pure_eq_ok.mp h]
  exact liquidity_exchanges honce hsame hfirst hsecond

end Liquidity

/-! ## Swapping -/

section Swap

variable {env : Env} {args : SwapTokensArgs} {transactions : List TransactionModel}

/-- What both builders of swaps do, once the amount that is asked for is known to be
`k`. -/
theorem swap_exchanges (swapCall : TokenID → TokenTransfer → AutoRouter.ContractCall)
    {out : BigNumber} {gasLimit k : ℕ} (hne : args.tokenInID ≠ args.tokenOutID)
    (hout : out = .ofNat k)
    (hswap : ∀ token payment, (BuiltTransaction.plain ⟨swapCall token payment, gasLimit⟩).payment
      env = some ⟨[transferAmount payment], [(.esdt token, k)]⟩)
    (h : (if args.tokenInID = EGLDIdentifier then do
        let payment ← fungibleFromBigInteger env.wrappedEgldTokenID args.amountIn
        return [wrapEgld args.amountIn, ⟨swapCall args.tokenOutID payment, gasLimit⟩]
      else if args.tokenOutID = EGLDIdentifier then do
        let payment ← fungibleFromBigInteger args.tokenInID args.amountIn
        let unwrapTransaction ← unwrapEgld env out
        return [⟨swapCall env.wrappedEgldTokenID payment, gasLimit⟩, unwrapTransaction]
      else do
        let payment ← fungibleFromBigInteger args.tokenInID args.amountIn
        return [⟨swapCall args.tokenOutID payment, gasLimit⟩]) = .ok transactions) :
    ∃ batch, payments env (transactions.map BuiltTransaction.plain) = some batch ∧
      Exchanges [(namedAsset args.tokenInID, Request.amountOf args.amountIn)]
        [(namedAsset args.tokenOutID, k)] batch := by
  -- EGLD is wrapped first, or unwrapped last, or neither
  split at h
  next hin =>
    obtain ⟨payment, hpayment, h⟩ := bind_eq_ok.mp h
    rw [← pure_eq_ok.mp h]
    have hamount := (fungibleFromBigInteger_ok hpayment).2
    refine ⟨_, payments_pair (payment_wrapEgld hamount) (hswap _ _), ?_⟩
    have hoff : args.tokenOutID ≠ EGLDIdentifier := fun hout => hne (hin.trans hout.symm)
    rw [namedAsset_of_eq hin, namedAsset_of_ne hoff, transferAmount_eq hpayment, hamount,
      amountOf_ofNat]
    exact (exchanges_singleton ⟨[(Asset.egld, _)], [(Asset.esdt env.wrappedEgldTokenID, _)]⟩).trans
      (exchanges_singleton ⟨[(Asset.esdt env.wrappedEgldTokenID, _)],
        [(Asset.esdt args.tokenOutID, k)]⟩)
  next hin =>
    split at h
    next hegld =>
      obtain ⟨payment, hpayment, h⟩ := bind_eq_ok.mp h
      obtain ⟨unwrap, hunwrap, h⟩ := bind_eq_ok.mp h
      rw [← pure_eq_ok.mp h]
      refine ⟨_, payments_pair (hswap _ _) (payment_unwrapEgld hunwrap hout), ?_⟩
      rw [namedAsset_of_ne hin, namedAsset_of_eq hegld, transferAmount_eq hpayment]
      exact (exchanges_singleton ⟨[(Asset.esdt args.tokenInID, _)],
        [(Asset.esdt env.wrappedEgldTokenID, k)]⟩).trans
          (exchanges_singleton ⟨[(Asset.esdt env.wrappedEgldTokenID, k)], [(Asset.egld, k)]⟩)
    next hegld =>
      obtain ⟨payment, hpayment, h⟩ := bind_eq_ok.mp h
      rw [← pure_eq_ok.mp h]
      refine ⟨_, payments_singleton (hswap _ _), ?_⟩
      rw [namedAsset_of_ne hin, namedAsset_of_ne hegld, transferAmount_eq hpayment]
      exact exchanges_singleton ⟨[(Asset.esdt args.tokenInID, _)],
        [(Asset.esdt args.tokenOutID, k)]⟩

/-- The least output is finite, since a tolerance does not take all of it. -/
theorem exists_amountOutMin {amountOut : BigNumber} {tolerance : Double} {q : ℚ}
    (hamount : amountOut = .fin q) (htolerance : 0 ≤ tolerance.val) :
    ∃ m, amountOutMin amountOut tolerance = .fin m := by
  have hpos : (1 : ℚ) + tolerance.toDecimal ≠ 0 := by
    have := Double.toDecimal_nonneg htolerance
    positivity
  rw [amountOutMin, hamount, BigNumber.ofDouble, BigNumber.plus_fin,
    BigNumber.dividedBy_fin _ hpos, BigNumber.multipliedBy_fin]
  exact ⟨_, rfl⟩

/-- A batch that swaps takes the input and gives the guaranteed output. -/
theorem swapTokensFixedInput_exchanges {tolerance : Double}
    (hne : args.tokenInID ≠ args.tokenOutID) (hamount : ∃ q, args.amountOut = .fin q)
    (htolerance : 0 ≤ tolerance.val)
    (h : swapTokensFixedInput env args tolerance = .ok transactions) :
    ∃ batch, payments env (transactions.map BuiltTransaction.plain) = some batch ∧
      Exchanges [(namedAsset args.tokenInID, Request.amountOf args.amountIn)]
        [(namedAsset args.tokenOutID,
          Request.amountOf (amountOutMin args.amountOut tolerance).integerValue)] batch := by
  obtain ⟨-, -, h⟩ := bind_eq_ok.mp h
  obtain ⟨minimum, hminimum, h⟩ := bind_eq_ok.mp h
  obtain ⟨hvalue, hnegative⟩ := bigUIntOfIntegerValue_ok hminimum
  obtain ⟨q, hq⟩ := hamount
  obtain ⟨m, hm⟩ := exists_amountOutMin hq htolerance
  obtain ⟨k, hk⟩ := exists_integerValue hm hnegative
  rw [hk] at hvalue
  rw [hk, amountOf_ofNat]
  refine swap_exchanges (fun token payment => .swapTokensFixedInput args.pairAddress token minimum
    payment) hne hvalue (fun token payment => ?_) h
  show (do
    let amount ← wholeAmount minimum
    return (⟨[transferAmount payment], [(.esdt token, amount)]⟩ : Payment Asset)) = _
  rw [hvalue, wholeAmount_ofNat]
  rfl

/-- The other swap gives the exact output. -/
theorem swapTokensFixedOutput_exchanges (hne : args.tokenInID ≠ args.tokenOutID)
    (hamount : ∃ n, args.amountOut = .ofNat n)
    (h : swapTokensFixedOutput env args = .ok transactions) :
    ∃ batch, payments env (transactions.map BuiltTransaction.plain) = some batch ∧
      Exchanges [(namedAsset args.tokenInID, Request.amountOf args.amountIn)]
        [(namedAsset args.tokenOutID, Request.amountOf args.amountOut)] batch := by
  obtain ⟨-, -, h⟩ := bind_eq_ok.mp h
  obtain ⟨exact', hexact, h⟩ := bind_eq_ok.mp h
  obtain rfl := BigUIntValue_ok hexact
  obtain ⟨k, hk⟩ := hamount
  have hk' : Request.amountOf args.amountOut = k := by rw [hk, amountOf_ofNat]
  rw [hk']
  refine swap_exchanges (fun token payment => .swapTokensFixedOutput args.pairAddress token
    args.amountOut payment) hne hk (fun token payment => ?_) h
  show (do
    let amount ← wholeAmount args.amountOut
    return (⟨[transferAmount payment], [(.esdt token, amount)]⟩ : Payment Asset)) = _
  rw [hk, wholeAmount_ofNat]
  rfl

end Swap

/-! ## Removing liquidity -/

section Removal

variable {service : PairTransactionService} {args : RemoveLiquidityArgs}

open PairTransactionService

/-- The least amount is whole, and the one that the request asks for. -/
theorem leastAmount_ok {n : ℕ} {tolerance : Double} {least : BigNumber}
    (h : leastAmount (.ofNat n) tolerance = .ok least) :
    least = .ofNat (Request.keptAmount (.ofNat n) tolerance) := by
  obtain ⟨hvalue, hnegative⟩ := bigUIntOfIntegerValue_ok h
  have hfinite : (BigNumber.ofNat n).multipliedBy (.ofDouble ((Double.ofRat 1).sub tolerance)) =
      .fin (n * ((Double.ofRat 1).sub tolerance).toDecimal) := rfl
  obtain ⟨k, hk⟩ := exists_integerValue hfinite hnegative
  rw [hvalue, Request.keptAmount, hk, amountOf_ofNat]

/-- Removing takes the LP tokens and gives at least the two amounts. -/
theorem payment_removal (env : Env) (transaction : RemoveLiquidityTransaction) {first second : ℕ}
    (hfirst : transaction.amount0Min = .ofNat first)
    (hsecond : transaction.amount1Min = .ofNat second) :
    (BuiltTransaction.removal transaction).payment env =
      some ⟨[transferAmount transaction.payment],
        [(.esdt (env.firstTokenID transaction.pairAddress), first),
          (.esdt (env.secondTokenID transaction.pairAddress), second)]⟩ := by
  show (do
    let first ← wholeAmount transaction.amount0Min
    let second ← wholeAmount transaction.amount1Min
    return (⟨[transferAmount transaction.payment],
      [(.esdt (env.firstTokenID transaction.pairAddress), first),
        (.esdt (env.secondTokenID transaction.pairAddress), second)]⟩ : Payment Asset)) = _
  rw [hfirst, hsecond, wholeAmount_ofNat, wholeAmount_ofNat]
  rfl

/-- One of the two tokens is unwrapped, or none. -/
theorem removeLiquidity_exchanges {transactions : List BuiltTransaction}
    (h : service.removeLiquidity args = .ok transactions) :
    ∃ batch, payments service.env transactions = some batch ∧
      Exchanges (Request.removeLiquidity args).offered
        ((Request.removeLiquidity args).received service) batch := by
  obtain ⟨amount0Min, hamount0, h⟩ := bind_eq_ok.mp h
  obtain ⟨amount1Min, hamount1, h⟩ := bind_eq_ok.mp h
  obtain ⟨payment, hpayment, h⟩ := bind_eq_ok.mp h
  have hliquidity := (fungibleFromBigInteger_ok hpayment).2
  -- the amounts of the position are whole, whatever it is
  generalize hposition : getLiquidityPosition (service.env.pairInfoMetadata args.pairAddress)
    args.liquidity = position at hamount0 hamount1
  have hfirst : ∃ n : ℕ, position.firstTokenAmount = .ofNat n := by
    rw [← hposition, hliquidity]
    exact ⟨_, getTokenForGivenPosition_eq _ _ _⟩
  have hsecond : ∃ n : ℕ, position.secondTokenAmount = .ofNat n := by
    rw [← hposition, hliquidity]
    exact ⟨_, getTokenForGivenPosition_eq _ _ _⟩
  obtain ⟨n, hn⟩ := hfirst
  obtain ⟨m, hm⟩ := hsecond
  have hleast0 := leastAmount_ok (hn ▸ hamount0)
  have hleast1 := leastAmount_ok (hm ▸ hamount1)
  rw [← hn] at hleast0
  rw [← hm] at hleast1
  have hoffered : (Request.removeLiquidity args).offered = [transferAmount payment] := by
    rw [transferAmount_eq hpayment]
    rfl
  have hreceived : (Request.removeLiquidity args).received service =
      [(Request.unwrapped service (service.env.firstTokenID args.pairAddress),
          Request.keptAmount position.firstTokenAmount args.tolerance),
        (Request.unwrapped service (service.env.secondTokenID args.pairAddress),
          Request.keptAmount position.secondTokenAmount args.tolerance)] := by
    rw [← hposition]
    rfl
  rw [hoffered, hreceived]
  generalize Request.keptAmount position.firstTokenAmount args.tolerance = first at hleast0 ⊢
  generalize Request.keptAmount position.secondTokenAmount args.tolerance = second at hleast1 ⊢
  have hremoval := payment_removal service.env
    ⟨args.pairAddress, amount0Min, amount1Min, payment, 10000000⟩ hleast0 hleast1
  have hne := service.firstTokenID_ne args.pairAddress
  have hexchanges : Exchanges [transferAmount payment]
      ([(Asset.esdt (service.env.firstTokenID args.pairAddress), first)] ++
        [(Asset.esdt (service.env.secondTokenID args.pairAddress), second)])
      [⟨[transferAmount payment],
        [(.esdt (service.env.firstTokenID args.pairAddress), first),
          (.esdt (service.env.secondTokenID args.pairAddress), second)]⟩] :=
    exchanges_singleton ⟨_, _⟩
  have hunwrap : ∀ k : ℕ, Exchanges [(Asset.esdt service.env.wrappedEgldTokenID, k)]
      [(Asset.egld, k)] [⟨[(.esdt service.env.wrappedEgldTokenID, k)], [(.egld, k)]⟩] := fun k =>
    exchanges_singleton ⟨[(Asset.esdt service.env.wrappedEgldTokenID, k)], [(Asset.egld, k)]⟩
  -- the wrapped token may be either of the two, and the unwrapping comes after the
  -- removal
  unfold Request.unwrapped
  dsimp only at h
  split at h
  next hwrapped =>
    obtain ⟨unwrap, hunwrapped, h⟩ := bind_eq_ok.mp h
    rw [← pure_eq_ok.mp h]
    refine ⟨_, payments_pair hremoval (payment_unwrapEgld hunwrapped hleast0), ?_⟩
    rw [if_pos hwrapped.symm, if_neg fun heq => hne (hwrapped.symm.trans heq.symm)]
    rw [hwrapped] at hunwrap ⊢
    exact (hexchanges.seq (hunwrap first)).perm (List.Perm.refl _) (List.Perm.swap _ _ _)
  next hfirst =>
    split at h
    next hwrapped =>
      obtain ⟨unwrap, hunwrapped, h⟩ := bind_eq_ok.mp h
      rw [← pure_eq_ok.mp h]
      refine ⟨_, payments_pair hremoval (payment_unwrapEgld hunwrapped hleast1), ?_⟩
      rw [if_neg (fun heq => hfirst heq.symm), if_pos hwrapped.symm]
      rw [hwrapped] at hunwrap ⊢
      exact (hexchanges.perm (List.Perm.refl _) (List.perm_append_comm)).seq (hunwrap second)
    next hsecond =>
      rw [← pure_eq_ok.mp h]
      refine ⟨_, payments_singleton hremoval, ?_⟩
      rw [if_neg (fun heq => hfirst heq.symm), if_neg (fun heq => hsecond heq.symm)]
      exact hexchanges

end Removal

/-- **A batch that is built can be carried out.** Its transactions are payments that
a wallet with what the request offers affords one after the other, whatever more the
contracts deliver, and in the end nothing but the offer is gone, for at least what
the request asks for. -/
theorem Request.build_exchanges (service : PairTransactionService) (request : Request)
    (hproper : request.Proper service) (transactions : List BuiltTransaction)
    (h : request.build service = .ok transactions) :
    ∃ batch, payments service.env transactions = some batch ∧
      Exchanges request.offered (request.received service) batch := by
  cases request with
  | addInitialLiquidity sender args =>
    obtain ⟨built, hbuilt, h⟩ := bind_eq_ok.mp h
    obtain ⟨transaction, htransaction, hbuilt⟩ := bind_eq_ok.mp hbuilt
    rw [← pure_eq_ok.mp h, ← pure_eq_ok.mp hbuilt]
    exact addInitialLiquidity_exchanges hproper htransaction
  | addLiquidity args =>
    obtain ⟨built, hbuilt, h⟩ := bind_eq_ok.mp h
    obtain ⟨transaction, htransaction, hbuilt⟩ := bind_eq_ok.mp hbuilt
    rw [← pure_eq_ok.mp h, ← pure_eq_ok.mp hbuilt]
    exact addLiquidity_exchanges hproper htransaction
  | removeLiquidity args => exact removeLiquidity_exchanges h
  | swapTokensFixedInput args tolerance =>
    obtain ⟨built, hbuilt, h⟩ := bind_eq_ok.mp h
    rw [← pure_eq_ok.mp h]
    exact swapTokensFixedInput_exchanges hproper.1 hproper.2.1 hproper.2.2 hbuilt
  | swapTokensFixedOutput args =>
    obtain ⟨built, hbuilt, h⟩ := bind_eq_ok.mp h
    rw [← pure_eq_ok.mp h]
    exact swapTokensFixedOutput_exchanges hproper.1 hproper.2 hbuilt

/-! A pair of wrapped EGLD. -/

def wegldPairService : PairTransactionService where
  env := { AutoRouter.onePairEnv with
    firstTokenID := fun _ => "WEGLD-1"
    pairInfoMetadata := fun _ => ⟨1000, 500, 100⟩ }
  initialLiquidityAdder := fun _ => "erd1adder"
  firstTokenPriceUSD := fun _ => .ofNat 1
  secondTokenPriceUSD := fun _ => .ofNat 1
  firstTokenID_ne := fun _ => by
    show "WEGLD-1" ≠ "TOKB-1"
    decide

def tenthRemoved : RemoveLiquidityArgs := ⟨"erd1wb", .ofNat 10, "LPWB-1", .ofRat (1 / 100)⟩

theorem build_exchanges_sample : ∃ transactions,
    (Request.removeLiquidity tenthRemoved).build wegldPairService = .ok transactions ∧
      transactions.length = 2 ∧ ∃ batch, payments wegldPairService.env transactions = some batch ∧
        Exchanges [(.esdt "LPWB-1", 10)] [(.egld, 99), (.esdt "TOKB-1", 49)] batch := by
  have hbuild : (Request.removeLiquidity tenthRemoved).build wegldPairService = .ok
      [.removal ⟨"erd1wb", .ofNat 99, .ofNat 49, ⟨"LPWB-1", 10⟩, 10000000⟩,
        .plain ⟨.unwrapEgld ⟨"WEGLD-1", 99⟩, 4200000⟩] := by
    decide +kernel
  obtain ⟨batch, hbatch, hexchanges⟩ :=
    Request.build_exchanges wegldPairService (.removeLiquidity tenthRemoved) trivial _ hbuild
  refine ⟨_, hbuild, rfl, batch, hbatch, ?_⟩
  have hoffered : (Request.removeLiquidity tenthRemoved).offered = [(.esdt "LPWB-1", 10)] := by
    decide +kernel
  have hreceived : (Request.removeLiquidity tenthRemoved).received wegldPairService =
      [(.egld, 99), (.esdt "TOKB-1", 49)] := by
    decide +kernel
  rw [← hoffered, ← hreceived]
  exact hexchanges

end MxExchange.Pair
