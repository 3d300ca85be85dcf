import MxExchange.AutoRouter.Transactions

/-!
# `pair.transactions.service.ts`: which tokens a pair takes

`validateTokens` brings two inputs into the order of the pair, with EGLD as
wrapped EGLD. All builders of the service call it first. Those that add liquidity
take the two tokens apart that it returns, those that swap only await it.

With EGLD among the inputs the check is not complete. That the wrapped token is
the other token of the pair is not looked at, and where the other input is none of
the pair's tokens nothing is thrown, and nothing returned: adding liquidity then
fails on the missing value, a swap is built. Hence the check does what it is for
exactly if the nonces, or EGLD being absent, or the tokens themselves, save it
(`validationHolds_iff`).

The swap builders and their view of the check, which has no amounts, are those
of the auto router (`validateTokens_erase`).
-/

namespace MxExchange.Pair

open MxExchange.Num MxExchange.Collections
open AutoRouter (Env EGLDIdentifier TokenTransfer TransactionModel SwapTokensArgs wrapEgld
  fungibleFromBigInteger bigUIntOfIntegerValue denominateAmount)

/-- A token that a client sends along. -/
structure InputTokenModel where
  tokenID : TokenID
  nonce : ℕ
  amount : BigNumber
  deriving DecidableEq

/-- What a client asks for. -/
structure AddLiquidityArgs where
  pairAddress : Address
  tokens : InputTokenModel × InputTokenModel
  tolerance : Double

/-- A call of the pair with a payment in each of its tokens. -/
inductive LiquidityCall where
  | addInitialLiquidity (pairAddress : Address)
  | addLiquidity (pairAddress : Address) (amount0Min amount1Min : BigNumber)
  deriving DecidableEq

/-- The call that adds liquidity. -/
structure LiquidityTransaction where
  call : LiquidityCall
  firstPayment : TokenTransfer
  secondPayment : TokenTransfer
  gasLimit : ℕ
  deriving DecidableEq

/-- The transactions of a batch. -/
inductive BatchTransaction where
  | wrap (transaction : TransactionModel)
  | liquidity (transaction : LiquidityTransaction)
  deriving DecidableEq

/-- What the service asks others. The contract takes no pair of a token with
itself. -/
structure PairTransactionService where
  env : Env
  initialLiquidityAdder : Address → Address
  firstTokenPriceUSD : Address → BigNumber
  secondTokenPriceUSD : Address → BigNumber
  firstTokenID_ne : ∀ pairAddress, env.firstTokenID pairAddress ≠ env.secondTokenID pairAddress

namespace PairTransactionService

variable (service : PairTransactionService)

/-! ## The check -/

/-- The tokens in the order of the pair; without a case that fits it returns
nothing. -/
def getTokensInOrder (firstToken secondToken : InputTokenModel)
    (firstTokenID secondTokenID : TokenID) : Option (InputTokenModel × InputTokenModel) :=
  let wrapped : InputTokenModel :=
    { tokenID := service.env.wrappedEgldTokenID
      amount := secondToken.amount
      nonce := secondToken.nonce }
  if firstToken.tokenID = firstTokenID then some (firstToken, wrapped)
  else if firstToken.tokenID = secondTokenID then some (wrapped, firstToken)
  else none -- the end of the function, without a `return`

/-- EGLD stands for the wrapped token. -/
def getTokensWithEGLD (tokens : InputTokenModel × InputTokenModel)
    (firstTokenID secondTokenID : TokenID) :
    Except String (Option (InputTokenModel × InputTokenModel)) :=
  if tokens.1.tokenID = EGLDIdentifier then
    .ok (service.getTokensInOrder tokens.2 tokens.1 firstTokenID secondTokenID)
  else if tokens.2.tokenID = EGLDIdentifier then
    .ok (service.getTokensInOrder tokens.1 tokens.2 firstTokenID secondTokenID)
  else .error "Invalid tokens with EGLD"

/-- Which of the tokens is the first of the pair, or why they are refused. -/
def validateTokens (pairAddress : Address) (tokens : InputTokenModel × InputTokenModel) :
    Except String (Option (InputTokenModel × InputTokenModel)) :=
  let firstTokenID := service.env.firstTokenID pairAddress
  let secondTokenID := service.env.secondTokenID pairAddress
  if 0 < tokens.1.nonce ∨ 0 < tokens.2.nonce then .error "Only ESDT tokens allowed!"
  else if tokens.1.tokenID = EGLDIdentifier ∨ tokens.2.tokenID = EGLDIdentifier then
    service.getTokensWithEGLD tokens firstTokenID secondTokenID
  else if tokens.1.tokenID = firstTokenID ∧ tokens.2.tokenID = secondTokenID then
    .ok (some tokens)
  else if tokens.2.tokenID = firstTokenID ∧ tokens.1.tokenID = secondTokenID then
    .ok (some (tokens.2, tokens.1))
  else .error "invalid tokens received"

/-! ## The builders that add liquidity -/

/-- `const [firstTokenInput, secondTokenInput] = ...` -/
def destructured {α : Type} : Option α → Except String α
  | some value => .ok value
  | none => .error "undefined is not iterable"

/-- The price of the least amount that stays in the pair. A token without a
price is priced by the other one. -/
def computePermanentLockedValueUSD (pairAddress : Address)
    (firstTokenAmount secondTokenAmount : BigNumber) : BigNumber :=
  let firstDecimals := service.env.tokenDecimals (service.env.firstTokenID pairAddress)
  let secondDecimals := service.env.tokenDecimals (service.env.secondTokenID pairAddress)
  let firstTokenPriceUSD := service.firstTokenPriceUSD pairAddress
  let secondTokenPriceUSD := service.secondTokenPriceUSD pairAddress
  let minimumAmount :=
    if firstTokenAmount.isLessThan secondTokenAmount then firstTokenAmount else secondTokenAmount
  let firstTokenAmountDenom := denominateAmount firstTokenAmount firstDecimals
  let secondTokenAmountDenom := denominateAmount secondTokenAmount secondDecimals
  if minimumAmount.isEqualTo firstTokenAmount then
    let minimumLiquidityDenom := denominateAmount (.ofNat (10 ^ 3)) firstDecimals
    if firstTokenPriceUSD.isGreaterThan (.ofNat 0) then
      minimumLiquidityDenom.multipliedBy firstTokenPriceUSD
    else
      let firstTokenPrice := secondTokenAmountDenom.dividedBy firstTokenAmountDenom
      (minimumLiquidityDenom.multipliedBy firstTokenPrice).multipliedBy secondTokenPriceUSD
  else
    let minimumLiquidityDenom := denominateAmount (.ofNat (10 ^ 3)) secondDecimals
    if secondTokenPriceUSD.isGreaterThan (.ofNat 0) then
      minimumLiquidityDenom.multipliedBy secondTokenPriceUSD
    else
      let secondTokenPrice := firstTokenAmountDenom.dividedBy secondTokenAmountDenom
      (minimumLiquidityDenom.multipliedBy secondTokenPrice).multipliedBy firstTokenPriceUSD

/-- The call with both payments, before the pair is active. -/
def addInitialLiquidity (sender : Address) (args : AddLiquidityArgs) :
    Except String LiquidityTransaction :=
  if sender ≠ service.initialLiquidityAdder args.pairAddress then .error "Invalid sender address"
  else do
    let returned ← service.validateTokens args.pairAddress args.tokens
    let (firstTokenInput, secondTokenInput) ← destructured returned
    let minimumAmount :=
      if firstTokenInput.amount.isLessThan secondTokenInput.amount then firstTokenInput.amount
      else secondTokenInput.amount
    if minimumAmount.isLessThan (.ofNat (10 ^ 3)) then
      .error "First tokens needs to be greater than minimum liquidity"
    else
      let permanentLockedAmountUSD := service.computePermanentLockedValueUSD args.pairAddress
        firstTokenInput.amount secondTokenInput.amount
      if permanentLockedAmountUSD.isGreaterThan (.ofNat 1) then
        .error "Permanent locked amount must be less than 1 USD"
      else do
        let firstPayment ← fungibleFromBigInteger firstTokenInput.tokenID firstTokenInput.amount
        let secondPayment ← fungibleFromBigInteger secondTokenInput.tokenID secondTokenInput.amount
        return ⟨.addInitialLiquidity args.pairAddress, firstPayment, secondPayment, 10000000⟩

/-- The call with both payments and their minimums. -/
def addLiquidity (args : AddLiquidityArgs) : Except String LiquidityTransaction := do
  let returned ← service.validateTokens args.pairAddress args.tokens
  let (firstTokenInput, secondTokenInput) ← destructured returned
  let kept : BigNumber := .ofDouble ((Double.ofRat 1).sub args.tolerance)
  let amount0Min ← bigUIntOfIntegerValue (firstTokenInput.amount.multipliedBy kept)
  let amount1Min ← bigUIntOfIntegerValue (secondTokenInput.amount.multipliedBy kept)
  let firstPayment ← fungibleFromBigInteger firstTokenInput.tokenID firstTokenInput.amount
  let secondPayment ← fungibleFromBigInteger secondTokenInput.tokenID secondTokenInput.amount
  return ⟨.addLiquidity args.pairAddress amount0Min amount1Min, firstPayment, secondPayment,
    10000000⟩

/-- The step before, for the first input that is EGLD. -/
def wrapTransactions (tokens : InputTokenModel × InputTokenModel) : List BatchTransaction :=
  if tokens.1.tokenID = EGLDIdentifier then [.wrap (wrapEgld tokens.1.amount)]
  else if tokens.2.tokenID = EGLDIdentifier then [.wrap (wrapEgld tokens.2.amount)]
  else []

/-- EGLD is wrapped first. -/
def addInitialLiquidityBatch (sender : Address) (args : AddLiquidityArgs) :
    Except String (List BatchTransaction) := do
  let transaction ← service.addInitialLiquidity sender args
  return wrapTransactions args.tokens ++ [.liquidity transaction]

/-- EGLD is wrapped first. -/
def addLiquidityBatch (args : AddLiquidityArgs) : Except String (List BatchTransaction) := do
  let transaction ← service.addLiquidity args
  return wrapTransactions args.tokens ++ [.liquidity transaction]

/-! ## What the check is for -/

/-- EGLD stands for wrapped EGLD. -/
def asWrapped (token : InputTokenModel) : InputTokenModel :=
  if token.tokenID = EGLDIdentifier then { token with tokenID := service.env.wrappedEgldTokenID }
  else token

/-- The inputs are the tokens of the pair in one order or the other, without
nonces. -/
def PairTokens (pairAddress : Address) (tokens : InputTokenModel × InputTokenModel) : Prop :=
  (tokens.1.nonce = 0 ∧ tokens.2.nonce = 0) ∧
    ((service.asWrapped tokens.1).tokenID = service.env.firstTokenID pairAddress ∧
        (service.asWrapped tokens.2).tokenID = service.env.secondTokenID pairAddress ∨
      (service.asWrapped tokens.2).tokenID = service.env.firstTokenID pairAddress ∧
        (service.asWrapped tokens.1).tokenID = service.env.secondTokenID pairAddress)

/-- Both inputs, EGLD wrapped, in the order of the pair. -/
structure InOrder (pairAddress : Address) (tokens result : InputTokenModel × InputTokenModel) :
    Prop where
  first : result.1.tokenID = service.env.firstTokenID pairAddress
  second : result.2.tokenID = service.env.secondTokenID pairAddress
  same : result = (service.asWrapped tokens.1, service.asWrapped tokens.2) ∨
    result = (service.asWrapped tokens.2, service.asWrapped tokens.1)

/-- The check returned two tokens. -/
def Accepted (pairAddress : Address) (tokens : InputTokenModel × InputTokenModel) : Prop :=
  ∃ result, service.validateTokens pairAddress tokens = .ok (some result)

/-- What is asked of the check and of the builders behind it. A swap has no
nonces. -/
structure ValidationHolds (pairAddress : Address) (tokens : InputTokenModel × InputTokenModel) :
    Prop where
  inOrder : ∀ returned, service.validateTokens pairAddress tokens = .ok returned →
    ∃ result, returned = some result ∧ service.InOrder pairAddress tokens result
  rejects : ¬ service.PairTokens pairAddress tokens →
    ∃ message, service.validateTokens pairAddress tokens = .error message
  initialLiquidity : ∀ sender tolerance transaction,
    service.addInitialLiquidity sender ⟨pairAddress, tokens, tolerance⟩ = .ok transaction →
      service.Accepted pairAddress tokens
  initialLiquidityBatch : ∀ sender tolerance transactions,
    service.addInitialLiquidityBatch sender ⟨pairAddress, tokens, tolerance⟩ = .ok transactions →
      service.Accepted pairAddress tokens
  liquidity : ∀ tolerance transaction,
    service.addLiquidity ⟨pairAddress, tokens, tolerance⟩ = .ok transaction →
      service.Accepted pairAddress tokens
  liquidityBatch : ∀ tolerance transactions,
    service.addLiquidityBatch ⟨pairAddress, tokens, tolerance⟩ = .ok transactions →
      service.Accepted pairAddress tokens
  swapFixedInput : tokens.1.nonce = 0 → tokens.2.nonce = 0 →
    ∀ amountIn amountOut tolerance transactions,
      AutoRouter.swapTokensFixedInput service.env
        ⟨pairAddress, tokens.1.tokenID, tokens.2.tokenID, amountIn, amountOut⟩ tolerance =
          .ok transactions → service.Accepted pairAddress tokens
  swapFixedOutput : tokens.1.nonce = 0 → tokens.2.nonce = 0 →
    ∀ amountIn amountOut transactions,
      AutoRouter.swapTokensFixedOutput service.env
        ⟨pairAddress, tokens.1.tokenID, tokens.2.tokenID, amountIn, amountOut⟩ =
          .ok transactions → service.Accepted pairAddress tokens

/-! ## The check, case by case -/

section Check

variable {service} {pairAddress : Address} {tokens : InputTokenModel × InputTokenModel}

theorem asWrapped_of_ne {token : InputTokenModel} (h : token.tokenID ≠ EGLDIdentifier) :
    service.asWrapped token = token := if_neg h

theorem asWrapped_of_eq {token : InputTokenModel} (h : token.tokenID = EGLDIdentifier) :
    service.asWrapped token = { token with tokenID := service.env.wrappedEgldTokenID } := if_pos h

/-- Tokens with a nonce are refused. -/
theorem validateTokens_of_nonce (h : 0 < tokens.1.nonce ∨ 0 < tokens.2.nonce) :
    service.validateTokens pairAddress tokens = .error "Only ESDT tokens allowed!" := if_pos h

/-- With EGLD the order is that of the wrapped token. -/
theorem validateTokens_of_egld (hnonce : tokens.1.nonce = 0 ∧ tokens.2.nonce = 0)
    (h : tokens.1.tokenID = EGLDIdentifier ∨ tokens.2.tokenID = EGLDIdentifier) :
    service.validateTokens pairAddress tokens =
      .ok (if tokens.1.tokenID = EGLDIdentifier then
          service.getTokensInOrder tokens.2 tokens.1 (service.env.firstTokenID pairAddress)
            (service.env.secondTokenID pairAddress)
        else service.getTokensInOrder tokens.1 tokens.2 (service.env.firstTokenID pairAddress)
          (service.env.secondTokenID pairAddress)) := by
  unfold validateTokens getTokensWithEGLD
  dsimp only
  rw [if_neg (by omega), if_pos h]
  split
  next => rfl
  next hfirst => rw [if_pos (h.resolve_left hfirst)]

/-- Without EGLD the inputs are taken as they are. -/
theorem validateTokens_of_ne (pairAddress : Address)
    (hnonce : tokens.1.nonce = 0 ∧ tokens.2.nonce = 0)
    (h : tokens.1.tokenID ≠ EGLDIdentifier ∧ tokens.2.tokenID ≠ EGLDIdentifier) :
    (service.PairTokens pairAddress tokens ∧ ∃ result,
        service.validateTokens pairAddress tokens = .ok (some result) ∧
          service.InOrder pairAddress tokens result) ∨
      (¬ service.PairTokens pairAddress tokens ∧
        service.validateTokens pairAddress tokens = .error "invalid tokens received") := by
  have hfirst : service.asWrapped tokens.1 = tokens.1 := asWrapped_of_ne h.1
  have hsecond : service.asWrapped tokens.2 = tokens.2 := asWrapped_of_ne h.2
  unfold validateTokens PairTokens
  dsimp only
  rw [hfirst, hsecond, if_neg (by omega), if_neg (by tauto)]
  split
  next hmatch =>
    refine Or.inl ⟨⟨hnonce, Or.inl hmatch⟩, tokens, rfl, ?_⟩
    exact { first := hmatch.1, second := hmatch.2, same := Or.inl (by rw [hfirst, hsecond]) }
  next hinOrder =>
    split
    next hmatch =>
      refine Or.inl ⟨⟨hnonce, Or.inr hmatch⟩, (tokens.2, tokens.1), rfl, ?_⟩
      exact { first := hmatch.1, second := hmatch.2, same := Or.inr (by rw [hfirst, hsecond]) }
    next hreversed => exact Or.inr ⟨fun hpair => hpair.2.elim hinOrder hreversed, rfl⟩

/-- The other input beside EGLD is the token of the pair that wrapped EGLD is
not. -/
theorem getTokensInOrder_eq_some (other : InputTokenModel) {egld : InputTokenModel}
    {firstTokenID secondTokenID : TokenID} (hne : firstTokenID ≠ secondTokenID)
    (hegld : egld.tokenID = EGLDIdentifier)
    (h : (service.asWrapped other).tokenID = firstTokenID ∧
        (service.asWrapped egld).tokenID = secondTokenID ∨
      (service.asWrapped egld).tokenID = firstTokenID ∧
        (service.asWrapped other).tokenID = secondTokenID) :
    ∃ result, service.getTokensInOrder other egld firstTokenID secondTokenID = some result ∧
      result.1.tokenID = firstTokenID ∧ result.2.tokenID = secondTokenID ∧
      (result = (service.asWrapped other, service.asWrapped egld) ∨
        result = (service.asWrapped egld, service.asWrapped other)) := by
  have hwrapped : service.asWrapped egld =
      { egld with tokenID := service.env.wrappedEgldTokenID } := asWrapped_of_eq hegld
  -- two times EGLD would be two times the same token
  have hother : other.tokenID ≠ EGLDIdentifier := by
    intro hboth
    rw [hwrapped, asWrapped_of_eq hboth] at h
    rcases h with ⟨hfirst, hsecond⟩ | ⟨hfirst, hsecond⟩
    · exact hne (hfirst.symm.trans hsecond)
    · exact hne (hfirst.symm.trans hsecond)
  rw [hwrapped, asWrapped_of_ne hother] at h ⊢
  unfold getTokensInOrder
  rcases h with ⟨hfirst, hsecond⟩ | ⟨hfirst, hsecond⟩
  · rw [if_pos hfirst]
    exact ⟨_, rfl, hfirst, hsecond, Or.inl rfl⟩
  · rw [if_neg (fun h => hne (h.symm.trans hsecond)), if_pos hsecond]
    exact ⟨_, rfl, hfirst, hsecond, Or.inr rfl⟩

/-- The tokens of the pair are accepted, in its order. -/
theorem validateTokens_of_pairTokens (h : service.PairTokens pairAddress tokens) :
    ∃ result, service.validateTokens pairAddress tokens = .ok (some result) ∧
      service.InOrder pairAddress tokens result := by
  by_cases hegld : tokens.1.tokenID = EGLDIdentifier ∨ tokens.2.tokenID = EGLDIdentifier
  · rw [validateTokens_of_egld h.1 hegld]
    split
    next hfirst =>
      obtain ⟨result, hresult, first, second, same⟩ := getTokensInOrder_eq_some tokens.2
        (service.firstTokenID_ne pairAddress) hfirst h.2.symm
      exact ⟨result, congrArg _ hresult, first, second, same.symm⟩
    next hfirst =>
      obtain ⟨result, hresult, first, second, same⟩ := getTokensInOrder_eq_some tokens.1
        (service.firstTokenID_ne pairAddress) (hegld.resolve_left hfirst) h.2
      exact ⟨result, congrArg _ hresult, first, second, same⟩
  · rcases validateTokens_of_ne pairAddress h.1 (not_or.mp hegld) with
      ⟨-, hresult⟩ | ⟨hpair, -⟩
    · exact hresult
    · exact absurd h hpair

/-! ## The builders behind it -/

/-- The check of the swap builders is this one without the amounts. -/
def erase (token : InputTokenModel) : AutoRouter.InputTokenModel := ⟨token.tokenID, token.nonce⟩

theorem getTokensInOrder_erase (first second : InputTokenModel)
    (firstTokenID secondTokenID : TokenID) :
    AutoRouter.getTokensInOrder service.env (erase first) (erase second) firstTokenID
        secondTokenID =
      (service.getTokensInOrder first second firstTokenID secondTokenID).map
        (Prod.map erase erase) := by
  unfold AutoRouter.getTokensInOrder getTokensInOrder erase
  dsimp only
  split
  next => rfl
  next =>
    split
    next => rfl
    next => rfl

/-- The amounts do not matter to the validation. -/
theorem validateTokens_erase (pairAddress : Address) (tokens : InputTokenModel × InputTokenModel) :
    AutoRouter.validateTokens service.env pairAddress (erase tokens.1) (erase tokens.2) =
      (service.validateTokens pairAddress tokens).map (Option.map (Prod.map erase erase)) := by
  unfold AutoRouter.validateTokens validateTokens getTokensWithEGLD
  dsimp only
  rw [getTokensInOrder_erase, getTokensInOrder_erase]
  show (if 0 < tokens.1.nonce ∨ 0 < tokens.2.nonce then _
    else if tokens.1.tokenID = EGLDIdentifier then _
    else if tokens.2.tokenID = EGLDIdentifier then _
    else if tokens.1.tokenID = _ ∧ tokens.2.tokenID = _ then _
    else if tokens.2.tokenID = _ ∧ tokens.1.tokenID = _ then _ else _) = _
  -- the same branches on both sides, with the nonces looked at in front
  split
  next => rfl
  next =>
    split
    next hfirst =>
      rw [if_pos (Or.inl hfirst)]
      rfl
    next hfirst =>
      split
      next hsecond =>
        rw [if_pos (Or.inr hsecond)]
        rfl
      next hsecond =>
        rw [if_neg (not_or.mpr ⟨hfirst, hsecond⟩)]
        split
        next => rfl
        next =>
          split
          next => rfl
          next => rfl

theorem destructured_ok {α : Type} {returned : Option α} {value : α}
    (h : destructured returned = .ok value) : returned = some value := by
  cases returned with
  | none => cases h
  | some value' => rw [Except.ok.inj h]

/-- A call that was built had its tokens accepted. -/
theorem addInitialLiquidity_accepted {sender : Address} {args : AddLiquidityArgs}
    {transaction : LiquidityTransaction}
    (h : service.addInitialLiquidity sender args = .ok transaction) :
    service.Accepted args.pairAddress args.tokens := by
  unfold addInitialLiquidity at h
  split at h
  next => cases h
  next =>
    obtain ⟨returned, hreturned, h⟩ := bind_eq_ok.mp h
    obtain ⟨result, hresult, -⟩ := bind_eq_ok.mp h
    rw [destructured_ok hresult] at hreturned
    exact ⟨result, hreturned⟩

/-- So had the other call. -/
theorem addLiquidity_accepted {args : AddLiquidityArgs} {transaction : LiquidityTransaction}
    (h : service.addLiquidity args = .ok transaction) :
    service.Accepted args.pairAddress args.tokens := by
  obtain ⟨returned, hreturned, h⟩ := bind_eq_ok.mp h
  obtain ⟨result, hresult, -⟩ := bind_eq_ok.mp h
  rw [destructured_ok hresult] at hreturned
  exact ⟨result, hreturned⟩

/-- Both swap builders have awaited the check. -/
theorem exists_validateTokens_of_erase (hnonce : tokens.1.nonce = 0 ∧ tokens.2.nonce = 0)
    {returned : Option (AutoRouter.InputTokenModel × AutoRouter.InputTokenModel)}
    (h : AutoRouter.validateTokens service.env pairAddress ⟨tokens.1.tokenID, 0⟩
      ⟨tokens.2.tokenID, 0⟩ = .ok returned) :
    ∃ returned', service.validateTokens pairAddress tokens = .ok returned' := by
  have hfirst : erase tokens.1 = ⟨tokens.1.tokenID, 0⟩ := by rw [erase, hnonce.1]
  have hsecond : erase tokens.2 = ⟨tokens.2.tokenID, 0⟩ := by rw [erase, hnonce.2]
  rw [← hfirst, ← hsecond, validateTokens_erase] at h
  cases hcheck : service.validateTokens pairAddress tokens with
  | error message =>
    rw [hcheck] at h
    cases h
  | ok returned' => exact ⟨returned', rfl⟩

/-- The builders are no more than the check: it is enough that it returns two
tokens in order or throws. -/
theorem validationHolds_of_check
    (hinOrder : ∀ returned, service.validateTokens pairAddress tokens = .ok returned →
      ∃ result, returned = some result ∧ service.InOrder pairAddress tokens result)
    (hrejects : ¬ service.PairTokens pairAddress tokens →
      ∃ message, service.validateTokens pairAddress tokens = .error message) :
    service.ValidationHolds pairAddress tokens where
  inOrder := hinOrder
  rejects := hrejects
  initialLiquidity := fun _ _ _ h => addInitialLiquidity_accepted h
  initialLiquidityBatch := fun _ _ _ h => by
    obtain ⟨transaction, htransaction, -⟩ := bind_eq_ok.mp h
    exact addInitialLiquidity_accepted htransaction
  liquidity := fun _ _ h => addLiquidity_accepted h
  liquidityBatch := fun _ _ h => by
    obtain ⟨transaction, htransaction, -⟩ := bind_eq_ok.mp h
    exact addLiquidity_accepted htransaction
  swapFixedInput := fun hfirst hsecond _ _ _ _ h => by
    obtain ⟨returned, hreturned, -⟩ := bind_eq_ok.mp h
    obtain ⟨returned', hcheck⟩ := exists_validateTokens_of_erase ⟨hfirst, hsecond⟩ hreturned
    obtain ⟨result, rfl, -⟩ := hinOrder returned' hcheck
    exact ⟨result, hcheck⟩
  swapFixedOutput := fun hfirst hsecond _ _ _ h => by
    obtain ⟨returned, hreturned, -⟩ := bind_eq_ok.mp h
    obtain ⟨returned', hcheck⟩ := exists_validateTokens_of_erase ⟨hfirst, hsecond⟩ hreturned
    obtain ⟨result, rfl, -⟩ := hinOrder returned' hcheck
    exact ⟨result, hcheck⟩

/-- A request that is refused builds nothing. -/
theorem validationHolds_of_error {message : String}
    (h : service.validateTokens pairAddress tokens = .error message) :
    service.ValidationHolds pairAddress tokens := by
  refine validationHolds_of_check (fun returned hreturned => ?_) fun _ => ⟨message, h⟩
  rw [h] at hreturned
  cases hreturned

theorem validationHolds_of_pairTokens (h : service.PairTokens pairAddress tokens) :
    service.ValidationHolds pairAddress tokens := by
  obtain ⟨result, hresult, hinOrder⟩ := validateTokens_of_pairTokens h
  refine validationHolds_of_check (fun returned hreturned => ?_) fun hnot => absurd h hnot
  rw [hresult] at hreturned
  exact ⟨result, (Except.ok.inj hreturned).symm, hinOrder⟩

end Check

/-- **The check of the tokens of a pair** does what it is for, and so do the
builders, exactly if there is a nonce, or no EGLD, or the inputs are the tokens
of the pair. -/
theorem validationHolds_iff (service : PairTransactionService) (pairAddress : Address)
    (tokens : InputTokenModel × InputTokenModel) :
    service.ValidationHolds pairAddress tokens ↔
      (0 < tokens.1.nonce ∨ 0 < tokens.2.nonce) ∨
      (tokens.1.tokenID ≠ EGLDIdentifier ∧ tokens.2.tokenID ≠ EGLDIdentifier) ∨
      service.PairTokens pairAddress tokens := by
  by_cases hnonce : 0 < tokens.1.nonce ∨ 0 < tokens.2.nonce
  · exact iff_of_true (validationHolds_of_error (validateTokens_of_nonce hnonce)) (Or.inl hnonce)
  have hzero : tokens.1.nonce = 0 ∧ tokens.2.nonce = 0 := by omega
  by_cases hegld : tokens.1.tokenID = EGLDIdentifier ∨ tokens.2.tokenID = EGLDIdentifier
  · constructor
    · intro h
      refine Or.inr (Or.inr ?_)
      -- with EGLD nothing is ever thrown
      by_contra hpair
      obtain ⟨message, hmessage⟩ := h.rejects hpair
      rw [validateTokens_of_egld hzero hegld] at hmessage
      cases hmessage
    · intro h
      have hpair := (h.resolve_left hnonce).resolve_left fun hne => hegld.elim hne.1 hne.2
      exact validationHolds_of_pairTokens hpair
  · refine iff_of_true ?_ (Or.inr (Or.inl (not_or.mp hegld)))
    rcases validateTokens_of_ne pairAddress hzero (not_or.mp hegld) with
      ⟨hpair, -⟩ | ⟨-, herror⟩
    · exact validationHolds_of_pairTokens hpair
    · exact validationHolds_of_error herror

/-! Two tokens with a pair, and EGLD wrapped by a third one. -/

def onePairService : PairTransactionService where
  env := AutoRouter.onePairEnv
  initialLiquidityAdder := fun _ => "erd1adder"
  firstTokenPriceUSD := fun _ => .ofNat 1
  secondTokenPriceUSD := fun _ => .ofNat 1
  firstTokenID_ne := fun _ => by
    show "TOKA-1" ≠ "TOKB-1"
    decide

def unit (tokenID : TokenID) : InputTokenModel := ⟨tokenID, 0, .ofNat 1⟩

/-- A swap of EGLD for a token that the pair does not have is built, with the
step that wraps, although nothing is returned; and EGLD is returned as the second
token where it is none of the pair's. -/
theorem not_validationHolds_sample :
    (¬ onePairService.ValidationHolds "erd1ab" (unit "EGLD", unit "TOKC-1") ∧
      (AutoRouter.swapTokensFixedOutput onePairService.env
        ⟨"erd1ab", "EGLD", "TOKC-1", .ofNat 1, .ofNat 1⟩).toOption.map List.length = some 2) ∧
    (¬ onePairService.ValidationHolds "erd1ab" (unit "EGLD", unit "TOKA-1") ∧
      onePairService.validateTokens "erd1ab" (unit "EGLD", unit "TOKA-1") =
        .ok (some (unit "TOKA-1", unit "WEGLD-1"))) := by
  refine ⟨⟨fun h => ?_, by decide +kernel⟩, ⟨fun h => ?_, by rfl⟩⟩
  · obtain ⟨result, hresult, -⟩ := h.inOrder none rfl
    cases hresult
  · obtain ⟨result, hresult, hinOrder⟩ := h.inOrder (some (unit "TOKA-1", unit "WEGLD-1")) rfl
    rw [← Option.some.inj hresult] at hinOrder
    exact absurd hinOrder.second (by decide)

end PairTransactionService

end MxExchange.Pair
