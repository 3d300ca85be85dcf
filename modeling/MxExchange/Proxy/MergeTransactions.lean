import MxExchange.Pair.PairTransactions

/-!
# The builders that merge tokens

`mergeWrappedLPTokens` and `mergeWrappedFarmTokens` of the proxy and
`mergeLockedAssetTokens` of the locked asset factory take a list of tokens and
build one transaction that merges them. The gas grows with the list. Each builder
compares it with the most a transaction may have before it builds anything.

The locked asset factory asks for a fixed part on top, and its check and its
transaction compute the same number, which is therefore exact and within the
limit. The two builders of the proxy check a product with a key that is not in the
configuration, and build with the one that is. A product with a missing key is
not greater than anything (`exceedsLimit_of_missing`), so they keep to the limit
just for the lists that are short enough anyway (`respectGasLimit_iff`).
-/

namespace MxExchange.Proxy

open MxExchange.Num MxExchange.Collections
open AutoRouter (TokenTransfer fungibleFromBigInteger)
open Pair (InputTokenModel)

/-! ## Configuration -/

/-- The keys of `gasLimits` that the builders read. The first two may be
missing. -/
structure GasConfig where
  defaultMergeWLPT : Option ℕ
  defaultMergeWFMT : Option ℕ
  proxyPairsDefaultMergeWLPT : ℕ
  proxyFarmsDefaultMergeWFMT : ℕ
  lockedAssetMerge : ℕ
  defaultMergeLockedAssets : ℕ

/-- `gasLimits` of `default.json`, which no other file overrides. -/
def gasConfig : GasConfig where
  defaultMergeWLPT := none
  defaultMergeWFMT := none
  proxyPairsDefaultMergeWLPT := 20000000
  proxyFarmsDefaultMergeWFMT := 20000000
  lockedAssetMerge := 4000000
  defaultMergeLockedAssets := 12000000

/-- `constantsConfig.MAX_GAS_LIMIT`. -/
def MAX_GAS_LIMIT : ℕ := 750000000

/-- `key * tokens.length`. -/
def timesLength : Option ℕ → ℕ → Number
  | some gas, length => .fin ((Double.ofRat gas).mul (Double.ofRat length))
  | none, _ => .nan

/-! ## Transactions -/

/-- A payment in a token with a nonce. -/
structure MetaEsdtTransfer extends TokenTransfer where
  nonce : ℕ
  deriving DecidableEq

def metaEsdtFromBigInteger (tokenIdentifier : String) (nonce : ℕ) (amount : BigNumber) :
    Except String MetaEsdtTransfer := do
  let payment ← fungibleFromBigInteger tokenIdentifier amount
  return { payment with nonce := nonce }

/-- The transaction, with its gas. -/
structure MergeTransaction where
  receiver : String
  function : String
  endpointArgs : List String
  payments : List MetaEsdtTransfer
  sender : String
  gasLimit : Number
  deriving DecidableEq

/-- What the builders ask others. Reading an address may fail. -/
structure MergeService where
  gasConfig : GasConfig
  lockedTokenID : String
  getProxyDexSmartContract : String → Except String String
  getLockedAssetFactorySmartContract : Except String String
  hex : String → Except String String
  fromString : String → Except String String

namespace MergeService

variable (service : MergeService)

/-- The payments of all tokens, in order. -/
def mappedPayments (tokens : List InputTokenModel) : Except String (List MetaEsdtTransfer) :=
  tokens.mapM fun token => metaEsdtFromBigInteger token.tokenID token.nonce token.amount

/-- What both builders of the proxy do, with the key that is checked and the
one that is used. -/
def mergeWrappedTokens (checkedGas : Option ℕ) (usedGas : ℕ) (function : String)
    (endpointArgs : Except String (List String)) (sender proxyAddress : String)
    (tokens : List InputTokenModel) : Except String MergeTransaction :=
  if (timesLength checkedGas tokens.length).gt (.fin (Double.ofRat MAX_GAS_LIMIT)) then
    .error "Number of merge tokens exeeds maximum gas limit!"
  else do
    let contract ← service.getProxyDexSmartContract proxyAddress
    let endpointArgs ← endpointArgs
    let gasLimit := timesLength (some usedGas) tokens.length
    let payments ← mappedPayments tokens
    let sender ← service.fromString sender
    return ⟨contract, function, endpointArgs, payments, sender, gasLimit⟩

/-- Wrapped LP tokens are merged by the proxy. -/
def mergeWrappedLPTokens (sender proxyAddress : String) (tokens : List InputTokenModel) :
    Except String MergeTransaction :=
  service.mergeWrappedTokens service.gasConfig.defaultMergeWLPT
    service.gasConfig.proxyPairsDefaultMergeWLPT "mergeWrappedLpTokens" (.ok []) sender
    proxyAddress tokens

/-- Wrapped farm tokens too, with the farm as an argument. -/
def mergeWrappedFarmTokens (sender proxyAddress farmAddress : String)
    (tokens : List InputTokenModel) : Except String MergeTransaction :=
  service.mergeWrappedTokens service.gasConfig.defaultMergeWFMT
    service.gasConfig.proxyFarmsDefaultMergeWFMT "mergeWrappedFarmTokens"
    ((service.hex farmAddress).map fun hex => [hex]) sender proxyAddress tokens

/-- The loop that looks for a token that is no locked asset. -/
def validateInputTokens : List InputTokenModel → Except String Unit
  | [] => .ok ()
  | lockedAssetToken :: tokens =>
    if lockedAssetToken.tokenID ≠ service.lockedTokenID ∨ lockedAssetToken.nonce < 1 then
      .error "Invalid locked asset to merge!"
    else validateInputTokens tokens

/-- What is checked and what is used, written out twice in the source. -/
def lockedAssetGas (length : ℕ) : BigNumber :=
  ((BigNumber.ofNat service.gasConfig.lockedAssetMerge).multipliedBy (.ofNat length)).plus
    (.ofNat service.gasConfig.defaultMergeLockedAssets)

/-- Locked assets are merged by their factory, whose limit is checked. -/
def mergeLockedAssetTokens (sender : String) (tokens : List InputTokenModel) :
    Except String MergeTransaction :=
  if (service.lockedAssetGas tokens.length).isGreaterThan (.ofNat MAX_GAS_LIMIT) then
    .error "Number of merge tokens exeeds maximum gas limit!"
  else do
    let _ ← service.validateInputTokens tokens
    let contract ← service.getLockedAssetFactorySmartContract
    let payments ← mappedPayments tokens
    let gasLimit := (service.lockedAssetGas tokens.length).toNumber
    let sender ← service.fromString sender
    return ⟨contract, "mergeLockedAssetTokens", [], payments, sender, gasLimit⟩

/-! ## Gas -/

/-- Whatever is built asks for so much gas, which is within the limit. -/
def KeepsTo (gas : ℕ) (result : Except String MergeTransaction) : Prop :=
  ∀ transaction, result = .ok transaction → ∃ gasLimit : Double,
    transaction.gasLimit = .fin gasLimit ∧ gasLimit.val = gas ∧ gasLimit.val ≤ MAX_GAS_LIMIT

/-- All three builders ask for the gas that is configured, within the limit. -/
structure RespectGasLimit (sender proxyAddress farmAddress : String)
    (tokens : List InputTokenModel) : Prop where
  lockedAsset : KeepsTo (service.gasConfig.lockedAssetMerge * tokens.length +
      service.gasConfig.defaultMergeLockedAssets)
    (service.mergeLockedAssetTokens sender tokens)
  proxyPair : KeepsTo (service.gasConfig.proxyPairsDefaultMergeWLPT * tokens.length)
    (service.mergeWrappedLPTokens sender proxyAddress tokens)
  proxyFarm : KeepsTo (service.gasConfig.proxyFarmsDefaultMergeWFMT * tokens.length)
    (service.mergeWrappedFarmTokens sender proxyAddress farmAddress tokens)

/-- A request that a builder of the proxy does not refuse: the check lets it
through, and its addresses and amounts can be read. -/
structure Accepted (checkedGas : Option ℕ) (endpointArgs : Except String (List String))
    (sender proxyAddress : String) (tokens : List InputTokenModel) : Prop where
  check :
    (timesLength checkedGas tokens.length).gt (.fin (Double.ofRat MAX_GAS_LIMIT)) = false
  contract : ∃ contract, service.getProxyDexSmartContract proxyAddress = .ok contract
  endpointArgs : ∃ args, endpointArgs = .ok args
  payments : ∃ payments, mappedPayments tokens = .ok payments
  sender : ∃ address, service.fromString sender = .ok address

section Gas

variable {service} {sender proxyAddress farmAddress : String} {tokens : List InputTokenModel}
  {transaction : MergeTransaction} {checkedGas : Option ℕ} {usedGas : ℕ} {function : String}
  {endpointArgs : Except String (List String)}

/-- A product within the limit is exact. -/
theorem timesLength_val (h : usedGas * tokens.length ≤ MAX_GAS_LIMIT) : ∃ gas : Double,
    timesLength (some usedGas) tokens.length = .fin gas ∧
      gas.val = (usedGas * tokens.length : ℕ) := by
  refine ⟨_, rfl, ?_⟩
  have hexact : ∀ n : ℕ, n ≤ MAX_GAS_LIMIT → (Double.ofRat n).val = n := by
    intro n hn
    have hlt : |(n : ℤ)| < 2 ^ 53 := by
      rw [MAX_GAS_LIMIT] at hn
      rw [Nat.abs_cast]
      omega
    have hval := Double.ofRat_intCast_val hlt
    rwa [Int.cast_natCast] at hval
  have hval : ((Double.ofRat usedGas).mul (Double.ofRat tokens.length)).val =
      roundDouble ((Double.ofRat usedGas).val * (Double.ofRat tokens.length).val) := rfl
  have hzero : (Double.ofRat ((0 : ℕ) : ℚ)).val = ((0 : ℕ) : ℚ) := hexact 0 (Nat.zero_le _)
  rcases Nat.eq_zero_or_pos usedGas with rfl | hused
  · rw [hval, hzero, Nat.cast_zero, zero_mul, roundDouble_zero, Nat.zero_mul, Nat.cast_zero]
  rcases Nat.eq_zero_or_pos tokens.length with hlength | hlength
  · rw [hval, hlength, hzero, Nat.cast_zero, mul_zero, roundDouble_zero, Nat.mul_zero,
      Nat.cast_zero]
  · have hfirst : usedGas ≤ MAX_GAS_LIMIT := (Nat.le_mul_of_pos_right _ hlength).trans h
    have hsecond : tokens.length ≤ MAX_GAS_LIMIT := (Nat.le_mul_of_pos_left _ hused).trans h
    rw [hval, hexact _ hfirst, hexact _ hsecond, ← Nat.cast_mul]
    exact hexact _ h

/-- A missing key is no limit. -/
theorem exceedsLimit_of_missing (length : ℕ) (limit : Number) :
    (timesLength none length).gt limit = false := rfl

theorem mergeWrappedTokens_gasLimit
    (h : service.mergeWrappedTokens checkedGas usedGas function endpointArgs sender proxyAddress
      tokens = .ok transaction) :
    transaction.gasLimit = timesLength (some usedGas) tokens.length ∧
      service.Accepted checkedGas endpointArgs sender proxyAddress tokens := by
  unfold mergeWrappedTokens at h
  split at h
  next => cases h
  next hcheck =>
    obtain ⟨contract, hcontract, h⟩ := bind_eq_ok.mp h
    obtain ⟨args, hargs, h⟩ := bind_eq_ok.mp h
    obtain ⟨payments, hpayments, h⟩ := bind_eq_ok.mp h
    obtain ⟨address, hsender, h⟩ := bind_eq_ok.mp h
    rw [← pure_eq_ok.mp h]
    exact ⟨rfl, ⟨by simpa using hcheck, ⟨contract, hcontract⟩, ⟨args, hargs⟩,
      ⟨payments, hpayments⟩, ⟨address, hsender⟩⟩⟩

theorem mergeWrappedTokens_of_accepted
    (h : service.Accepted checkedGas endpointArgs sender proxyAddress tokens) :
    ∃ transaction, service.mergeWrappedTokens checkedGas usedGas function endpointArgs sender
      proxyAddress tokens = .ok transaction := by
  obtain ⟨hcheck, ⟨contract, hcontract⟩, ⟨args, hargs⟩, ⟨payments, hpayments⟩,
    ⟨address, hsender⟩⟩ := h
  unfold mergeWrappedTokens
  rw [hcheck, hcontract, hargs, hpayments, hsender]
  exact ⟨_, rfl⟩

/-- The proxy keeps to the limit if it refuses the request or the product is
within the limit anyway. -/
theorem keepsTo_mergeWrappedTokens_iff :
    KeepsTo (usedGas * tokens.length) (service.mergeWrappedTokens checkedGas usedGas function
        endpointArgs sender proxyAddress tokens) ↔
      (service.Accepted checkedGas endpointArgs sender proxyAddress tokens →
        usedGas * tokens.length ≤ MAX_GAS_LIMIT) := by
  constructor
  · intro hkeeps haccepted
    obtain ⟨transaction, htransaction⟩ := mergeWrappedTokens_of_accepted haccepted
    obtain ⟨gasLimit, -, hval, hle⟩ := hkeeps transaction htransaction
    rw [hval] at hle
    exact_mod_cast hle
  · intro hlimit transaction htransaction
    obtain ⟨hgas, haccepted⟩ := mergeWrappedTokens_gasLimit htransaction
    have hle := hlimit haccepted
    obtain ⟨gasLimit, heq, hval⟩ := timesLength_val hle
    refine ⟨gasLimit, hgas.trans heq, hval, ?_⟩
    rw [hval]
    exact_mod_cast hle

theorem lockedAssetGas_eq (service : MergeService) (length : ℕ) : service.lockedAssetGas length =
    .ofNat (service.gasConfig.lockedAssetMerge * length +
      service.gasConfig.defaultMergeLockedAssets) := by
  have hproduct : (BigNumber.ofNat service.gasConfig.lockedAssetMerge).multipliedBy
      (.ofNat length) = .ofNat (service.gasConfig.lockedAssetMerge * length) :=
    congrArg BigNumber.fin (Nat.cast_mul _ _).symm
  rw [lockedAssetGas, hproduct, BigNumber.plus_ofNat]

/-- The number that was checked is the number that is used. -/
theorem mergeLockedAssetTokens_gasLimit
    (h : service.mergeLockedAssetTokens sender tokens = .ok transaction) :
    transaction.gasLimit = .fin (Double.ofRat (service.gasConfig.lockedAssetMerge * tokens.length +
        service.gasConfig.defaultMergeLockedAssets : ℕ)) ∧
      service.gasConfig.lockedAssetMerge * tokens.length +
        service.gasConfig.defaultMergeLockedAssets ≤ MAX_GAS_LIMIT := by
  unfold mergeLockedAssetTokens at h
  rw [lockedAssetGas_eq] at h
  split at h
  next => cases h
  next hlimit =>
    obtain ⟨_, -, h⟩ := bind_eq_ok.mp h
    obtain ⟨contract, -, h⟩ := bind_eq_ok.mp h
    obtain ⟨payments, -, h⟩ := bind_eq_ok.mp h
    obtain ⟨address, -, h⟩ := bind_eq_ok.mp h
    rw [← pure_eq_ok.mp h]
    refine ⟨rfl, ?_⟩
    rw [BigNumber.ofNat, BigNumber.ofNat, BigNumber.isGreaterThan_fin, decide_eq_true_iff,
      not_lt] at hlimit
    exact_mod_cast hlimit

/-- The locked asset factory always keeps to the limit. -/
theorem keepsTo_mergeLockedAssetTokens :
    KeepsTo (service.gasConfig.lockedAssetMerge * tokens.length +
      service.gasConfig.defaultMergeLockedAssets)
      (service.mergeLockedAssetTokens sender tokens) := by
  intro transaction h
  obtain ⟨hgas, hlimit⟩ := mergeLockedAssetTokens_gasLimit h
  have hlt : |((service.gasConfig.lockedAssetMerge * tokens.length +
      service.gasConfig.defaultMergeLockedAssets : ℕ) : ℤ)| < 2 ^ 53 := by
    rw [MAX_GAS_LIMIT] at hlimit
    rw [Nat.abs_cast]
    omega
  have hexact := Double.ofRat_intCast_val hlt
  rw [Int.cast_natCast] at hexact
  refine ⟨_, hgas, hexact, ?_⟩
  rw [hexact]
  exact_mod_cast hlimit

end Gas

/-- **Merging and the gas limit.** The locked asset factory asks for the gas
that is configured and stays within the limit. The two builders of the proxy do
so where a request they do not refuse has few enough tokens. -/
theorem respectGasLimit_iff (service : MergeService) (sender proxyAddress farmAddress : String)
    (tokens : List InputTokenModel) :
    service.RespectGasLimit sender proxyAddress farmAddress tokens ↔
      (service.Accepted service.gasConfig.defaultMergeWLPT (.ok []) sender proxyAddress tokens →
        service.gasConfig.proxyPairsDefaultMergeWLPT * tokens.length ≤ MAX_GAS_LIMIT) ∧
      (service.Accepted service.gasConfig.defaultMergeWFMT
          ((service.hex farmAddress).map fun hex => [hex]) sender proxyAddress tokens →
        service.gasConfig.proxyFarmsDefaultMergeWFMT * tokens.length ≤ MAX_GAS_LIMIT) := by
  constructor
  · intro h
    exact ⟨keepsTo_mergeWrappedTokens_iff.mp h.proxyPair,
      keepsTo_mergeWrappedTokens_iff.mp h.proxyFarm⟩
  · intro ⟨hpair, hfarm⟩
    exact ⟨keepsTo_mergeLockedAssetTokens, keepsTo_mergeWrappedTokens_iff.mpr hpair,
      keepsTo_mergeWrappedTokens_iff.mpr hfarm⟩

end MergeService

/-! ## The configured keys -/

/-- With the keys of the file the limit is 37 tokens. -/
theorem gasConfig_le_limit_iff (length : ℕ) :
    (gasConfig.proxyPairsDefaultMergeWLPT * length ≤ MAX_GAS_LIMIT ↔ length ≤ 37) ∧
      (gasConfig.proxyFarmsDefaultMergeWFMT * length ≤ MAX_GAS_LIMIT ↔ length ≤ 37) := by
  unfold gasConfig MAX_GAS_LIMIT
  dsimp only
  omega

def sampleService : MergeService where
  gasConfig := gasConfig
  lockedTokenID := "LKMEX"
  getProxyDexSmartContract := .ok
  getLockedAssetFactorySmartContract := .ok "factory"
  hex := .ok
  fromString := .ok

def sampleToken : InputTokenModel := ⟨"LKLP", 1, .ofNat 1⟩

/-- 38 wrapped tokens are merged for more than the limit. -/
theorem not_respectGasLimit_sample :
    ¬ sampleService.RespectGasLimit "erd1user" "proxy" "farm"
      (List.replicate 38 sampleToken) := by
  intro h
  obtain ⟨transaction, htransaction⟩ : ∃ transaction, sampleService.mergeWrappedLPTokens
      "erd1user" "proxy" (List.replicate 38 sampleToken) = .ok transaction :=
    MergeService.mergeWrappedTokens_of_accepted
      ⟨MergeService.exceedsLimit_of_missing _ _, ⟨_, rfl⟩, ⟨_, rfl⟩, ⟨_, rfl⟩, ⟨_, rfl⟩⟩
  obtain ⟨gasLimit, -, hval, hle⟩ := h.proxyPair transaction htransaction
  rw [hval] at hle
  have hle' : gasConfig.proxyPairsDefaultMergeWLPT * 38 ≤ MAX_GAS_LIMIT := by
    exact_mod_cast hle
  exact absurd ((gasConfig_le_limit_iff 38).1.mp hle') (by decide)

end MxExchange.Proxy
