import MxExchange.Energy.EnergyCompute
import MxExchange.Num.SquareRoot

/-!
# `governance.service.ts`: the voting power of a user

A user votes with a quorum: an amount of energy, or a balance of a snapshot.
Contracts count it as it is, or its square root. The contract takes the root in
whole numbers. The service takes the decimal root and cuts off its decimals, which
comes to the same (`truncate_sqrtPlaces_natCast`). Only for energy below zero, which
has no root, it announces `NaN` (`sound_iff`).
-/

namespace MxExchange.Governance

open MxExchange.Num MxExchange.Energy

inductive GovernanceType where
  | ENERGY
  | OLD_ENERGY
  | TOKEN_SNAPSHOT
  deriving DecidableEq

def toTypeEnum : String → Option GovernanceType
  | "energy" => some .ENERGY
  | "tokenSnapshot" => some .TOKEN_SNAPSHOT
  | "oldEnergy" => some .OLD_ENERGY
  | _ => none

inductive GovernanceSmoothingFunction where
  | CVADRATIC
  | LINEAR
  deriving DecidableEq

def toSmoothingFunctionEnum : String → Option GovernanceSmoothingFunction
  | "cvadratic" => some .CVADRATIC
  | "linear" => some .LINEAR
  | _ => none

/-- The addresses of the configuration, by type and by smoothing function. -/
abbrev GovernanceConfig := List (String × List (String × List String))

namespace GovernanceConfig

variable (governanceConfig : GovernanceConfig) (governanceAddress : String)

/-- The first entry that has the address. -/
def entry : Option (String × String) :=
  (governanceConfig.flatMap fun type =>
    type.2.filterMap fun smoothingFunction =>
      if governanceAddress ∈ smoothingFunction.2 then some (type.1, smoothingFunction.1)
      else none).head?

def governanceType : Option GovernanceType :=
  (governanceConfig.entry governanceAddress).bind fun entry => toTypeEnum entry.1

def governanceSmoothingFunction : Option GovernanceSmoothingFunction :=
  (governanceConfig.entry governanceAddress).bind fun entry => toSmoothingFunctionEnum entry.2

end GovernanceConfig

/-- What the services ask others. -/
structure GovernanceServices where
  governanceConfig : GovernanceConfig
  proposalRootHash : String → ℕ → String
  /-- The balance of a leaf of the snapshot, zero without one. -/
  getAddressBalance : String → String → ℕ
  energyAmountForUser : String → ℤ
  energyAbi : EnergyAbiService
  currentEpoch : ℤ

namespace GovernanceServices

variable (services : GovernanceServices)

/-- `GovernanceQuorumService.userQuorum`. -/
def userQuorum (contractAddress userAddress roothash : String) : Option ℤ :=
  match services.governanceConfig.governanceType contractAddress with
  | some .ENERGY => some (services.energyAmountForUser userAddress)
  | some .TOKEN_SNAPSHOT => some (services.getAddressBalance roothash userAddress)
  | _ => none

/-- `new BigNumber` of a number that may be missing. -/
def ofQuorum : Option ℤ → BigNumber
  | some quorum => .fin quorum
  | none => .nan

/-- The power of a quorum, by the kind of governance. -/
def smoothingFunction (scAddress : String) (quorum : Option ℤ) : Option BigNumber :=
  match services.governanceConfig.governanceSmoothingFunction scAddress with
  | some .CVADRATIC => some (ofQuorum quorum).sqrt.integerValue
  | some .LINEAR => some (ofQuorum quorum).integerValue
  | none => none

/-- The quorum a user votes with, as the service of the contract's type sees
it. -/
def votingQuorum (contractAddress : String) (proposalId : ℕ) (userAddress : String) :
    GovernanceType → Option ℤ
  | .ENERGY | .OLD_ENERGY =>
    some (getUserEnergy services.energyAbi services.currentEpoch userAddress false).amount
  | .TOKEN_SNAPSHOT =>
    services.userQuorum contractAddress userAddress
      (services.proposalRootHash contractAddress proposalId)

/-- `userVotingPower` of `userService(contractAddress)`. -/
def userVotingPower (contractAddress : String) (proposalId : ℕ) (userAddress : String) :
    Option BigNumber :=
  match services.governanceConfig.governanceType contractAddress with
  | some type =>
    services.smoothingFunction contractAddress
      (services.votingQuorum contractAddress proposalId userAddress type)
  | none => none

end GovernanceServices

/-! ## Square roots -/

/-- A user's vote at a contract that counts square roots. -/
structure QuadraticVote where
  services : GovernanceServices
  contractAddress : String
  proposalId : ℕ
  userAddress : String
  type : GovernanceType
  quorum : ℤ
  type_eq : services.governanceConfig.governanceType contractAddress = some type
  quadratic : services.governanceConfig.governanceSmoothingFunction contractAddress =
    some .CVADRATIC
  quorum_eq : services.votingQuorum contractAddress proposalId userAddress type = some quorum

/-- The whole root is the only number between whose square and the next the
quorum is. -/
theorem between_squares_iff (quorum v : ℕ) :
    (v * v ≤ quorum ∧ quorum < (v + 1) * (v + 1)) ↔ v = Nat.sqrt quorum := by
  rw [← Nat.le_sqrt, ← Nat.sqrt_lt]
  omega

namespace QuadraticVote

variable (vote : QuadraticVote)

/-- The voting power that is shown. -/
def votingPower : Option BigNumber :=
  vote.services.userVotingPower vote.contractAddress vote.proposalId vote.userAddress

/-- The whole root of the quorum, and no less than other votes with no larger
quorum get. -/
structure SoundPower (v : ℕ) : Prop where
  shown : vote.votingPower = some (.ofNat v)
  lower : (v : ℤ) * v ≤ vote.quorum
  upper : vote.quorum < ((v : ℤ) + 1) * (v + 1)
  mono : ∀ other : QuadraticVote, other.quorum ≤ vote.quorum →
    ∀ v' : ℕ, other.votingPower = some (.ofNat v') → v' ≤ v

def Sound : Prop := ∃ v, vote.SoundPower v

theorem votingPower_eq :
    vote.votingPower = some (BigNumber.fin vote.quorum).sqrt.integerValue := by
  unfold votingPower GovernanceServices.userVotingPower
  rw [vote.type_eq]
  dsimp only
  rw [vote.quorum_eq, GovernanceServices.smoothingFunction, vote.quadratic]
  rfl

/-- A root of a negative quorum is `NaN`. -/
theorem votingPower_of_neg (h : vote.quorum < 0) : vote.votingPower = some .nan := by
  have hneg : (vote.quorum : ℚ) < 0 := Int.cast_lt_zero.mpr h
  rw [votingPower_eq, BigNumber.sqrt, if_pos hneg]
  rfl

/-- From zero on it is the whole root. -/
theorem votingPower_of_natCast {quorum : ℕ} (h : vote.quorum = quorum) :
    vote.votingPower = some (.ofNat (Nat.sqrt quorum)) := by
  have hnonneg : ¬((quorum : ℤ) : ℚ) < 0 := not_lt.mpr (by positivity)
  rw [votingPower_eq, h, BigNumber.sqrt, if_neg hnonneg, BigNumber.integerValue_fin,
    BigNumber.ofNat, Int.cast_natCast, truncate_sqrtPlaces_natCast, Int.cast_natCast]

theorem eq_sqrt {quorum v : ℕ} (h : vote.quorum = quorum)
    (hshown : vote.votingPower = some (.ofNat v)) : v = Nat.sqrt quorum := by
  rw [vote.votingPower_of_natCast h] at hshown
  have hcast : ((Nat.sqrt quorum : ℕ) : ℚ) = v := BigNumber.fin.inj (Option.some.inj hshown)
  exact (Nat.cast_inj.mp hcast).symm

/-- **Voting power.** The whole root is announced exactly if the quorum is not
negative. -/
theorem sound_iff : vote.Sound ↔ 0 ≤ vote.quorum := by
  constructor
  · rintro ⟨v, hpower⟩
    exact (mul_self_nonneg (v : ℤ)).trans hpower.lower
  · intro hnonneg
    obtain ⟨quorum, hquorum⟩ := Int.eq_ofNat_of_zero_le hnonneg
    obtain ⟨hlower, hupper⟩ := (between_squares_iff quorum _).mpr rfl
    refine ⟨Nat.sqrt quorum, vote.votingPower_of_natCast hquorum, ?_, ?_, ?_⟩
    · rw [hquorum]
      exact_mod_cast hlower
    · rw [hquorum]
      exact_mod_cast hupper
    · intro other hother v' hshown
      rcases lt_or_ge other.quorum 0 with hneg | hge
      · -- what is announced for it is no number
        rw [other.votingPower_of_neg hneg] at hshown
        exact absurd (Option.some.inj hshown) nofun
      · obtain ⟨quorum', hquorum'⟩ := Int.eq_ofNat_of_zero_le hge
        rw [hquorum, hquorum', Int.ofNat_le] at hother
        rw [other.eq_sqrt hquorum' hshown]
        exact Nat.sqrt_le_sqrt hother

end QuadraticVote

/-! ## Energy below zero -/

/-- A contract that counts the square root of a user's energy. -/
def sampleVote (amount : ℤ) : QuadraticVote where
  services :=
    { governanceConfig := [("energy", [("cvadratic", ["governance"])])]
      proposalRootHash := fun _ _ => ""
      getAddressBalance := fun _ _ => 0
      energyAmountForUser := fun _ => 0
      energyAbi := ⟨fun _ => ⟨amount, 0, 0⟩, fun _ => ⟨amount, 0, 0⟩⟩
      currentEpoch := 0 }
  contractAddress := "governance"
  proposalId := 1
  userAddress := "erd1user"
  type := .ENERGY
  quorum := amount
  type_eq := rfl
  quadratic := rfl
  quorum_eq := rfl

example : (sampleVote 15).votingPower = some (.ofNat 3) := by decide +kernel

/-- Less than nothing has no root. -/
theorem not_sound_negative : ¬(sampleVote (-1)).Sound := by
  rintro ⟨v, hpower⟩
  exact absurd ((mul_self_nonneg (v : ℤ)).trans hpower.lower) (by decide)

end MxExchange.Governance
