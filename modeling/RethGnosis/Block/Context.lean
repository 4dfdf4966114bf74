import RethGnosis.Aura.Live
import RethGnosis.Library.Floor
import RethGnosis.Spec.ChainSpec

set_option autoImplicit false

/-!
# Execution contexts

The three constructors of `GnosisBlockExecutionCtx` in `evm_config.rs`: for a block
from the chain, for a block being built, and for an Engine payload. The tracker a
context shares with the executor is passed beside it.
-/
namespace RethGnosis

structure Withdrawal where
  index : ℕ
  validatorIndex : ℕ
  address : Address
  amount : ℕ
deriving DecidableEq

structure TransactionSigned where
  hash : B256
  txType : ℕ
  gasLimit : ℕ
  blobGasUsed : Option ℕ
deriving DecidableEq

structure GnosisBlock where
  header : GnosisHeader
  transactions : List TransactionSigned
  withdrawals : Option (List Withdrawal)

structure GnosisBlockExecutionCtx where
  parentHash : B256
  parentBeaconBlockRoot : Option B256
  withdrawals : Option (List Withdrawal)
  parentTimestamp : ℕ
  aura : Option AuraExecutionCtx
  blockRewardsOverride : Option Address

abbrev HeaderLookup := B256 → Option GnosisHeader

structure GnosisEvmConfig where
  chainSpec : GnosisChainSpec
  feeCollectorAddress : Address
  blockRewardsAddress : Address
  headerLookup : HeaderLookup

namespace GnosisEvmConfig

def requiredAddress (genesis : GenesisConfig) (field : String) : Except String Address :=
  match genesis.extraFields[field]? with
  | none => .error "no eip1559collector field"
  | some none => .error "failed to parse eip1559collector field"
  | some (some address) => .ok address

/-- Both missing fields panic with the same text. -/
def new (chainSpec : GnosisChainSpec) (headerLookup : HeaderLookup) :
    Except String GnosisEvmConfig := do
  let feeCollectorAddress ← requiredAddress chainSpec.genesis "eip1559collector"
  let blockRewardsAddress ← requiredAddress chainSpec.genesis "blockRewardsContract"
  return {
    chainSpec := chainSpec
    feeCollectorAddress := feeCollectorAddress
    blockRewardsAddress := blockRewardsAddress
    headerLookup := headerLookup }

end GnosisEvmConfig

/-- `transitions.range(..=block_number).next_back()` -/
def transitionAt (transitions : BTreeMap ℕ Address) (blockNumber : ℕ) : Option Address :=
  (transitions.toList.filter (fun entry => entry.1 ≤ blockNumber)).getLast?.map Prod.snd

def rewardsOverrideAt (chainSpec : GnosisChainSpec) (blockNumber : ℕ) : Option Address :=
  match chainSpec.auraConfig with
  | none => none
  | some c => transitionAt c.blockRewardContractTransitions blockNumber

structure NextBlockEnvAttributes where
  timestamp : ℕ
  suggestedFeeRecipient : Address
  prevRandao : B256
  gasLimit : ℕ
  parentBeaconBlockRoot : Option B256
  withdrawals : Option (List Withdrawal)
  slotNumber : Option ℕ

structure ExecutionData where
  parentHash : B256
  parentBeaconBlockRoot : Option B256
  withdrawals : Option (List Withdrawal)

section Contexts
variable (config : GnosisEvmConfig)

def parentTimestamp (parentHash : B256) : ℕ :=
  match config.headerLookup parentHash with
  | some header => header.timestamp
  | none => 0

def auraForBlock (blockNumber : ℕ) (rf : RollingFinality) :
    Option AuraExecutionCtx × RollingFinality :=
  match config.chainSpec.auraConfig with
  | none => (none, rf)
  | some c =>
    if config.chainSpec.isParisActiveAtBlock blockNumber then
      (none, rf)
    else
      let built := auraContextForBlock c blockNumber rf
      (some built.1, built.2)

def contextForBlock (block : GnosisBlock) (rf : RollingFinality) :
    GnosisBlockExecutionCtx × RollingFinality :=
  let aura := auraForBlock config block.header.number rf
  ({ parentHash := block.header.parentHash
     parentBeaconBlockRoot := block.header.parentBeaconBlockRoot
     withdrawals := block.withdrawals
     parentTimestamp := parentTimestamp config block.header.parentHash
     aura := aura.1
     blockRewardsOverride := rewardsOverrideAt config.chainSpec block.header.number }, aura.2)

/-- The tracker's scheduled call is not consulted when a block is built. -/
def auraForNextBlock (nextBlock : ℕ) : Option AuraExecutionCtx :=
  match config.chainSpec.auraConfig with
  | none => none
  | some c =>
    if config.chainSpec.isParisActiveAtBlock nextBlock then
      none
    else
      some
        { finalizeChangeAddress :=
            computeFinalizeChangeAddressFromValidators c.validators nextBlock
          validatorContract := c.validators.contractAddressAt nextBlock
          posdaoTransition := c.posdaoTransition
          auraBytecodeRewrites := c.rewriteBytecode[nextBlock]? }

def contextForNextBlock (parentHash : B256) (parent : GnosisHeader)
    (attributes : NextBlockEnvAttributes) : GnosisBlockExecutionCtx where
  parentHash := parentHash
  parentBeaconBlockRoot := attributes.parentBeaconBlockRoot
  withdrawals := attributes.withdrawals
  parentTimestamp := parent.timestamp
  aura := auraForNextBlock config (parent.number + 1)
  blockRewardsOverride := rewardsOverrideAt config.chainSpec (parent.number + 1)

def contextForPayload (payload : ExecutionData) : GnosisBlockExecutionCtx where
  parentHash := payload.parentHash
  parentBeaconBlockRoot := payload.parentBeaconBlockRoot
  withdrawals := payload.withdrawals
  parentTimestamp := parentTimestamp config payload.parentHash
  aura := none
  blockRewardsOverride := none

def rewardAddress (ctx : GnosisBlockExecutionCtx) : Address :=
  ctx.blockRewardsOverride.getD config.blockRewardsAddress

end Contexts

/-- `ExecutionPayload::from_block_unchecked` -/
abbrev FromBlockUnchecked := B256 → GnosisBlock → ExecutionData

def blockToPayload (fromBlockUnchecked : FromBlockUnchecked) (hash : B256) (block : GnosisBlock) :
    ExecutionData :=
  fromBlockUnchecked hash block

/-- The payload version follows the header's newest field: with a block access list hash or a
beacon root it always carries a withdrawals list. -/
structure FromBlockUncheckedLaws (fromBlockUnchecked : FromBlockUnchecked) : Prop where
  parentHash : ∀ (hash : B256) (block : GnosisBlock),
    (fromBlockUnchecked hash block).parentHash = block.header.parentHash
  parentBeaconBlockRoot : ∀ (hash : B256) (block : GnosisBlock),
    (fromBlockUnchecked hash block).parentBeaconBlockRoot = block.header.parentBeaconBlockRoot
  withdrawals : ∀ (hash : B256) (block : GnosisBlock),
    (fromBlockUnchecked hash block).withdrawals =
      if block.header.blockAccessListHash.isSome || block.header.parentBeaconBlockRoot.isSome then
        some (block.withdrawals.getD [])
      else block.withdrawals

/-- The fields the assembler takes from the context it is given. Before Shanghai the Engine API
refuses attributes with withdrawals; from Shanghai on `finish` refuses a context without them. -/
structure BuiltFrom (config : GnosisEvmConfig) (ctx : GnosisBlockExecutionCtx)
    (parent : GnosisHeader) (attributes : NextBlockEnvAttributes) (block : GnosisBlock) : Prop where
  number : block.header.number = parent.number + 1
  timestamp : block.header.timestamp = attributes.timestamp
  parentHash : block.header.parentHash = ctx.parentHash
  parentBeaconBlockRoot : block.header.parentBeaconBlockRoot = ctx.parentBeaconBlockRoot
  withdrawals : block.withdrawals =
    if config.chainSpec.isShanghaiActiveAtTimestamp block.header.timestamp then
      some (ctx.withdrawals.getD [])
    else none
  attributes : attributes.withdrawals.isSome =
    config.chainSpec.isShanghaiActiveAtTimestamp attributes.timestamp

/-- The block reaches the executor with one context, whichever way it takes. -/
structure SameContext (config : GnosisEvmConfig) (fromBlockUnchecked : FromBlockUnchecked)
    (hash : B256) (block : GnosisBlock) (rf : RollingFinality) : Prop where
  payload : contextForPayload config (blockToPayload fromBlockUnchecked hash block) =
    (contextForBlock config block rf).1
  built : ∀ (parentHash : B256) (parent : GnosisHeader) (attributes : NextBlockEnvAttributes),
    BuiltFrom config (contextForNextBlock config parentHash parent attributes) parent attributes
        block →
      config.headerLookup parentHash = some parent →
        contextForNextBlock config parentHash parent attributes =
          (contextForBlock config block rf).1

theorem transitionAt_eq_none_iff (transitions : BTreeMap ℕ Address) (blockNumber : ℕ) :
    transitionAt transitions blockNumber = none ↔
      ∀ (transition : ℕ) (contract : Address), transitions[transition]? = some contract →
        blockNumber < transition := by
  change (Floor.floor transitions.toList blockNumber).map Prod.snd = none ↔ _
  rw [Option.map_eq_none_iff, Floor.floor_toList_eq_none_iff]
  constructor
  · intro h transition contract hget
    by_contra hle
    rw [h transition (by omega)] at hget
    contradiction
  · intro h transition hle
    cases hget : transitions[transition]? with
    | none => rfl
    | some contract =>
      have hlt := h transition contract hget
      omega

section PostMerge
variable {config : GnosisEvmConfig} {fromBlockUnchecked : FromBlockUnchecked} {hash : B256}
  {block : GnosisBlock} {rf : RollingFinality}

theorem auraForBlock_postMerge {n : ℕ} (h : config.chainSpec.isParisActiveAtBlock n = true) :
    auraForBlock config n rf = (none, rf) := by
  unfold auraForBlock
  cases config.chainSpec.auraConfig with
  | none => rfl
  | some c => simp only [h, ↓reduceIte]

theorem auraForNextBlock_postMerge {n : ℕ} (h : config.chainSpec.isParisActiveAtBlock n = true) :
    auraForNextBlock config n = none := by
  unfold auraForNextBlock
  cases config.chainSpec.auraConfig with
  | none => rfl
  | some c => simp only [h, ↓reduceIte]

theorem contextForNextBlock_eq
    (hpost : config.chainSpec.isParisActiveAtBlock block.header.number = true)
    {parentHash : B256} {parent : GnosisHeader} {attributes : NextBlockEnvAttributes}
    (hbuilt : BuiltFrom config (contextForNextBlock config parentHash parent attributes) parent
      attributes block)
    (hlookup : config.headerLookup parentHash = some parent) :
    contextForNextBlock config parentHash parent attributes =
      (contextForBlock config block rf).1 := by
  have hnumber := hbuilt.number
  have hparent : block.header.parentHash = parentHash := hbuilt.parentHash
  have hroot : block.header.parentBeaconBlockRoot = attributes.parentBeaconBlockRoot :=
    hbuilt.parentBeaconBlockRoot
  have hwithdrawals : block.withdrawals = attributes.withdrawals := by
    rw [hbuilt.withdrawals, hbuilt.timestamp, ← hbuilt.attributes]
    cases h : attributes.withdrawals with
    | none => rfl
    | some withdrawals => simp [contextForNextBlock, h]
  have htimestamp : parentTimestamp config parentHash = parent.timestamp := by
    simp only [parentTimestamp, hlookup]
  rw [hnumber] at hpost
  simp only [contextForBlock, contextForNextBlock, hnumber, auraForBlock_postMerge hpost,
    auraForNextBlock_postMerge hpost, hwithdrawals, htimestamp, hparent, hroot]

theorem contextForPayload_eq_iff (hlaws : FromBlockUncheckedLaws fromBlockUnchecked)
    (hpost : config.chainSpec.isParisActiveAtBlock block.header.number = true) :
    contextForPayload config (blockToPayload fromBlockUnchecked hash block) =
        (contextForBlock config block rf).1 ↔
      rewardsOverrideAt config.chainSpec block.header.number = none ∧
        (fromBlockUnchecked hash block).withdrawals = block.withdrawals := by
  simp only [contextForPayload, contextForBlock, blockToPayload, hlaws.parentHash,
    hlaws.parentBeaconBlockRoot, auraForBlock_postMerge hpost,
    GnosisBlockExecutionCtx.mk.injEq, true_and]
  constructor
  · rintro ⟨hwithdrawals, hoverride⟩
    exact ⟨hoverride.symm, hwithdrawals⟩
  · rintro ⟨hoverride, hwithdrawals⟩
    exact ⟨hwithdrawals, hoverride.symm⟩

end PostMerge

/-- On a chain with an `aura` section a post-merge block gets one and the same context on every
way to the executor exactly when no reward contract transition is at or below it, and it has
withdrawals if its header has a beacon root or a block access list hash. -/
theorem sameContext_iff {config : GnosisEvmConfig} {fromBlockUnchecked : FromBlockUnchecked}
    {hash : B256} {block : GnosisBlock} {rf : RollingFinality} {c : AuraConfig}
    (hlaws : FromBlockUncheckedLaws fromBlockUnchecked)
    (haura : config.chainSpec.auraConfig = some c)
    (hpost : config.chainSpec.isParisActiveAtBlock block.header.number = true) :
    SameContext config fromBlockUnchecked hash block rf ↔
      (∀ (transition : ℕ) (contract : Address),
        c.blockRewardContractTransitions[transition]? = some contract →
          block.header.number < transition) ∧
      ((block.header.blockAccessListHash.isSome || block.header.parentBeaconBlockRoot.isSome) =
          true →
        block.withdrawals.isSome = true) := by
  have hoverride : rewardsOverrideAt config.chainSpec block.header.number =
      transitionAt c.blockRewardContractTransitions block.header.number := by
    simp only [rewardsOverrideAt, haura]
  have hwithdrawals : (fromBlockUnchecked hash block).withdrawals = block.withdrawals ↔
      ((block.header.blockAccessListHash.isSome ||
        block.header.parentBeaconBlockRoot.isSome) = true → block.withdrawals.isSome = true) := by
    rw [hlaws.withdrawals]
    split_ifs with h
    · cases block.withdrawals <;> simp [h]
    · exact ⟨fun _ hroot => absurd hroot h, fun _ => rfl⟩
  rw [← transitionAt_eq_none_iff, ← hwithdrawals, ← hoverride,
    ← contextForPayload_eq_iff hlaws hpost]
  constructor
  · intro h
    exact h.payload
  · intro h
    exact ⟨h, fun _ _ _ hbuilt hlookup => contextForNextBlock_eq hpost hbuilt hlookup⟩

theorem rewardAddress_payload_iff {config : GnosisEvmConfig}
    {fromBlockUnchecked : FromBlockUnchecked} {hash : B256} {block : GnosisBlock}
    {rf : RollingFinality} :
    rewardAddress config
          (contextForPayload config (blockToPayload fromBlockUnchecked hash block)) =
        rewardAddress config (contextForBlock config block rf).1 ↔
      ∀ contract, rewardsOverrideAt config.chainSpec block.header.number = some contract →
        contract = config.blockRewardsAddress := by
  simp only [rewardAddress, contextForPayload, contextForBlock, Option.getD_none]
  cases rewardsOverrideAt config.chainSpec block.header.number with
  | none => simp
  | some contract => simp [eq_comm]

def referencePayload : FromBlockUnchecked := fun _ block =>
  { parentHash := block.header.parentHash
    parentBeaconBlockRoot := block.header.parentBeaconBlockRoot
    withdrawals :=
      if block.header.blockAccessListHash.isSome || block.header.parentBeaconBlockRoot.isSome then
        some (block.withdrawals.getD [])
      else block.withdrawals }

theorem referencePayload_laws : FromBlockUncheckedLaws referencePayload :=
  ⟨fun _ _ => rfl, fun _ _ => rfl, fun _ _ => rfl⟩

def rewardAura (transition : ℕ) : AuraConfig where
  stepDuration := 5
  validators := ⟨(∅ : BTreeMap ℕ ValidatorSetKind).insert 0 (.contract 9#160), by simp⟩
  blockRewardContractTransitions := (∅ : BTreeMap ℕ Address).insert transition 7#160
  posdaoTransition := 0
  rewriteBytecode := ∅

def rewardConfig (transition : ℕ) : GnosisEvmConfig where
  chainSpec :=
    { chainId := 100
      genesis := ⟨∅⟩
      hardforks := [(.ethereum .Paris, .ttd 0 0 none)]
      depositContract := none
      balancerHardforkConfig := none
      auraConfig := some (rewardAura transition) }
  feeCollectorAddress := 3#160
  blockRewardsAddress := 5#160
  headerLookup := fun _ => none

def postMergeBlock : GnosisBlock :=
  ⟨{ (default : GnosisHeader) with number := 11, mixHash := some 0#256 }, [], none⟩

theorem sameContext_iff_laterTransition :
    SameContext (rewardConfig 12) referencePayload 0#256 postMergeBlock (.new []) ↔
      (∀ (transition : ℕ) (contract : Address),
        (rewardAura 12).blockRewardContractTransitions[transition]? = some contract →
          postMergeBlock.header.number < transition) ∧
      ((postMergeBlock.header.blockAccessListHash.isSome ||
          postMergeBlock.header.parentBeaconBlockRoot.isSome) = true →
        postMergeBlock.withdrawals.isSome = true) :=
  sameContext_iff referencePayload_laws rfl (by decide)

/-- Reward contract 7 from block 10 on: block 11 as a payload calls contract 5 instead. -/
theorem payload_forgets_transition :
    ¬ SameContext (rewardConfig 10) referencePayload 0#256 postMergeBlock (.new []) ∧
      rewardAddress (rewardConfig 10)
          (contextForBlock (rewardConfig 10) postMergeBlock (.new [])).1 = 7#160 ∧
      rewardAddress (rewardConfig 10) (contextForPayload (rewardConfig 10)
        (blockToPayload referencePayload 0#256 postMergeBlock)) = 5#160 := by
  refine ⟨?_, by decide +kernel, by decide +kernel⟩
  intro hsame
  have hoverride := congrArg GnosisBlockExecutionCtx.blockRewardsOverride hsame.payload
  revert hoverride
  decide +kernel

end RethGnosis
