import RethGnosis.Block.Build
import RethGnosis.Block.ChainImport
import RethGnosis.Block.HeaderLookups

set_option autoImplicit false

/-!
# Executing an Engine payload

`engine.rs` makes a block of a payload, and consensus validates the header of that block. It is
executed in the environment and the context that `evm_config.rs` takes from the payload itself, as
if every payload were post-merge, on the transactions it decodes from the payload's bytes. The
block, when it is imported later, takes the environment and the context from its header.
-/
namespace RethGnosis
open Fallible

structure EnginePayload extends ExecutionData where
  feeRecipient : Address
  stateRoot : B256
  receiptsRoot : B256
  logsBloom : BitVec 2048
  prevRandao : B256
  blockNumber : ℕ
  gasLimit : ℕ
  gasUsed : ℕ
  timestamp : ℕ
  extraData : Bytes
  baseFeePerGas : U256
  blockHash : B256
  transactions : List Bytes
  blobGasUsed : Option ℕ
  excessBlobGas : Option ℕ
  slotNumber : Option ℕ
  versionedHashes : Option (List B256)
  requestsHash : Option B256

structure EthereumBlock where
  header : Header
  transactions : List TransactionSigned
  withdrawals : Option (List Withdrawal)

inductive NewPayloadError where
  | eth (text : String)
  | other (text : String)
deriving DecidableEq

/-- The payload validator of reth, the decoding of transactions and the recovery of their
signers. -/
structure EngineSource extends BuilderSource where
  innerEnsureWellFormedPayload : EnginePayload → Except NewPayloadError (B256 × EthereumBlock)
  decode2718Exact : Bytes → Except String TransactionSigned
  tryRecoverSigner : TransactionSigned → Except String Address
  tryRecover : SealedBlock → Except String Unit

section Convert
variable (source : EngineSource) (payload : EnginePayload)

def intoGnosisBlock (block : EthereumBlock) : GnosisBlock :=
  ⟨source.intoGnosis block.header, block.transactions, block.withdrawals⟩

def convertPayloadToBlock : Except NewPayloadError SealedBlock := do
  let (hash, block) ← source.innerEnsureWellFormedPayload payload
  return ⟨intoGnosisBlock source block, hash⟩

def ensureWellFormedPayload : Except NewPayloadError SealedBlock := do
  let sealedBlock ← convertPayloadToBlock source payload
  match source.tryRecover sealedBlock with
  | .error text => throw (.other text)
  | .ok () => return sealedBlock

end Convert

section Environment
variable (source : EngineSource) (chainSpec : GnosisChainSpec) (payload : EnginePayload)

def payloadSpecId : SpecId :=
  source.revmSpecByTimestampAndBlockNumber chainSpec payload.timestamp payload.blockNumber

def payloadBlobGas : Option BlobExcessGasAndPrice :=
  match payload.excessBlobGas, source.blobParamsAtTimestamp chainSpec payload.timestamp with
  | some excessBlobGas, some params =>
    some ⟨excessBlobGas, source.calcBlobFee params excessBlobGas⟩
  | _, _ => none

def payloadBlockEnv : BlockEnv where
  number := payload.blockNumber
  beneficiary := payload.feeRecipient
  timestamp := payload.timestamp
  difficulty :=
    if (payloadSpecId source chainSpec payload).isEnabledIn .MERGE then 0
    else payload.prevRandao.toNat
  prevrandao :=
    if (payloadSpecId source chainSpec payload).isEnabledIn .MERGE then some payload.prevRandao
    else none
  gasLimit := payload.gasLimit
  basefee := min payload.baseFeePerGas u64Max
  blobExcessGasAndPrice := payloadBlobGas source chainSpec payload
  slotNum := payload.slotNumber.getD 0

/-- A payload always gets the configuration of a post-merge block. -/
def evmEnvForPayload : CfgEnv × BlockEnv :=
  (postMergeCfgEnv source.toBuilderSource chainSpec (payloadSpecId source chainSpec payload)
      payload.timestamp,
    payloadBlockEnv source chainSpec payload)

end Environment

section Transactions
variable (source : EngineSource)

def convertTransaction (tx : Bytes) : Except String (TransactionSigned × Address) := do
  let tx ← source.decode2718Exact tx
  let signer ← source.tryRecoverSigner tx
  return (tx, signer)

def txIteratorForPayload (payload : EnginePayload) :
    List (Except String (TransactionSigned × Address)) :=
  payload.transactions.map (convertTransaction source)

end Transactions

section Execution
variable {δ ε : Type} (source : EngineSource) (config : GnosisEvmConfig) (ext : Externals δ ε)

def executorForPayload (payload : EnginePayload) : GnosisBlockExecutor where
  spec := config.chainSpec
  ctx := contextForPayload config payload.toExecutionData
  cfg := (evmEnvForPayload source config.chainSpec payload).1
  block := (evmEnvForPayload source config.chainSpec payload).2
  feeCollector := config.feeCollectorAddress
  blockRewardsAddress := config.blockRewardsAddress

structure Sent where
  payload : EnginePayload
  sealedBlock : SealedBlock

/-- A transaction that does not convert fails the payload where it would be executed. -/
def executeConverted (executor : GnosisBlockExecutor) :
    Except String (TransactionSigned × Address) → Exec δ Unit
  | .error text => failWith (.other text)
  | .ok (tx, _) => executeTransaction ext executor tx

def executePayload (payload : EnginePayload) : Exec δ BlockExecutionResult := do
  applyPreExecutionChanges ext (executorForPayload source config payload)
  (txIteratorForPayload source payload).forM
    (executeConverted ext (executorForPayload source config payload))
  finish ext (executorForPayload source config payload)

def executePayloads : List EnginePayload → ExecState δ →
    List (EStateM.Result Fault (ExecState δ) BlockExecutionResult)
  | [], _ => []
  | payload :: rest, s =>
    match executePayload source config ext payload (nextBlockState s) with
    | .ok result t => .ok result t :: executePayloads rest t
    | .error fault t => [.error fault t]

end Execution

/-- The block of a well-formed payload carries the payload's fields and the transactions decoded
from its bytes; a base fee that does not fit 64 bits is refused. -/
structure BlockOf (source : EngineSource) (payload : EnginePayload) (block : EthereumBlock) :
    Prop where
  parentHash : block.header.parentHash = payload.parentHash
  parentBeaconBlockRoot : block.header.parentBeaconBlockRoot = payload.parentBeaconBlockRoot
  withdrawals : block.withdrawals = payload.withdrawals
  number : block.header.number = payload.blockNumber
  timestamp : block.header.timestamp = payload.timestamp
  beneficiary : block.header.beneficiary = payload.feeRecipient
  mixHash : block.header.mixHash = payload.prevRandao
  gasLimit : block.header.gasLimit = payload.gasLimit
  baseFeePerGas : block.header.baseFeePerGas = some payload.baseFeePerGas
  baseFee_le : payload.baseFeePerGas ≤ u64Max
  excessBlobGas : block.header.excessBlobGas = payload.excessBlobGas
  slotNumber : block.header.slotNumber = payload.slotNumber
  transactions : List.Forall₂ (fun bytes tx => source.decode2718Exact bytes = .ok tx)
    payload.transactions block.transactions

structure EngineLaws (source : EngineSource) : Prop where
  builder : BuilderLaws source.toBuilderSource
  wellFormed : ∀ (payload : EnginePayload) (hash : B256) (block : EthereumBlock),
    source.innerEnsureWellFormedPayload payload = .ok (hash, block) → BlockOf source payload block
  recovered : ∀ sealedBlock : SealedBlock, source.tryRecover sealedBlock = .ok () →
    ∀ tx ∈ sealedBlock.block.transactions, ∃ signer, source.tryRecoverSigner tx = .ok signer

/-- The payload was made into this block, and consensus accepts the block's header. -/
structure Sent.Delivered (source : EngineSource) (checks : HeaderChecks)
    (chainSpec : GnosisChainSpec) (sent : Sent) : Prop where
  wellFormed : ensureWellFormedPayload source sent.payload = .ok sent.sealedBlock
  accepted : validateHeader checks chainSpec sent.sealedBlock.sealedHeader = .ok ()

def Sent.SameReward (config : GnosisEvmConfig) (sent : Sent) : Prop :=
  ∀ contract, rewardsOverrideAt config.chainSpec sent.payload.blockNumber = some contract →
    contract = config.blockRewardsAddress

section Facts
variable {source : EngineSource} {checks : HeaderChecks} {chainSpec : GnosisChainSpec}
  {payload : EnginePayload} {block : EthereumBlock}

theorem ensureWellFormedPayload_ok {sealedBlock : SealedBlock}
    (h : ensureWellFormedPayload source payload = .ok sealedBlock) :
    ∃ block : EthereumBlock,
      source.innerEnsureWellFormedPayload payload = .ok (sealedBlock.hash, block) ∧
        sealedBlock.block = intoGnosisBlock source block ∧
        source.tryRecover sealedBlock = .ok () := by
  obtain ⟨converted, hconvert, hrecover⟩ := except_bind_ok.mp h
  obtain ⟨⟨hash, block⟩, hinner, hblock⟩ := except_bind_ok.mp hconvert
  cases hblock
  cases hsenders : source.tryRecover ⟨intoGnosisBlock source block, hash⟩ with
  | error text =>
    simp only [hsenders] at hrecover
    cases hrecover
  | ok =>
    simp only [hsenders] at hrecover
    cases hrecover
    exact ⟨block, hinner, rfl, hsenders⟩

theorem BlockOf.revmSpec (hof : BlockOf source payload block)
    (hlaws : BuilderLaws source.toBuilderSource) :
    gnosisRevmSpec source.toEnvSource chainSpec (source.intoGnosis block.header) =
      payloadSpecId source chainSpec payload := by
  rw [gnosisRevmSpec, hlaws.notPreMerge]
  change source.revmSpec _ _ = _
  rw [hlaws.revmSpec, hlaws.timestamp, hlaws.number, hof.timestamp, hof.number, payloadSpecId]

theorem BlockOf.cfgEnv (hof : BlockOf source payload block)
    (hlaws : BuilderLaws source.toBuilderSource) :
    headerCfgEnv source.toEnvSource chainSpec (source.intoGnosis block.header) =
      (evmEnvForPayload source chainSpec payload).1 := by
  rw [headerCfgEnv_postMerge (hlaws.notPreMerge _), hof.revmSpec hlaws, hlaws.timestamp,
    hof.timestamp]
  rfl

/-- Once the merge is active at the payload's number, its `prev_randao` is no difficulty. -/
theorem BlockOf.blockEnv (hof : BlockOf source payload block)
    (hlaws : BuilderLaws source.toBuilderSource)
    (hparis : chainSpec.isParisActiveAtBlock payload.blockNumber = true) :
    headerBlockEnv source.toEnvSource chainSpec (source.intoGnosis block.header) =
      payloadBlockEnv source chainSpec payload := by
  have hmerge : (payloadSpecId source chainSpec payload).isEnabledIn .MERGE = true :=
    hlaws.merge chainSpec payload.timestamp payload.blockNumber hparis
  have hblob : headerBlobGas source.toEnvSource chainSpec (source.intoGnosis block.header) =
      payloadBlobGas source chainSpec payload := by
    rw [headerBlobGas, hlaws.excessBlobGas, hlaws.timestamp, hof.excessBlobGas, hof.timestamp]
    rfl
  have hfee : (some payload.baseFeePerGas).getD 0 = min payload.baseFeePerGas u64Max :=
    (Nat.min_eq_left hof.baseFee_le).symm
  unfold headerBlockEnv payloadBlockEnv
  rw [hof.revmSpec hlaws, hmerge, hblob, hlaws.number, hlaws.beneficiary, hlaws.timestamp,
    hlaws.mixHash, hlaws.gasLimit, hlaws.baseFeePerGas, hlaws.slotNumber, hof.number,
    hof.beneficiary, hof.timestamp, hof.mixHash, hof.gasLimit, hof.baseFeePerGas, hof.slotNumber,
    hfee]
  rfl

theorem BlockOf.evmEnv_eq (hof : BlockOf source payload block)
    (hlaws : BuilderLaws source.toBuilderSource)
    (hparis : chainSpec.isParisActiveAtBlock payload.blockNumber = true) :
    evmEnvForPayload source chainSpec payload =
      evmEnv source.toEnvSource chainSpec (source.intoGnosis block.header) := by
  rw [evmEnv, hof.cfgEnv hlaws, hof.blockEnv hlaws hparis]
  rfl

/-- A list that is read in full is read element by element. -/
theorem forall₂_of_mapM_ok {ε α β : Type} {f : α → Except ε β} {xs : List α} {ys : List β}
    (h : xs.mapM f = .ok ys) : List.Forall₂ (fun x y => f x = .ok y) xs ys := by
  induction xs generalizing ys with
  | nil =>
    cases h
    exact .nil
  | cons x rest ih =>
    rw [List.mapM_cons] at h
    obtain ⟨y, hfirst, hrest⟩ := except_bind_ok.mp h
    obtain ⟨others, hothers, hcons⟩ := except_bind_ok.mp hrest
    cases hcons
    exact .cons hfirst (ih hothers)

theorem converted_of_decoded {bytes : List Bytes} {transactions : List TransactionSigned}
    (hdecoded : List.Forall₂ (fun bytes tx => source.decode2718Exact bytes = .ok tx) bytes
      transactions)
    (hsigned : ∀ tx ∈ transactions, ∃ signer, source.tryRecoverSigner tx = .ok signer) :
    List.Forall₂ (fun converted tx => ∃ signer, converted = .ok (tx, signer))
      (bytes.map (convertTransaction source)) transactions := by
  induction hdecoded with
  | nil => exact .nil
  | cons hfirst _ ih =>
    obtain ⟨⟨signer, hsigner⟩, hrest⟩ := List.forall_mem_cons.mp hsigned
    have hconverted : convertTransaction source _ = .ok (_, signer) :=
      except_bind_ok.mpr ⟨_, hfirst, except_bind_ok.mpr ⟨signer, hsigner, rfl⟩⟩
    exact .cons ⟨signer, hconverted⟩ (ih hrest)

theorem forM_converted {δ ε : Type} (ext : Externals δ ε) (executor : GnosisBlockExecutor)
    {converted : List (Except String (TransactionSigned × Address))}
    {transactions : List TransactionSigned}
    (h : List.Forall₂ (fun converted tx => ∃ signer, converted = .ok (tx, signer)) converted
      transactions) :
    converted.forM (executeConverted ext executor) =
      transactions.forM (executeTransaction ext executor) := by
  simp only [List.forM_eq_forM]
  induction h with
  | nil => rfl
  | @cons first tx _ _ hfirst _ ih =>
    obtain ⟨signer, rfl⟩ := hfirst
    have hstep : executeConverted ext executor (.ok (tx, signer)) =
        executeTransaction ext executor tx := rfl
    rw [List.forM_cons, List.forM_cons, hstep, ih]

end Facts

section Delivered
variable {δ ε : Type} {source : EngineSource} {checks : HeaderChecks} {config : GnosisEvmConfig}
  {sent : Sent} {ext : Externals δ ε}

theorem Sent.Delivered.blockOf (hlaws : EngineLaws source)
    (h : sent.Delivered source checks config.chainSpec) :
    ∃ block : EthereumBlock, BlockOf source sent.payload block ∧
      sent.sealedBlock.block = intoGnosisBlock source block := by
  obtain ⟨block, hinner, hblock, -⟩ := ensureWellFormedPayload_ok h.wellFormed
  exact ⟨block, hlaws.wellFormed sent.payload sent.sealedBlock.hash block hinner, hblock⟩

theorem Sent.Delivered.converted (hlaws : EngineLaws source)
    (h : sent.Delivered source checks config.chainSpec) :
    List.Forall₂ (fun converted tx => ∃ signer, converted = .ok (tx, signer))
      (txIteratorForPayload source sent.payload) sent.sealedBlock.block.transactions := by
  obtain ⟨block, hinner, hblock, hrecover⟩ := ensureWellFormedPayload_ok h.wellFormed
  have hof := hlaws.wellFormed sent.payload sent.sealedBlock.hash block hinner
  have hsigned := hlaws.recovered sent.sealedBlock hrecover
  rw [hblock] at hsigned ⊢
  exact converted_of_decoded hof.transactions hsigned

/-- An override that names the default contract is one that is not there. -/
theorem executeBlock_override (executor : GnosisBlockExecutor) {override : Option Address}
    (h : ∀ contract, override = some contract → contract = executor.blockRewardsAddress)
    (transactions : List TransactionSigned) :
    executeBlock ext
        { executor with ctx := { executor.ctx with blockRewardsOverride := override } }
        transactions =
      executeBlock ext
        { executor with ctx := { executor.ctx with blockRewardsOverride := none } }
        transactions := by
  cases override with
  | none => rfl
  | some contract =>
    obtain rfl := h contract rfl
    rfl

variable (hlaws : EngineLaws source) (hlaw : PreMergeLaw checks.isPreMerge)
  (hsource : PreMergeLaw source.isPreMerge)
include hlaws hlaw hsource

/-- A converted header is never in AuRa form, so consensus accepts it only after the merge. -/
theorem Sent.Delivered.paris (h : sent.Delivered source checks config.chainSpec) :
    config.chainSpec.isParisActiveAtBlock sent.payload.blockNumber = true := by
  obtain ⟨block, hof, hblock⟩ := h.blockOf hlaws
  have hphase := validateHeader_phase h.accepted
  have hheader : sent.sealedBlock.sealedHeader.header = source.intoGnosis block.header :=
    congrArg GnosisBlock.header hblock
  rw [hlaw, ← hsource, hheader, hlaws.builder.notPreMerge, hlaws.builder.number, hof.number]
    at hphase
  simpa using hphase.symm

theorem Sent.Delivered.evmEnv_eq (h : sent.Delivered source checks config.chainSpec) :
    evmEnvForPayload source config.chainSpec sent.payload =
      evmEnv source.toEnvSource config.chainSpec sent.sealedBlock.block.header := by
  obtain ⟨block, hof, hblock⟩ := h.blockOf hlaws
  rw [hblock]
  exact hof.evmEnv_eq hlaws.builder (h.paris hlaws hlaw hsource)

theorem Sent.Delivered.context_eq
    (h : sent.Delivered source checks config.chainSpec) (rf : RollingFinality) :
    (contextForBlock config sent.sealedBlock.block rf).1 =
      { contextForPayload config sent.payload.toExecutionData with
        blockRewardsOverride := rewardsOverrideAt config.chainSpec sent.payload.blockNumber } := by
  obtain ⟨block, hof, hblock⟩ := h.blockOf hlaws
  have hparis := h.paris hlaws hlaw hsource
  rw [hblock]
  unfold contextForBlock contextForPayload intoGnosisBlock
  dsimp only
  rw [hlaws.builder.number, hlaws.builder.parentHash, hlaws.builder.parentBeaconBlockRoot,
    hof.number, hof.parentHash, hof.parentBeaconBlockRoot, hof.withdrawals,
    auraForBlock_postMerge hparis]

theorem Sent.Delivered.executor_eq
    (h : sent.Delivered source checks config.chainSpec) (rf : RollingFinality) :
    executorFor source.toEnvSource config sent.sealedBlock.block
        (contextForBlock config sent.sealedBlock.block rf).1 =
      { executorForPayload source config sent.payload with
        ctx :=
          { contextForPayload config sent.payload.toExecutionData with
            blockRewardsOverride :=
              rewardsOverrideAt config.chainSpec sent.payload.blockNumber } } := by
  rw [executorFor, ← h.evmEnv_eq hlaws hlaw hsource, h.context_eq hlaws hlaw hsource]
  rfl

theorem Sent.Delivered.contextState_eq
    (h : sent.Delivered source checks config.chainSpec) (s : ExecState δ) :
    contextState config sent.sealedBlock.block s = s := by
  obtain ⟨block, hof, hblock⟩ := h.blockOf hlaws
  have hactive : config.chainSpec.isParisActiveAtBlock sent.sealedBlock.block.header.number =
      true := by
    rw [hblock]
    change config.chainSpec.isParisActiveAtBlock (source.intoGnosis block.header).number = true
    rw [hlaws.builder.number, hof.number]
    exact h.paris hlaws hlaw hsource
  rw [contextState, (contextForBlock_beacon hactive s.rollingFinality).2]

/-- Execution of the payload and import of its block are one and the same step. -/
theorem Sent.Delivered.executePayload_eq
    (h : sent.Delivered source checks config.chainSpec) (hreward : sent.SameReward config)
    (s : ExecState δ) :
    executePayload source config ext sent.payload s =
      importBlock source.toEnvSource config ext sent.sealedBlock.block s := by
  have hrun : executePayload source config ext sent.payload =
      executeBlock ext (executorForPayload source config sent.payload)
        sent.sealedBlock.block.transactions := by
    unfold executePayload executeBlock
    rw [forM_converted ext _ (h.converted hlaws)]
  rw [hrun, importBlock_run, blockExecutor, h.executor_eq hlaws hlaw hsource,
    h.contextState_eq hlaws hlaw hsource]
  exact congrFun (executeBlock_override (executorForPayload source config sent.payload) hreward
    sent.sealedBlock.block.transactions).symm s

theorem executePayloads_eq {run : List Sent}
    (hrun : ∀ sent ∈ run, sent.Delivered source checks config.chainSpec)
    (hreward : ∀ sent ∈ run, sent.SameReward config) (s : ExecState δ) :
    executePayloads source config ext (run.map Sent.payload) s =
      importChain source.toEnvSource config ext (run.map (fun sent => sent.sealedBlock.block))
        s := by
  induction run generalizing s with
  | nil => rfl
  | cons sent rest ih =>
    have hfirst : executePayload source config ext sent.payload (nextBlockState s) =
        importBlock source.toEnvSource config ext sent.sealedBlock.block (nextBlockState s) :=
      (hrun sent List.mem_cons_self).executePayload_eq hlaws hlaw hsource
        (hreward sent List.mem_cons_self) (nextBlockState s)
    rw [List.map_cons, executePayloads, List.map_cons, importChain, hfirst]
    cases importBlock source.toEnvSource config ext sent.sealedBlock.block (nextBlockState s) with
    | error fault t => rfl
    | ok result t =>
      dsimp only
      rw [ih (fun sent hmem => hrun sent (List.mem_cons_of_mem _ hmem))
        (fun sent hmem => hreward sent (List.mem_cons_of_mem _ hmem))]

theorem Sent.Delivered.rewardAddress_iff
    (h : sent.Delivered source checks config.chainSpec) (rf : RollingFinality) :
    rewardAddress config (contextForPayload config sent.payload.toExecutionData) =
        rewardAddress config (contextForBlock config sent.sealedBlock.block rf).1 ↔
      sent.SameReward config := by
  rw [h.context_eq hlaws hlaw hsource]
  unfold rewardAddress Sent.SameReward contextForPayload
  dsimp only
  cases rewardsOverrideAt config.chainSpec sent.payload.blockNumber with
  | none => simp
  | some contract => simp [eq_comm]

end Delivered

/-- Every payload whose block consensus accepts gets the environment of that block, and the reward
contract of the block unless an override names another one than the default. A run of payloads
without such an override has the outcomes that importing their blocks has. -/
theorem engine_payloads_execute {source : EngineSource} {checks : HeaderChecks}
    {config : GnosisEvmConfig} {run : List Sent} (hlaws : EngineLaws source)
    (hlaw : PreMergeLaw checks.isPreMerge) (hsource : PreMergeLaw source.isPreMerge)
    (hrun : ∀ sent ∈ run, sent.Delivered source checks config.chainSpec) :
    (∀ sent ∈ run, evmEnvForPayload source config.chainSpec sent.payload =
        evmEnv source.toEnvSource config.chainSpec sent.sealedBlock.block.header) ∧
      (∀ sent ∈ run, ∀ rf : RollingFinality,
        rewardAddress config (contextForPayload config sent.payload.toExecutionData) =
            rewardAddress config (contextForBlock config sent.sealedBlock.block rf).1 ↔
          sent.SameReward config) ∧
      ((∀ sent ∈ run, sent.SameReward config) →
        ∀ {δ ε : Type} (ext : Externals δ ε) (s : ExecState δ),
          executePayloads source config ext (run.map Sent.payload) s =
            importChain source.toEnvSource config ext
              (run.map (fun sent => sent.sealedBlock.block)) s) := by
  refine ⟨?_, ?_, ?_⟩
  · intro sent hmem
    exact (hrun sent hmem).evmEnv_eq hlaws hlaw hsource
  · intro sent hmem rf
    exact (hrun sent hmem).rewardAddress_iff hlaws hlaw hsource rf
  · intro hreward δ ε ext s
    exact executePayloads_eq hlaws hlaw hsource hrun hreward s

def callPayload (number : ℕ) : EnginePayload where
  parentHash := BitVec.ofNat 256 (number - 1)
  parentBeaconBlockRoot := none
  withdrawals := none
  feeRecipient := 3#160
  stateRoot := 2#256
  receiptsRoot := EMPTY_ROOT_HASH
  logsBloom := 0
  prevRandao := 9#256
  blockNumber := number
  gasLimit := 30000000
  gasUsed := 0
  timestamp := 5 * number
  extraData := []
  baseFeePerGas := 7
  blockHash := BitVec.ofNat 256 number
  transactions := [[0]]
  blobGasUsed := none
  excessBlobGas := none
  slotNumber := none
  versionedHashes := none
  requestsHash := none

def decodeReference (bytes : Bytes) : Except String TransactionSigned :=
  if bytes = [0] then .ok plainCall
  else if bytes = [1] then .ok deployment
  else .error "unexpected transaction type"

def payloadHeader (payload : EnginePayload) : Header where
  parentHash := payload.parentHash
  ommersHash := EMPTY_OMMER_ROOT_HASH
  beneficiary := payload.feeRecipient
  stateRoot := payload.stateRoot
  transactionsRoot := if payload.transactions = [] then EMPTY_ROOT_HASH else 5#256
  receiptsRoot := payload.receiptsRoot
  withdrawalsRoot := payload.withdrawals.map (fun _ => EMPTY_ROOT_HASH)
  logsBloom := payload.logsBloom
  timestamp := payload.timestamp
  mixHash := payload.prevRandao
  nonce := BEACON_NONCE
  baseFeePerGas := some payload.baseFeePerGas
  number := payload.blockNumber
  gasLimit := payload.gasLimit
  difficulty := 0
  gasUsed := payload.gasUsed
  extraData := payload.extraData
  parentBeaconBlockRoot := payload.parentBeaconBlockRoot
  blobGasUsed := payload.blobGasUsed
  excessBlobGas := payload.excessBlobGas
  requestsHash := payload.requestsHash
  blockAccessListHash := none
  slotNumber := payload.slotNumber

/-- Byte 0 is a call and byte 1 a deployment, both of account 21. Roots and hashes are not
computed. -/
def referenceEngine : EngineSource where
  toBuilderSource := referenceBuilder
  innerEnsureWellFormedPayload := fun payload =>
    match payload.transactions.mapM decodeReference with
    | .error text => .error (.eth text)
    | .ok transactions =>
      if u64Max < payload.baseFeePerGas then .error (.eth "invalid base fee")
      else .ok (payload.blockHash, ⟨payloadHeader payload, transactions, payload.withdrawals⟩)
  decode2718Exact := decodeReference
  tryRecoverSigner := fun _ => .ok 21#160
  tryRecover := fun _ => .ok ()

theorem referenceEngine_laws : EngineLaws referenceEngine where
  builder := referenceBuilder_laws
  wellFormed payload hash block h := by
    cases hdecode : payload.transactions.mapM decodeReference with
    | error text =>
      simp only [referenceEngine, hdecode] at h
      cases h
    | ok transactions =>
      by_cases hfee : u64Max < payload.baseFeePerGas
      · simp only [referenceEngine, hdecode, if_pos hfee] at h
        cases h
      · simp only [referenceEngine, hdecode, if_neg hfee] at h
        cases h
        exact ⟨rfl, rfl, rfl, rfl, rfl, rfl, rfl, rfl, rfl, Nat.le_of_not_lt hfee, rfl, rfl,
          forall₂_of_mapM_ok hdecode⟩
  recovered _ _ _ _ := ⟨21#160, rfl⟩

def sentCall (number : ℕ) : Sent where
  payload := callPayload number
  sealedBlock :=
    ⟨intoGnosisBlock referenceEngine ⟨payloadHeader (callPayload number), [plainCall], none⟩,
      BitVec.ofNat 256 number⟩

def engineConfig : GnosisEvmConfig :=
  { rewardConfig 10 with
    chainSpec := { (rewardConfig 10).chainSpec with depositContract := some 11#160 } }

theorem sentCall_delivered (number : ℕ) :
    (sentCall number).Delivered referenceEngine referenceChecks engineConfig.chainSpec :=
  ⟨rfl, except_bind_ok.mpr ⟨false, isAuraBlock_ok.mpr ⟨rfl, rfl⟩, rfl⟩⟩

theorem sentCall_sameReward {number : ℕ}
    (h : rewardsOverrideAt engineConfig.chainSpec number = none) :
    (sentCall number).SameReward engineConfig := by
  intro contract hcontract
  have hnone : rewardsOverrideAt engineConfig.chainSpec (sentCall number).payload.blockNumber =
      none := h
  rw [hnone] at hcontract
  cases hcontract

/-- Blocks 8 and 9 come before the override; the payload of block 10 misses it. -/
theorem engine_payloads_execute_override :
    executePayloads referenceEngine engineConfig worldExternals
          ([sentCall 8, sentCall 9].map Sent.payload)
          hookedState =
        importChain referenceEngine.toEnvSource engineConfig worldExternals
          ([sentCall 8, sentCall 9].map (fun sent => sent.sealedBlock.block)) hookedState ∧
      evmEnvForPayload referenceEngine engineConfig.chainSpec (sentCall 10).payload =
        evmEnv referenceEngine.toEnvSource engineConfig.chainSpec
          (sentCall 10).sealedBlock.block.header ∧
      rewardAddress engineConfig (contextForPayload engineConfig
          (sentCall 10).payload.toExecutionData) ≠
        rewardAddress engineConfig
          (contextForBlock engineConfig (sentCall 10).sealedBlock.block (.new [])).1 := by
  have hearly : ∀ sent ∈ [sentCall 8, sentCall 9],
      sent.Delivered referenceEngine referenceChecks engineConfig.chainSpec ∧
        sent.SameReward engineConfig := by
    simp only [List.forall_mem_cons, List.not_mem_nil, false_implies, implies_true, and_true]
    exact ⟨⟨sentCall_delivered 8, sentCall_sameReward (by decide +kernel)⟩,
      sentCall_delivered 9, sentCall_sameReward (by decide +kernel)⟩
  have hlate : ∀ sent ∈ [sentCall 10],
      sent.Delivered referenceEngine referenceChecks engineConfig.chainSpec := by
    simp only [List.forall_mem_cons, List.not_mem_nil, false_implies, implies_true, and_true]
    exact sentCall_delivered 10
  have hruns := engine_payloads_execute referenceEngine_laws referenceChecks_preMerge
    (fun _ => rfl) (fun sent hmem => (hearly sent hmem).1)
  have hoverridden := engine_payloads_execute referenceEngine_laws referenceChecks_preMerge
    (fun _ => rfl) hlate
  refine ⟨hruns.2.2 (fun sent hmem => (hearly sent hmem).2) worldExternals hookedState,
    hoverridden.1 _ List.mem_cons_self, ?_⟩
  intro hsame
  have hreward := (hoverridden.2.1 _ List.mem_cons_self (.new [])).mp hsame
  have hcontract := hreward 7#160 (by decide +kernel)
  revert hcontract
  decide

end RethGnosis
