import RethGnosis.Block.Executor
import RethGnosis.Evm.ForkAgreement

set_option autoImplicit false

/-!
# Building a block

`next_evm_env`, the environment a block is built in, and `assemble_block`, which makes a
header of it. Validation computes the environment again from that header. The two agree but
for the excess blob gas: the builder falls back on 0 where the fork is Cancun itself, the
assembler where Cancun is active for the first time.
-/
namespace RethGnosis

def CANCUN_BLOB_PARAMS : BlobParams where
  targetBlobCount := 1
  maxBlobCount := 2
  updateFraction := 1112826
  minBlobFee := 1000000000
  maxBlobsPerTx := 2
  blobBaseCost := 0

def EMPTY_ROOT_HASH : B256 :=
  0x56e81f171bcc55a6ff8345e692c0f86e5b48e01b996cadc001622fb5e363b421#256

def BEACON_NONCE : BitVec 64 := 0

structure Header where
  parentHash : B256
  ommersHash : B256
  beneficiary : Address
  stateRoot : B256
  transactionsRoot : B256
  receiptsRoot : B256
  withdrawalsRoot : Option B256
  logsBloom : BitVec 2048
  timestamp : ℕ
  mixHash : B256
  nonce : BitVec 64
  baseFeePerGas : Option ℕ
  number : ℕ
  gasLimit : ℕ
  difficulty : U256
  gasUsed : ℕ
  extraData : Bytes
  parentBeaconBlockRoot : Option B256
  blobGasUsed : Option ℕ
  excessBlobGas : Option ℕ
  requestsHash : Option B256
  blockAccessListHash : Option B256
  slotNumber : Option ℕ

structure BuilderSource extends EnvSource where
  revmSpecByTimestampAndBlockNumber : GnosisChainSpec → ℕ → ℕ → SpecId
  nextBlockBaseFee : GnosisChainSpec → GnosisHeader → ℕ → Option ℕ
  nextBlockExcessBlobGas : GnosisHeader → BlobParams → Option ℕ
  nextBlockExcessBlobGasOsaka : BlobParams → ℕ → ℕ → ℕ → ℕ
  cancun : BlobParams
  calculateTransactionRoot : List TransactionSigned → B256
  calculateReceiptRoot : List Receipt → B256
  calculateWithdrawalsRoot : List Withdrawal → B256
  logsBloom : List Log → BitVec 2048
  requestsHash : Requests → B256
  intoGnosis : Header → GnosisHeader

structure BlockAssemblerInput where
  evmEnv : CfgEnv × BlockEnv
  executionCtx : GnosisBlockExecutionCtx
  parent : GnosisHeader
  transactions : List TransactionSigned
  output : BlockExecutionResult
  stateRoot : B256

structure GnosisBlockAssembler where
  chainSpec : GnosisChainSpec
  extraData : Bytes

section Environment
variable (source : BuilderSource) (chainSpec : GnosisChainSpec)

def maybeNextBlockExcessBlobGas (parent : GnosisHeader) (blobParams : Option BlobParams) :
    Option ℕ :=
  blobParams.bind (source.nextBlockExcessBlobGas parent)

def postMergeCfgEnv (spec : SpecId) (timestamp : ℕ) : CfgEnv :=
  let cfg := getCfgEnv source.mainnetGasParams chainSpec spec timestamp false
  let cfg :=
    match source.blobParamsAtTimestamp chainSpec timestamp with
    | some params => { cfg with maxBlobsPerTx := some params.maxBlobsPerTx }
    | none => cfg
  if chainSpec.isOsakaActiveAtTimestamp timestamp then
    { cfg with txGasLimitCap := some MAX_TX_GAS_LIMIT_OSAKA }
  else
    cfg

variable (parent : GnosisHeader) (attributes : NextBlockEnvAttributes)

/-- The sum wraps at 2^64. -/
def nextBlockNumber : ℕ := (parent.number + 1) % 2 ^ 64

def nextSpecId : SpecId :=
  source.revmSpecByTimestampAndBlockNumber chainSpec attributes.timestamp (nextBlockNumber parent)

def nextBlobGas : Option BlobExcessGasAndPrice :=
  let blobParams := source.blobParamsAtTimestamp chainSpec attributes.timestamp
  let excessBlobGas :=
    (maybeNextBlockExcessBlobGas source parent blobParams).or
      (if nextSpecId source chainSpec parent attributes = .CANCUN then some 0 else none)
  excessBlobGas.map (fun excessBlobGas =>
    ⟨excessBlobGas, source.calcBlobFee (blobParams.getD CANCUN_BLOB_PARAMS) excessBlobGas⟩)

def nextBlockEnv : BlockEnv where
  number := nextBlockNumber parent
  beneficiary := attributes.suggestedFeeRecipient
  timestamp := attributes.timestamp
  difficulty := 0
  prevrandao := some attributes.prevRandao
  gasLimit := attributes.gasLimit
  basefee := (source.nextBlockBaseFee chainSpec parent attributes.timestamp).getD 0
  blobExcessGasAndPrice := nextBlobGas source chainSpec parent attributes
  slotNum := attributes.slotNumber.getD 0

def nextEvmEnv : CfgEnv × BlockEnv :=
  (postMergeCfgEnv source chainSpec (nextSpecId source chainSpec parent attributes)
      attributes.timestamp,
    nextBlockEnv source chainSpec parent attributes)

end Environment

section Assemble
variable (source : BuilderSource) (assembler : GnosisBlockAssembler) (input : BlockAssemblerInput)

def assembledTimestamp : ℕ := min input.evmEnv.2.timestamp u64Max

def assembledWithdrawals : Option (List Withdrawal) :=
  if assembler.chainSpec.isShanghaiActiveAtTimestamp (assembledTimestamp input) then
    some (input.executionCtx.withdrawals.getD [])
  else none

/-- In the first Cancun block both fields of the parent count as 0. -/
def assembledExcessBlobGas : Option ℕ :=
  let timestamp := assembledTimestamp input
  if assembler.chainSpec.isCancunActiveAtTimestamp timestamp then
    if assembler.chainSpec.isCancunActiveAtTimestamp input.parent.timestamp then
      maybeNextBlockExcessBlobGas source input.parent
        (source.blobParamsAtTimestamp assembler.chainSpec timestamp)
    else some (source.nextBlockExcessBlobGasOsaka source.cancun 0 0 0)
  else none

def assembledHeader : Header where
  parentHash := input.executionCtx.parentHash
  ommersHash := EMPTY_OMMER_ROOT_HASH
  beneficiary := input.evmEnv.2.beneficiary
  stateRoot := input.stateRoot
  transactionsRoot := source.calculateTransactionRoot input.transactions
  receiptsRoot := source.calculateReceiptRoot input.output.receipts
  withdrawalsRoot := (assembledWithdrawals assembler input).map source.calculateWithdrawalsRoot
  logsBloom := source.logsBloom (input.output.receipts.flatMap Receipt.logs)
  timestamp := assembledTimestamp input
  mixHash := input.evmEnv.2.prevrandao.getD 0
  nonce := BEACON_NONCE
  baseFeePerGas := some input.evmEnv.2.basefee
  number := min input.evmEnv.2.number u64Max
  gasLimit := input.evmEnv.2.gasLimit
  difficulty := input.evmEnv.2.difficulty
  gasUsed := input.output.gasUsed
  extraData := assembler.extraData
  parentBeaconBlockRoot := input.executionCtx.parentBeaconBlockRoot
  blobGasUsed :=
    if assembler.chainSpec.isCancunActiveAtTimestamp (assembledTimestamp input) then
      some input.output.blobGasUsed
    else none
  excessBlobGas := assembledExcessBlobGas source assembler input
  requestsHash :=
    if assembler.chainSpec.isPragueActiveAtTimestamp (assembledTimestamp input) then
      some (source.requestsHash input.output.requests)
    else none
  blockAccessListHash := none
  slotNumber := none

def assembleBlock : GnosisBlock :=
  ⟨source.intoGnosis (assembledHeader source assembler input), input.transactions,
    assembledWithdrawals assembler input⟩

end Assemble

/-- What the libraries' documentation says of these functions: an Ethereum header keeps its fields
and is not pre-merge, and no blob gas is in excess before the first blob. -/
structure BuilderLaws (source : BuilderSource) : Prop where
  revmSpec : ∀ (chainSpec : GnosisChainSpec) (header : GnosisHeader),
    source.revmSpec chainSpec header =
      source.revmSpecByTimestampAndBlockNumber chainSpec header.timestamp header.number
  merge : ∀ (chainSpec : GnosisChainSpec) (timestamp number : ℕ),
    chainSpec.isParisActiveAtBlock number = true →
      (source.revmSpecByTimestampAndBlockNumber chainSpec timestamp number).isEnabledIn .MERGE =
        true
  firstExcess : source.nextBlockExcessBlobGasOsaka source.cancun 0 0 0 = 0
  notPreMerge : ∀ header : Header, source.isPreMerge (source.intoGnosis header) = false
  parentHash : ∀ header : Header, (source.intoGnosis header).parentHash = header.parentHash
  beneficiary : ∀ header : Header, (source.intoGnosis header).beneficiary = header.beneficiary
  timestamp : ∀ header : Header, (source.intoGnosis header).timestamp = header.timestamp
  mixHash : ∀ header : Header, (source.intoGnosis header).mixHash = some header.mixHash
  baseFeePerGas : ∀ header : Header,
    (source.intoGnosis header).baseFeePerGas = header.baseFeePerGas
  number : ∀ header : Header, (source.intoGnosis header).number = header.number
  gasLimit : ∀ header : Header, (source.intoGnosis header).gasLimit = header.gasLimit
  parentBeaconBlockRoot : ∀ header : Header,
    (source.intoGnosis header).parentBeaconBlockRoot = header.parentBeaconBlockRoot
  excessBlobGas : ∀ header : Header,
    (source.intoGnosis header).excessBlobGas = header.excessBlobGas
  slotNumber : ∀ header : Header, (source.intoGnosis header).slotNumber = header.slotNumber

def ExcessAgrees (source : BuilderSource) (chainSpec : GnosisChainSpec) (parent : GnosisHeader)
    (attributes : NextBlockEnvAttributes) : Prop :=
  let isCancun := nextSpecId source chainSpec parent attributes = .CANCUN
  match source.blobParamsAtTimestamp chainSpec attributes.timestamp with
  | none => ¬ isCancun
  | some params =>
    let excess := source.nextBlockExcessBlobGas parent params
    if chainSpec.isCancunActiveAtTimestamp attributes.timestamp = true then
      if chainSpec.isCancunActiveAtTimestamp parent.timestamp = true then
        excess = none → ¬ isCancun
      else excess = some 0 ∨ excess = none ∧ isCancun
    else excess = none ∧ ¬ isCancun

section Header
variable {source : BuilderSource} {chainSpec : GnosisChainSpec} {header : GnosisHeader}

theorem headerCfgEnv_postMerge (hpre : source.isPreMerge header = false) :
    headerCfgEnv source.toEnvSource chainSpec header =
      postMergeCfgEnv source chainSpec (gnosisRevmSpec source.toEnvSource chainSpec header)
        header.timestamp := by
  unfold headerCfgEnv
  generalize source.isPreMerge header = isPreMerge at hpre
  subst hpre
  rfl

theorem blobGas_injective (params : BlobParams) :
    Function.Injective (fun excessBlobGas =>
      (⟨excessBlobGas, source.calcBlobFee params excessBlobGas⟩ : BlobExcessGasAndPrice)) := by
  intro a b h
  exact congrArg BlobExcessGasAndPrice.excessBlobGas h

theorem headerBlobGas_map {params : BlobParams}
    (hparams : source.blobParamsAtTimestamp chainSpec header.timestamp = some params) :
    headerBlobGas source.toEnvSource chainSpec header =
      header.excessBlobGas.map (fun excessBlobGas =>
        ⟨excessBlobGas, source.calcBlobFee params excessBlobGas⟩) := by
  rw [headerBlobGas, hparams]
  cases header.excessBlobGas <;> rfl

end Header

section Build
variable {source : BuilderSource} {assembler : GnosisBlockAssembler} {input : BlockAssemblerInput}
  {attributes : NextBlockEnvAttributes}

theorem nextBlockNumber_le (parent : GnosisHeader) : nextBlockNumber parent ≤ u64Max := by
  unfold nextBlockNumber u64Max
  omega

theorem assembledTimestamp_eq
    (henv : input.evmEnv = nextEvmEnv source assembler.chainSpec input.parent attributes)
    (htimestamp : attributes.timestamp ≤ u64Max) :
    assembledTimestamp input = attributes.timestamp := by
  rw [assembledTimestamp, henv]
  exact Nat.min_eq_left htimestamp

theorem assembled_timestamp (hlaws : BuilderLaws source)
    (henv : input.evmEnv = nextEvmEnv source assembler.chainSpec input.parent attributes)
    (htimestamp : attributes.timestamp ≤ u64Max) :
    (assembleBlock source assembler input).header.timestamp = attributes.timestamp := by
  rw [assembleBlock, hlaws.timestamp]
  exact assembledTimestamp_eq henv htimestamp

theorem assembled_number (hlaws : BuilderLaws source)
    (henv : input.evmEnv = nextEvmEnv source assembler.chainSpec input.parent attributes) :
    (assembleBlock source assembler input).header.number = nextBlockNumber input.parent := by
  rw [assembleBlock, hlaws.number]
  change min input.evmEnv.2.number u64Max = _
  rw [henv]
  exact Nat.min_eq_left (nextBlockNumber_le input.parent)

theorem assembled_revmSpec (hlaws : BuilderLaws source)
    (henv : input.evmEnv = nextEvmEnv source assembler.chainSpec input.parent attributes)
    (htimestamp : attributes.timestamp ≤ u64Max) :
    gnosisRevmSpec source.toEnvSource assembler.chainSpec
        (assembleBlock source assembler input).header =
      nextSpecId source assembler.chainSpec input.parent attributes := by
  have hpre : source.isPreMerge (assembleBlock source assembler input).header = false :=
    hlaws.notPreMerge _
  rw [gnosisRevmSpec, hpre]
  change source.revmSpec _ _ = _
  rw [hlaws.revmSpec, assembled_timestamp hlaws henv htimestamp, assembled_number hlaws henv,
    nextSpecId]

theorem assembled_cfgEnv (hlaws : BuilderLaws source)
    (henv : input.evmEnv = nextEvmEnv source assembler.chainSpec input.parent attributes)
    (htimestamp : attributes.timestamp ≤ u64Max) :
    headerCfgEnv source.toEnvSource assembler.chainSpec
        (assembleBlock source assembler input).header =
      (nextEvmEnv source assembler.chainSpec input.parent attributes).1 := by
  have hpre : source.isPreMerge (assembleBlock source assembler input).header = false :=
    hlaws.notPreMerge _
  rw [headerCfgEnv_postMerge hpre, assembled_revmSpec hlaws henv htimestamp,
    assembled_timestamp hlaws henv htimestamp]
  rfl

theorem assembled_blockEnv (hlaws : BuilderLaws source)
    (henv : input.evmEnv = nextEvmEnv source assembler.chainSpec input.parent attributes)
    (htimestamp : attributes.timestamp ≤ u64Max) (hslot : attributes.slotNumber = none)
    (hparis : assembler.chainSpec.isParisActiveAtBlock (nextBlockNumber input.parent) = true) :
    headerBlockEnv source.toEnvSource assembler.chainSpec
        (assembleBlock source assembler input).header =
      { nextBlockEnv source assembler.chainSpec input.parent attributes with
        blobExcessGasAndPrice := headerBlobGas source.toEnvSource assembler.chainSpec
          (assembleBlock source assembler input).header } := by
  have hmerge := hlaws.merge assembler.chainSpec attributes.timestamp _ hparis
  have hfields : (assembleBlock source assembler input).header =
    source.intoGnosis (assembledHeader source assembler input) := rfl
  unfold headerBlockEnv nextBlockEnv
  rw [assembled_revmSpec hlaws henv htimestamp, nextSpecId, hmerge,
    assembled_timestamp hlaws henv htimestamp, assembled_number hlaws henv, hslot, hfields,
    hlaws.beneficiary, hlaws.mixHash, hlaws.gasLimit, hlaws.baseFeePerGas, hlaws.slotNumber]
  unfold assembledHeader
  rw [henv]
  rfl

theorem assembled_blobGas_iff (hlaws : BuilderLaws source)
    (henv : input.evmEnv = nextEvmEnv source assembler.chainSpec input.parent attributes)
    (htimestamp : attributes.timestamp ≤ u64Max) :
    headerBlobGas source.toEnvSource assembler.chainSpec
          (assembleBlock source assembler input).header =
        nextBlobGas source assembler.chainSpec input.parent attributes ↔
      ExcessAgrees source assembler.chainSpec input.parent attributes := by
  have htime := assembled_timestamp hlaws henv htimestamp
  unfold nextBlobGas ExcessAgrees
  cases hparams : source.blobParamsAtTimestamp assembler.chainSpec attributes.timestamp with
  | none =>
    rw [headerBlobGas, htime, hparams]
    simp [maybeNextBlockExcessBlobGas]
  | some params =>
    rw [← htime] at hparams
    rw [headerBlobGas_map hparams]
    refine (Option.map_injective (blobGas_injective params)).eq_iff.trans ?_
    rw [htime] at hparams
    have hexcess : (assembleBlock source assembler input).header.excessBlobGas =
        assembledExcessBlobGas source assembler input := hlaws.excessBlobGas _
    rw [hexcess]
    unfold assembledExcessBlobGas maybeNextBlockExcessBlobGas
    dsimp only
    rw [assembledTimestamp_eq henv htimestamp, hlaws.firstExcess, hparams]
    dsimp only [Option.bind_some]
    cases source.nextBlockExcessBlobGas input.parent params with
    | none => split_ifs <;> simp [*]
    | some excess => split_ifs <;> simp [*, eq_comm]

/-- The validator computes the builder's environment exactly when the builder's excess blob gas is
the one the assembler writes. -/
theorem evmEnv_assembled_iff (hlaws : BuilderLaws source)
    (henv : input.evmEnv = nextEvmEnv source assembler.chainSpec input.parent attributes)
    (htimestamp : attributes.timestamp ≤ u64Max) (hslot : attributes.slotNumber = none)
    (hparis : assembler.chainSpec.isParisActiveAtBlock (nextBlockNumber input.parent) = true) :
    evmEnv source.toEnvSource assembler.chainSpec (assembleBlock source assembler input).header =
        nextEvmEnv source assembler.chainSpec input.parent attributes ↔
      ExcessAgrees source assembler.chainSpec input.parent attributes := by
  rw [← assembled_blobGas_iff hlaws henv htimestamp, evmEnv,
    assembled_cfgEnv hlaws henv htimestamp, assembled_blockEnv hlaws henv htimestamp hslot hparis]
  constructor
  · intro h
    exact congrArg (fun env => env.2.blobExcessGasAndPrice) h
  · intro h
    rw [h]
    rfl

/-- Where the chain has blob parameters and the parent its blob fields exactly from Cancun on, the
environments differ only in the first Cancun block, and there if a later fork starts with it. -/
theorem excessAgrees_iff_firstCancun {chainSpec : GnosisChainSpec} {parent : GnosisHeader}
    (hparams : (source.blobParamsAtTimestamp chainSpec attributes.timestamp).isSome =
      chainSpec.isCancunActiveAtTimestamp attributes.timestamp)
    (hparent : ∀ params, (source.nextBlockExcessBlobGas parent params).isSome =
      chainSpec.isCancunActiveAtTimestamp parent.timestamp)
    (hspec : nextSpecId source chainSpec parent attributes = .CANCUN →
      chainSpec.isCancunActiveAtTimestamp attributes.timestamp = true) :
    ExcessAgrees source chainSpec parent attributes ↔
      (chainSpec.isCancunActiveAtTimestamp attributes.timestamp = true →
        chainSpec.isCancunActiveAtTimestamp parent.timestamp = false →
          nextSpecId source chainSpec parent attributes = .CANCUN) := by
  unfold ExcessAgrees
  cases hblob : source.blobParamsAtTimestamp chainSpec attributes.timestamp with
  | none =>
    rw [hblob] at hparams
    have hinactive : chainSpec.isCancunActiveAtTimestamp attributes.timestamp = false :=
      hparams.symm
    simp only [hinactive, Bool.false_eq_true, imp_false, false_implies, iff_true] at hspec ⊢
    exact hspec
  | some params =>
    rw [hblob] at hparams
    have hactive : chainSpec.isCancunActiveAtTimestamp attributes.timestamp = true :=
      hparams.symm
    have hfields := hparent params
    cases hbefore : chainSpec.isCancunActiveAtTimestamp parent.timestamp with
    | true =>
      rw [hbefore, Option.isSome_iff_ne_none] at hfields
      simp [hactive, hfields]
    | false =>
      rw [hbefore, Option.isSome_eq_false_iff, Option.isNone_iff_eq_none] at hfields
      simp [hactive, hfields]

theorem assembleBlock_builtFrom {config : GnosisEvmConfig} {parentHash : B256}
    (hlaws : BuilderLaws source) (hchainSpec : assembler.chainSpec = config.chainSpec)
    (henv : input.evmEnv = nextEvmEnv source assembler.chainSpec input.parent attributes)
    (hctx : input.executionCtx = contextForNextBlock config parentHash input.parent attributes)
    (htimestamp : attributes.timestamp ≤ u64Max) (hnumber : input.parent.number < u64Max)
    (hwithdrawals : attributes.withdrawals.isSome =
      config.chainSpec.isShanghaiActiveAtTimestamp attributes.timestamp) :
    BuiltFrom config (contextForNextBlock config parentHash input.parent attributes) input.parent
      attributes (assembleBlock source assembler input) := by
  constructor
  · rw [assembled_number hlaws henv, nextBlockNumber]
    unfold u64Max at hnumber
    omega
  · exact assembled_timestamp hlaws henv htimestamp
  · rw [assembleBlock, hlaws.parentHash, ← hctx]
    rfl
  · rw [assembleBlock, hlaws.parentBeaconBlockRoot, ← hctx]
    rfl
  · rw [assembled_timestamp hlaws henv htimestamp, ← hctx, ← hchainSpec]
    change assembledWithdrawals assembler input = _
    rw [assembledWithdrawals, assembledTimestamp_eq henv htimestamp]
  · exact hwithdrawals

end Build

section Reference

/-- The root of an empty trie and the hash of no requests; the fee at no excess. -/
def referenceBuilder : BuilderSource where
  toEnvSource :=
    { forkSource with
      blobParamsAtTimestamp := fun chainSpec timestamp =>
        if chainSpec.isCancunActiveAtTimestamp timestamp then some CANCUN_BLOB_PARAMS else none
      calcBlobFee := fun params _ => params.minBlobFee }
  revmSpecByTimestampAndBlockNumber := fun chainSpec timestamp _ => latestSpec chainSpec timestamp
  nextBlockBaseFee := fun _ parent _ => parent.baseFeePerGas
  nextBlockExcessBlobGas := fun parent params => do
    let excess ← parent.excessBlobGas
    let used ← parent.blobGasUsed
    pure (excess + used - params.targetBlobCount * 2 ^ 17)
  nextBlockExcessBlobGasOsaka := fun params excess used _ =>
    excess + used - params.targetBlobCount * 2 ^ 17
  cancun := ⟨3, 6, 3338477, 1, 6, 0⟩
  calculateTransactionRoot := fun _ => EMPTY_ROOT_HASH
  calculateReceiptRoot := fun _ => EMPTY_ROOT_HASH
  calculateWithdrawalsRoot := fun _ => EMPTY_ROOT_HASH
  logsBloom := fun _ => 0
  requestsHash := fun _ =>
    0xe3b0c44298fc1c149afbf4c8996fb92427ae41e4649b934ca495991b7852b855#256
  intoGnosis := fun header =>
    { parentHash := header.parentHash
      ommersHash := header.ommersHash
      beneficiary := header.beneficiary
      stateRoot := header.stateRoot
      transactionsRoot := header.transactionsRoot
      receiptsRoot := header.receiptsRoot
      logsBloom := header.logsBloom
      difficulty := header.difficulty
      number := header.number
      gasLimit := header.gasLimit
      gasUsed := header.gasUsed
      timestamp := header.timestamp
      extraData := header.extraData
      mixHash := some header.mixHash
      nonce := some header.nonce
      auraStep := none
      auraSeal := none
      baseFeePerGas := header.baseFeePerGas
      withdrawalsRoot := header.withdrawalsRoot
      blobGasUsed := header.blobGasUsed
      excessBlobGas := header.excessBlobGas
      parentBeaconBlockRoot := header.parentBeaconBlockRoot
      requestsHash := header.requestsHash
      blockAccessListHash := header.blockAccessListHash
      slotNumber := header.slotNumber }

theorem referenceBuilder_laws : BuilderLaws referenceBuilder where
  revmSpec _ _ := rfl
  merge _ _ _ _ := latestSpec_merge
  firstExcess := rfl
  notPreMerge _ := rfl
  parentHash _ := rfl
  beneficiary _ := rfl
  timestamp _ := rfl
  mixHash _ := rfl
  baseFeePerGas _ := rfl
  number _ := rfl
  gasLimit _ := rfl
  parentBeaconBlockRoot _ := rfl
  excessBlobGas _ := rfl
  slotNumber _ := rfl

def cancunAssembler (pragueTime : ℕ) : GnosisBlockAssembler where
  chainSpec :=
    { chainId := 100
      genesis := ⟨∅⟩
      hardforks := [(.ethereum .Paris, .ttd 0 0 none), (.ethereum .Shanghai, .timestamp 0),
        (.ethereum .Cancun, .timestamp 1000), (.ethereum .Prague, .timestamp pragueTime)]
      depositContract := none
      balancerHardforkConfig := none
      auraConfig := none }
  extraData := []

def lastShanghai : GnosisHeader :=
  { (default : GnosisHeader) with
    number := 10
    timestamp := 995
    gasLimit := 30000000
    gasUsed := 15000000
    mixHash := some 0#256
    nonce := some 0
    baseFeePerGas := some 7 }

def firstCancun : NextBlockEnvAttributes where
  timestamp := 1000
  suggestedFeeRecipient := 4#160
  prevRandao := 6#256
  gasLimit := 30000000
  parentBeaconBlockRoot := some 0#256
  withdrawals := some []
  slotNumber := none

def firstCancunInput (pragueTime : ℕ) : BlockAssemblerInput where
  evmEnv := nextEvmEnv referenceBuilder (cancunAssembler pragueTime).chainSpec lastShanghai
    firstCancun
  executionCtx := ⟨1#256, some 0#256, some [], 995, none, none⟩
  parent := lastShanghai
  transactions := []
  output := ⟨[], [], 0, 0⟩
  stateRoot := 2#256

/-- With Prague at the same time the block is built without blob gas and validated with it. -/
theorem firstCancun_withPrague :
    let builtIn := nextEvmEnv referenceBuilder (cancunAssembler 1000).chainSpec lastShanghai
      firstCancun
    let validatedIn := evmEnv referenceBuilder.toEnvSource (cancunAssembler 1000).chainSpec
      (assembleBlock referenceBuilder (cancunAssembler 1000) (firstCancunInput 1000)).header
    validatedIn ≠ builtIn ∧ builtIn.2.blobExcessGasAndPrice = none ∧
      validatedIn.2.blobExcessGasAndPrice = some ⟨0, 1000000000⟩ := by
  decide +kernel

theorem evmEnv_assembled_iff_firstCancun :
    evmEnv referenceBuilder.toEnvSource (cancunAssembler 2000).chainSpec
          (assembleBlock referenceBuilder (cancunAssembler 2000) (firstCancunInput 2000)).header =
        nextEvmEnv referenceBuilder (cancunAssembler 2000).chainSpec
          (firstCancunInput 2000).parent firstCancun ↔
      ExcessAgrees referenceBuilder (cancunAssembler 2000).chainSpec
        (firstCancunInput 2000).parent firstCancun :=
  evmEnv_assembled_iff referenceBuilder_laws rfl (by decide) rfl (by decide)

end Reference

end RethGnosis
