import RethGnosis.Evm.State
import RethGnosis.Spec.ChainSpec

set_option autoImplicit false

/-!
# EVM environment of a header

`gnosis_revm_spec`, `get_cfg_env` and `evm_env`. What they take from revm, reth and
the header crate is a parameter.
-/
namespace RethGnosis

def usizeMax : ℕ := 2 ^ 64 - 1

/-- `CfgEnv::new().with_chain_id(..).with_spec_and_mainnet_gas_params(..)` -/
def CfgEnv.mainnet (mainnetGasParams : SpecId → GasParams) (chainId : ℕ) (spec : SpecId) :
    CfgEnv where
  chainId := chainId
  spec := spec
  gasParams := mainnetGasParams spec
  limitContractCodeSize := none
  maxBlobsPerTx := none
  txGasLimitCap := none
  disableNonceCheck := false
  disableBlockGasLimit := false
  disableBaseFee := false

def GasParams.eip1283 : GasParams where
  sstoreStatic := 200
  sstoreSetWithoutLoadCost := 20000 - 200
  sstoreResetWithoutColdLoadCost := 5000 - 200
  sstoreSetRefund := 20000 - 200
  sstoreResetRefund := 5000 - 200

section CfgEnv
variable (mainnetGasParams : SpecId → GasParams) (chainSpec : GnosisChainSpec) (spec : SpecId)
  (timestamp : ℕ) (isPreMerge : Bool)

def getCfgEnv : CfgEnv :=
  let cfg := CfgEnv.mainnet mainnetGasParams chainSpec.chainId spec
  let cfg :=
    if chainSpec.isShanghaiActiveAtTimestamp timestamp then cfg
    else { cfg with limitContractCodeSize := some usizeMax }
  let cfg :=
    if isPreMerge && spec.isEnabledIn .LONDON then { cfg with disableBaseFee := true } else cfg
  if spec = .CONSTANTINOPLE ∧ isPreMerge then { cfg with gasParams := .eip1283 } else cfg

theorem getCfgEnv_spec :
    (getCfgEnv mainnetGasParams chainSpec spec timestamp isPreMerge).spec = spec := by
  unfold getCfgEnv
  dsimp only
  split_ifs <;> rfl

/-- The base fee check is off exactly for the pre-merge blocks from London on. -/
theorem getCfgEnv_disableBaseFee :
    (getCfgEnv mainnetGasParams chainSpec spec timestamp isPreMerge).disableBaseFee =
      (isPreMerge && spec.isEnabledIn .LONDON) := by
  cases h : isPreMerge && spec.isEnabledIn .LONDON with
  | false =>
    simp only [getCfgEnv, h, Bool.false_eq_true, ↓reduceIte]
    split_ifs <;> rfl
  | true =>
    simp only [getCfgEnv, h, ↓reduceIte]
    split_ifs <;> rfl

end CfgEnv

def MAX_TX_GAS_LIMIT_OSAKA : ℕ := 2 ^ 24

structure BlobParams where
  targetBlobCount : ℕ
  maxBlobCount : ℕ
  updateFraction : ℕ
  minBlobFee : ℕ
  maxBlobsPerTx : ℕ
  blobBaseCost : ℕ
deriving DecidableEq

structure EnvSource where
  mainnetGasParams : SpecId → GasParams
  isPreMerge : GnosisHeader → Bool
  revmSpec : GnosisChainSpec → GnosisHeader → SpecId
  blobParamsAtTimestamp : GnosisChainSpec → ℕ → Option BlobParams
  calcBlobFee : BlobParams → ℕ → ℕ

section EvmEnv
variable (source : EnvSource) (chainSpec : GnosisChainSpec) (header : GnosisHeader)

def gnosisRevmSpec : SpecId :=
  let activeAt := fun fork => (chainSpec.fork (.ethereum fork)).activeAtBlock header.number
  if source.isPreMerge header then
    if chainSpec.isLondonActiveAtBlock header.number then .LONDON
    else if chainSpec.isBerlinActiveAtBlock header.number then .BERLIN
    else if activeAt .Istanbul then .ISTANBUL
    else if activeAt .Petersburg then .PETERSBURG
    else if activeAt .Constantinople then .CONSTANTINOPLE
    else if activeAt .Byzantium then .BYZANTIUM
    else if activeAt .SpuriousDragon then .SPURIOUS_DRAGON
    else if activeAt .Tangerine then .TANGERINE
    else if activeAt .Homestead then .HOMESTEAD
    else .FRONTIER
  else
    source.revmSpec chainSpec header

def headerCfgEnv : CfgEnv :=
  let cfg := getCfgEnv source.mainnetGasParams chainSpec (gnosisRevmSpec source chainSpec header)
    header.timestamp (source.isPreMerge header)
  let cfg :=
    match source.blobParamsAtTimestamp chainSpec header.timestamp with
    | some params => { cfg with maxBlobsPerTx := some params.maxBlobsPerTx }
    | none => cfg
  if chainSpec.isOsakaActiveAtTimestamp header.timestamp then
    { cfg with txGasLimitCap := some MAX_TX_GAS_LIMIT_OSAKA }
  else
    cfg

def headerBlobGas : Option BlobExcessGasAndPrice :=
  match header.excessBlobGas, source.blobParamsAtTimestamp chainSpec header.timestamp with
  | some excessBlobGas, some params => some ⟨excessBlobGas, source.calcBlobFee params excessBlobGas⟩
  | _, _ => none

def headerBlockEnv : BlockEnv where
  number := header.number
  beneficiary := header.beneficiary
  timestamp := header.timestamp
  difficulty :=
    if (gnosisRevmSpec source chainSpec header).isEnabledIn .MERGE then 0 else header.difficulty
  prevrandao :=
    if (gnosisRevmSpec source chainSpec header).isEnabledIn .MERGE then header.mixHash else none
  gasLimit := header.gasLimit
  basefee := header.baseFeePerGas.getD 0
  blobExcessGasAndPrice := headerBlobGas source chainSpec header
  slotNum := header.slotNumber.getD 0

def evmEnv : CfgEnv × BlockEnv :=
  (headerCfgEnv source chainSpec header, headerBlockEnv source chainSpec header)

theorem headerCfgEnv_eq :
    ∃ maxBlobsPerTx txGasLimitCap,
      headerCfgEnv source chainSpec header =
        { getCfgEnv source.mainnetGasParams chainSpec (gnosisRevmSpec source chainSpec header)
            header.timestamp (source.isPreMerge header) with
          maxBlobsPerTx := maxBlobsPerTx
          txGasLimitCap := txGasLimitCap } := by
  unfold headerCfgEnv
  cases source.blobParamsAtTimestamp chainSpec header.timestamp with
  | none =>
    dsimp only
    split_ifs <;> exact ⟨_, _, rfl⟩
  | some params =>
    dsimp only
    split_ifs <;> exact ⟨_, _, rfl⟩

theorem evmEnv_spec :
    (evmEnv source chainSpec header).1.spec = gnosisRevmSpec source chainSpec header := by
  obtain ⟨maxBlobsPerTx, txGasLimitCap, hcfg⟩ := headerCfgEnv_eq source chainSpec header
  rw [evmEnv, hcfg]
  exact getCfgEnv_spec _ _ _ _ _

theorem evmEnv_gasParams (hpre : source.isPreMerge header = true)
    (hspec : gnosisRevmSpec source chainSpec header = .CONSTANTINOPLE) :
    (evmEnv source chainSpec header).1.gasParams = .eip1283 := by
  obtain ⟨maxBlobsPerTx, txGasLimitCap, hcfg⟩ := headerCfgEnv_eq source chainSpec header
  rw [evmEnv, hcfg, hpre, hspec]
  unfold getCfgEnv
  rw [if_pos ⟨rfl, rfl⟩]

end EvmEnv

end RethGnosis
