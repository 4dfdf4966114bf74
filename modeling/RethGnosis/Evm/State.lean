import RethGnosis.Primitives

set_option autoImplicit false

/-!
# Account states and state diffs

The part of revm's state and environment types that the code reads or fills in.
A diff maps each address the EVM loaded to the account it ended with, together
with the account information it started from.
-/
namespace RethGnosis

structure AccountInfo where
  balance : U256
  nonce : ℕ
  codeHash : B256
  code : Option Bytes
deriving DecidableEq

def AccountInfo.default : AccountInfo where
  balance := 0
  nonce := 0
  codeHash := KECCAK_EMPTY
  code := some []

structure AccountStatus where
  created : Bool
  selfDestructed : Bool
  touched : Bool
  loadedAsNotExisting : Bool
deriving DecidableEq

namespace AccountStatus

def Created : AccountStatus := ⟨true, false, false, false⟩

def Touched : AccountStatus := ⟨false, false, true, false⟩

def union (s t : AccountStatus) : AccountStatus where
  created := s.created || t.created
  selfDestructed := s.selfDestructed || t.selfDestructed
  touched := s.touched || t.touched
  loadedAsNotExisting := s.loadedAsNotExisting || t.loadedAsNotExisting

end AccountStatus

structure EvmStorageSlot where
  originalValue : U256
  presentValue : U256
deriving DecidableEq

abbrev EvmStorage := BTreeMap U256 EvmStorageSlot

structure Account where
  info : AccountInfo
  originalInfo : AccountInfo
  transactionId : ℕ
  storage : EvmStorage
  status : AccountStatus
deriving DecidableEq

abbrev EvmState := BTreeMap Address Account

inductive SpecId where
  | FRONTIER | HOMESTEAD | TANGERINE | SPURIOUS_DRAGON | BYZANTIUM | CONSTANTINOPLE | PETERSBURG
  | ISTANBUL | BERLIN | LONDON | MERGE | SHANGHAI | CANCUN | PRAGUE | OSAKA | AMSTERDAM
deriving DecidableEq

def SpecId.isEnabledIn (spec other : SpecId) : Bool := other.ctorIdx ≤ spec.ctorIdx

/-- The gas parameters that `get_cfg_env` overrides. -/
structure GasParams where
  sstoreStatic : ℕ
  sstoreSetWithoutLoadCost : ℕ
  sstoreResetWithoutColdLoadCost : ℕ
  sstoreSetRefund : ℕ
  sstoreResetRefund : ℕ
deriving DecidableEq

structure CfgEnv where
  chainId : ℕ
  spec : SpecId
  gasParams : GasParams
  limitContractCodeSize : Option ℕ
  maxBlobsPerTx : Option ℕ
  txGasLimitCap : Option ℕ
  disableNonceCheck : Bool
  disableBlockGasLimit : Bool
  disableBaseFee : Bool
deriving DecidableEq

structure BlobExcessGasAndPrice where
  excessBlobGas : ℕ
  blobGasprice : ℕ
deriving DecidableEq

structure BlockEnv where
  number : ℕ
  beneficiary : Address
  timestamp : ℕ
  gasLimit : ℕ
  basefee : ℕ
  difficulty : U256
  prevrandao : Option B256
  blobExcessGasAndPrice : Option BlobExcessGasAndPrice
  slotNum : ℕ
deriving DecidableEq

inductive TransactionType where
  | legacy | eip2930 | eip1559 | eip4844 | eip7702
deriving DecidableEq

inductive TxKind where
  | create
  | call (contract : Address)
deriving DecidableEq

structure TxEnv where
  txType : TransactionType
  caller : Address
  gasLimit : ℕ
  gasPrice : ℕ
  kind : TxKind
  value : U256
  data : Bytes
  nonce : ℕ
  chainId : Option ℕ
  accessList : List (Address × List B256)
  gasPriorityFee : Option ℕ
  blobHashes : List B256
  maxFeePerBlobGas : ℕ
  authorizationList : List Bytes
deriving DecidableEq

inductive Output where
  | call (data : Bytes)
  | create (data : Bytes) (address : Option Address)
deriving DecidableEq

def Output.intoData : Output → Bytes
  | .call data => data
  | .create data _ => data

inductive ExecutionResult where
  | success (gasUsed : ℕ) (logs : List Log) (output : Output)
  | revert (gasUsed : ℕ) (output : Bytes)
  | halt (gasUsed : ℕ) (reason : String)
deriving DecidableEq

def ExecutionResult.txGasUsed : ExecutionResult → ℕ
  | .success gasUsed _ _ => gasUsed
  | .revert gasUsed _ => gasUsed
  | .halt gasUsed _ => gasUsed

structure ResultAndState where
  result : ExecutionResult
  state : EvmState
deriving DecidableEq

/-- revm's transaction execution on a database of type `δ`, with this repository's handler;
`address` is the fee collector. -/
abbrev Transact (δ ε : Type) :=
  CfgEnv → BlockEnv → (address : Address) → δ → TxEnv → Except ε ResultAndState

structure GnosisEvm (δ : Type) where
  cfg : CfgEnv
  block : BlockEnv
  feeCollector : Address
  database : δ

end RethGnosis
