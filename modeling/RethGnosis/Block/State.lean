import RethGnosis.Evm.SystemCall
import RethGnosis.Block.Context
import RethGnosis.Block.AddressArray

set_option autoImplicit false

/-!
# The state of a block execution

The database, the state hook with the diffs it was given so far, the executor's own
counters, and the tracker it shares with the rest of the node. revm, its database, the
upstream system caller and the ABI code are parameters.
-/
namespace RethGnosis

inductive BlockExecutionError where
  | other (message : String)
  | custom (message : String)
  | evm (hash : B256) (message : String)
  | transactionGasLimitMoreThanAvailableBlockGas (transactionGasLimit blockAvailableGas : ℕ)
  | incrementBalanceFailed
deriving DecidableEq

inductive Fault where
  | error (e : BlockExecutionError)
  | panic (message : String)
deriving DecidableEq

inductive StateChangeSource where
  | transaction (index : ℕ)
  | preBlockBlockHashesContract
  | preBlockBeaconRootContract
  | postBlockWithdrawalRequestsContract
  | postBlockConsolidationRequestsContract
  | postBlockBalanceIncrements
deriving DecidableEq

/-- `stateHook` is `none` without a hook, else the calls it has received. -/
structure ExecState (δ : Type) where
  db : δ
  stateHook : Option (List (StateChangeSource × EvmState))
  rollingFinality : RollingFinality
  receipts : List Receipt
  gasUsed : ℕ
  blobGasUsed : ℕ

abbrev Exec (δ : Type) := EStateM Fault (ExecState δ)

abbrev BalanceIncrements := BTreeMap Address ℕ

/-- An upstream call: the diff it reports and commits, if it got that far, and its answer. -/
abbrev UpstreamCall (δ α : Type) :=
  GnosisChainSpec → GnosisEvm δ → Option EvmState × Except BlockExecutionError α

structure Externals (δ ε : Type) where
  transact : Transact δ ε
  basic : δ → Address → Except ε (Option AccountInfo)
  commit : δ → EvmState → δ
  incrementBalances : δ → BalanceIncrements → Option δ
  balanceIncrementState : BalanceIncrements → δ → Except BlockExecutionError EvmState
  blockhashesContractCall : B256 → UpstreamCall δ Unit
  beaconRootContractCall : Option B256 → UpstreamCall δ Unit
  withdrawalRequestsContractCall : UpstreamCall δ Bytes
  consolidationRequestsContractCall : UpstreamCall δ Bytes
  parseDepositsFromReceipts : GnosisChainSpec → List Receipt → Except BlockExecutionError Bytes
  executeSystemWithdrawalsCall : ℕ → List ℕ → List Address → Bytes
  rewardCall : List Address → List ℕ → Bytes
  rewardReturns : Bytes → Except String (List Address × List U256)
  hashSlow : Bytes → B256
  txEnv : TransactionSigned → TxEnv
  buildReceipt : ℕ → ExecutionResult → ℕ → Receipt
  displayError : ε → String
  debugResult : ExecutionResult → String

structure GnosisBlockExecutor where
  spec : GnosisChainSpec
  ctx : GnosisBlockExecutionCtx
  cfg : CfgEnv
  block : BlockEnv
  feeCollector : Address
  blockRewardsAddress : Address

def GnosisBlockExecutor.evm {δ : Type} (executor : GnosisBlockExecutor) (db : δ) : GnosisEvm δ where
  cfg := executor.cfg
  block := executor.block
  feeCollector := executor.feeCollector
  database := db

def hexDigit (n : ℕ) : Char := "0123456789abcdef".toList.getD n '0'

def hexEncode (bytes : Bytes) : String :=
  String.ofList
    (bytes.flatMap (fun byte => [hexDigit (byte.toNat / 16), hexDigit (byte.toNat % 16)]))

def displayBytes (bytes : Bytes) : String := "0x" ++ hexEncode bytes

section Effects
variable {δ ε : Type} (ext : Externals δ ε)

/-- `evm.db_mut().commit(state)` -/
def commitState {φ : Type} (state : EvmState) : EStateM φ (ExecState δ) Unit :=
  modify (fun s => { s with db := ext.commit s.db state })

def onState (source : StateChangeSource) (state : EvmState) : Exec δ Unit :=
  modify (fun s =>
    { s with stateHook := s.stateHook.map (fun calls => calls ++ [(source, state)]) })

def failWith {α : Type} (e : BlockExecutionError) : Exec δ α := throw (.error e)

def upstreamCall {α : Type} (executor : GnosisBlockExecutor) (source : StateChangeSource)
    (call : UpstreamCall δ α) : Exec δ α := do
  let s ← get
  let (reported, answer) := call executor.spec (executor.evm s.db)
  match reported with
  | some state =>
    onState source state
    commitState ext state
  | none => pure ()
  match answer with
  | .ok a => pure a
  | .error e => failWith e

end Effects

end RethGnosis
