import RethGnosis.Evm.Cfg
import RethGnosis.Block.SystemCalls

set_option autoImplicit false

/-!
# The block executor

`block.rs`: pre-execution changes, transactions, and `finish`, and the import of a
block from its context on. A failing step ends the block with the state reached so
far; the tracker is shared, so what was done to it stays.
-/
namespace RethGnosis

/-- getValidators() -/
def GET_VALIDATORS_SELECTOR : Bytes := [0xb7, 0xab, 0x4d, 0xb5]

/-- finalizeChange() -/
def FINALIZE_CHANGE_SELECTOR : Bytes := [0x75, 0x28, 0x62, 0x11]

def DEPOSIT_REQUEST_TYPE : ℕ := 0

def WITHDRAWAL_REQUEST_TYPE : ℕ := 1

def CONSOLIDATION_REQUEST_TYPE : ℕ := 2

abbrev Requests := List (ℕ × Bytes)

/-- An empty list of requests of a type is left out. -/
def Requests.pushRequestWithType (requests : Requests) (requestType : ℕ) (request : Bytes) :
    Requests :=
  if request.isEmpty then requests else requests ++ [(requestType, request)]

structure BlockExecutionResult where
  receipts : List Receipt
  requests : Requests
  gasUsed : ℕ
  blobGasUsed : ℕ
deriving DecidableEq

structure EthTxResult where
  result : ResultAndState
  blobGasUsed : ℕ
  txType : ℕ

def u64Max : ℕ := 2 ^ 64 - 1

section Executor
variable {δ ε : Type} (ext : Externals δ ε) (executor : GnosisBlockExecutor)

def systemCallAndCommit (contract : Address) (data : Bytes) :
    EStateM ε (ExecState δ) ExecutionResult := do
  let s ← get
  match transactSystemCall ext.transact (executor.evm s.db) SYSTEM_ADDRESS contract data with
  | .error e => throw e
  | .ok res =>
    commitState ext res.state
    pure res.result

def setValidators (validators : List Address) : Exec δ Unit :=
  modify (fun s => { s with rollingFinality := s.rollingFinality.setValidators validators })

def decodeValidators (blockNum : ℕ) (result : ExecutionResult) : Except Fault (List Address) :=
  match result with
  | .success _ _ output =>
    match decodeAddressArray output.intoData with
    | .ok validators => .ok validators
    | .error .undecodable =>
      .error (.error (.other
        s!"AuRa getValidators() at block {blockNum} returned undecodable data"))
    | .error .panic => .error (.panic "decode_address_array")
  | other =>
    let message := ext.debugResult other
    .error (.error (.other s!"AuRa getValidators() at block {blockNum} did not succeed: {message}"))

def refreshValidatorsViaGetValidators (validatorContract : Address) (blockNum : ℕ) :
    Exec δ Unit := do
  let result ← EStateM.adaptExcept
    (fun e =>
      let message := ext.displayError e
      Fault.error (.other s!"AuRa getValidators() syscall failed at block {blockNum}: {message}"))
    (systemCallAndCommit ext executor validatorContract GET_VALIDATORS_SELECTOR)
  match decodeValidators ext blockNum result with
  | .ok validators => if executor.ctx.aura.isSome then setValidators validators else pure ()
  | .error fault => throw fault

/-- The validator set is asked for when a POSDAO block finds it empty. -/
def initializeValidators (aura : AuraExecutionCtx) (blockNum : ℕ) : Exec δ Unit := do
  let s ← get
  match aura.validatorContract with
  | some validatorContract =>
    if needsInit aura blockNum s.rollingFinality then
      refreshValidatorsViaGetValidators ext executor validatorContract blockNum
    else
      pure ()
  | none => pure ()

def applyAuraRewrites (aura : AuraExecutionCtx) : Exec δ Unit :=
  match aura.auraBytecodeRewrites with
  | some rewrites => rewriteAuraBytecodes ext rewrites
  | none => pure ()

def callFinalizeChange (aura : AuraExecutionCtx) (blockNum : ℕ) : Exec δ Unit :=
  match aura.finalizeChangeAddress with
  | some validatorContract => do
    let _ ← EStateM.adaptExcept
      (fun e =>
        let message := ext.displayError e
        Fault.error
          (.other s!"AuRa finalizeChange() syscall failed at block {blockNum}: {message}"))
      (systemCallAndCommit ext executor validatorContract FINALIZE_CHANGE_SELECTOR)
    if aura.posdaoTransition ≤ blockNum then
      refreshValidatorsViaGetValidators ext executor validatorContract blockNum
    else
      pure ()
  | none => pure ()

def balancerActivates : Bool :=
  executor.spec.isBalancerHardforkActiveAtTimestamp executor.block.timestamp &&
    !executor.spec.isBalancerHardforkActiveAtTimestamp executor.ctx.parentTimestamp

def applyBalancerRewrites : Exec δ Unit :=
  if balancerActivates executor then
    match executor.spec.balancerHardforkConfig with
    | some config => rewriteBytecodes ext config
    | none => pure ()
  else
    pure ()

def applyAuraChanges : Exec δ Unit :=
  match executor.ctx.aura with
  | some aura => do
    initializeValidators ext executor aura executor.block.number
    applyAuraRewrites ext aura
    callFinalizeChange ext executor aura executor.block.number
  | none => pure ()

def applyPreExecutionChanges : Exec δ Unit := do
  applyAuraChanges ext executor
  applyBalancerRewrites ext executor
  upstreamCall ext executor .preBlockBlockHashesContract
    (ext.blockhashesContractCall executor.ctx.parentHash)
  upstreamCall ext executor .preBlockBeaconRootContract
    (ext.beaconRootContractCall executor.ctx.parentBeaconBlockRoot)

def executeTransactionWithoutCommit (tx : TransactionSigned) : Exec δ EthTxResult := do
  let s ← get
  let blockAvailableGas := (executor.block.gasLimit + 2 ^ 64 - s.gasUsed) % 2 ^ 64
  if blockAvailableGas < tx.gasLimit then
    failWith (.transactionGasLimitMoreThanAvailableBlockGas tx.gasLimit blockAvailableGas)
  else
    match ext.transact executor.cfg executor.block executor.feeCollector s.db (ext.txEnv tx) with
    | .error e => failWith (.evm tx.hash (ext.displayError e))
    | .ok result => pure ⟨result, tx.blobGasUsed.getD 0, tx.txType⟩

def commitTransaction (output : EthTxResult) : Exec δ ℕ := do
  let s ← get
  onState (.transaction s.receipts.length) output.result.state
  let gasUsed := output.result.result.txGasUsed
  let cumulative := (s.gasUsed + gasUsed) % 2 ^ 64
  modify (fun s => { s with
    gasUsed := cumulative
    blobGasUsed :=
      if executor.spec.isCancunActiveAtTimestamp executor.block.timestamp then
        min (s.blobGasUsed + output.blobGasUsed) u64Max
      else s.blobGasUsed
    receipts := s.receipts ++ [ext.buildReceipt output.txType output.result.result cumulative] })
  commitState ext output.result.state
  pure gasUsed

def executeTransaction (tx : TransactionSigned) : Exec δ Unit := do
  let output ← executeTransactionWithoutCommit ext executor tx
  let _ ← commitTransaction ext executor output

def collectRequests : Exec δ Requests :=
  if executor.spec.isPragueActiveAtTimestamp executor.block.timestamp then do
    let s ← get
    match ext.parseDepositsFromReceipts executor.spec s.receipts with
    | .error e => failWith e
    | .ok depositRequests =>
      let withdrawalRequests ← upstreamCall ext executor .postBlockWithdrawalRequestsContract
        ext.withdrawalRequestsContractCall
      let consolidationRequests ← upstreamCall ext executor .postBlockConsolidationRequestsContract
        ext.consolidationRequestsContractCall
      pure ((Requests.pushRequestWithType [] DEPOSIT_REQUEST_TYPE depositRequests)
        |>.pushRequestWithType WITHDRAWAL_REQUEST_TYPE withdrawalRequests
        |>.pushRequestWithType CONSOLIDATION_REQUEST_TYPE consolidationRequests)
  else
    pure []

/-- `finish` up to its post-block calls: the requests, the balance increments and the logs of
the reward call. -/
def finishCalls : Exec δ (Requests × BalanceIncrements × List Log) :=
  match executor.spec.depositContractAddress with
  | none => throw (.panic "Deposit contract address is not set in the chain specification")
  | some depositContract => do
    let requests ← collectRequests ext executor
    let (balanceIncrements, _, rewardLogs) ← applyPostBlockSystemCalls ext executor
      (executor.ctx.blockRewardsOverride.getD executor.blockRewardsAddress) depositContract
      executor.block.timestamp executor.ctx.withdrawals executor.block.beneficiary
    pure (requests, balanceIncrements, rewardLogs)

def updateTracker (rewardLogs : List Log) : Exec δ Unit :=
  match executor.ctx.aura with
  | some aura =>
    modify (fun s => { s with
      rollingFinality := finishTracker aura executor.block.number s.receipts rewardLogs
        executor.block.beneficiary s.rollingFinality })
  | none => pure ()

def applyBalanceIncrements (balanceIncrements : BalanceIncrements) : Exec δ Unit := do
  let s ← get
  match ext.incrementBalances s.db balanceIncrements with
  | none => failWith .incrementBalanceFailed
  | some db =>
    modify (fun s => { s with db := db })
    if s.stateHook.isSome then
      match ext.balanceIncrementState balanceIncrements db with
      | .error e => failWith e
      | .ok state => onState .postBlockBalanceIncrements state
    else
      pure ()

def finish : Exec δ BlockExecutionResult := do
  let (requests, balanceIncrements, rewardLogs) ← finishCalls ext executor
  updateTracker executor rewardLogs
  applyBalanceIncrements ext balanceIncrements
  let s ← get
  pure
    { receipts := s.receipts
      requests := requests
      gasUsed := s.gasUsed
      blobGasUsed := s.blobGasUsed }

def executeBlock (transactions : List TransactionSigned) : Exec δ BlockExecutionResult := do
  applyPreExecutionChanges ext executor
  transactions.forM (executeTransaction ext executor)
  finish ext executor

end Executor

section Import
variable {δ ε : Type} (source : EnvSource) (config : GnosisEvmConfig) (ext : Externals δ ε)
  (block : GnosisBlock)

def executorFor (ctx : GnosisBlockExecutionCtx) : GnosisBlockExecutor where
  spec := config.chainSpec
  ctx := ctx
  cfg := (evmEnv source config.chainSpec block.header).1
  block := (evmEnv source config.chainSpec block.header).2
  feeCollector := config.feeCollectorAddress
  blockRewardsAddress := config.blockRewardsAddress

def takeContext : Exec δ GnosisBlockExecutionCtx :=
  modifyGet (fun s =>
    let built := contextForBlock config block s.rollingFinality
    (built.1, { s with rollingFinality := built.2 }))

def importBlock : Exec δ BlockExecutionResult := do
  let ctx ← takeContext config block
  executeBlock ext (executorFor source config block ctx) block.transactions

end Import

end RethGnosis
