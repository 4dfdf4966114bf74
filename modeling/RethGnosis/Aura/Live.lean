import RethGnosis.Library.Run
import RethGnosis.Aura.Validators
import RethGnosis.Aura.FinalityWindow

set_option autoImplicit false

/-!
# The tracker's path through one executed block

What `context_for_block`, `apply_pre_execution_changes` and `finish` do to the
shared tracker when a pre-merge block executes without error. The block executor
is built from the same pieces; here the two possible `getValidators()` answers
are part of the block.
-/
namespace RethGnosis

/-- keccak256("InitiateChange(bytes32,address[])") -/
def INITIATE_CHANGE_TOPIC : B256 :=
  0x55252fa6eee4741b4e24a74a70e9c11fd2c2281df8d6ea13126ff845f7825c89#256

def logsContainInitiateChange (logs : List Log) (validatorContract : Address) : Bool :=
  logs.any (fun log => log.address == validatorContract &&
    log.topics.head? == some INITIATE_CHANGE_TOPIC)

def receiptsContainInitiateChange (receipts : List Receipt) (validatorContract : Address) : Bool :=
  receipts.any (fun receipt => logsContainInitiateChange receipt.logs validatorContract)

structure AuraExecutionCtx where
  finalizeChangeAddress : Option Address
  validatorContract : Option Address
  posdaoTransition : ℕ
  auraBytecodeRewrites : Option (BTreeMap Address Bytes)

/-- `context_for_block` on a pre-merge block: the boundary call, else the tracker's. -/
def auraContextForBlock (c : AuraConfig) (blockNumber : ℕ) (rf : RollingFinality) :
    AuraExecutionCtx × RollingFinality :=
  let taken :=
    match computeFinalizeChangeAddressFromValidators c.validators blockNumber with
    | some addr => (some addr, rf)
    | none => rf.takeFinalizeChange blockNumber
  ({ finalizeChangeAddress := taken.1
     validatorContract := c.validators.contractAddressAt blockNumber
     posdaoTransition := c.posdaoTransition
     auraBytecodeRewrites := c.rewriteBytecode[blockNumber]? }, taken.2)

def needsInit (ctx : AuraExecutionCtx) (blockNumber : ℕ) (rf : RollingFinality) : Bool :=
  decide (ctx.posdaoTransition ≤ blockNumber) && ctx.validatorContract.isSome &&
    rf.validatorCount == 0

def hasInitiateChange (ctx : AuraExecutionCtx) (receipts : List Receipt) (rewardLogs : List Log) :
    Bool :=
  match ctx.validatorContract with
  | none => false
  | some validatorContract =>
    receiptsContainInitiateChange receipts validatorContract ||
      logsContainInitiateChange rewardLogs validatorContract

def recordInitiateChange (ctx : AuraExecutionCtx) (blockNumber : ℕ) (receipts : List Receipt)
    (rewardLogs : List Log) (rf : RollingFinality) : RollingFinality :=
  match ctx.validatorContract with
  | none => rf
  | some validatorContract =>
    if hasInitiateChange ctx receipts rewardLogs then
      if ctx.posdaoTransition ≤ blockNumber then
        rf.addPendingTransition blockNumber validatorContract
      else
        rf.setImmediateFinalize (blockNumber + 1) validatorContract
    else
      rf

def pushSigner (ctx : AuraExecutionCtx) (blockNumber : ℕ) (signer : Address)
    (rf : RollingFinality) : RollingFinality :=
  if ctx.posdaoTransition ≤ blockNumber then (rf.push blockNumber signer).2 else rf

/-- The AuRa part of `finish`. -/
def finishTracker (ctx : AuraExecutionCtx) (blockNumber : ℕ) (receipts : List Receipt)
    (rewardLogs : List Log) (signer : Address) (rf : RollingFinality) : RollingFinality :=
  pushSigner ctx blockNumber signer (recordInitiateChange ctx blockNumber receipts rewardLogs rf)

/-- What an executed pre-merge block shows to the tracker: the validator list the
contract answers before this block's `finalizeChange()`, and after it. -/
structure AuraBlock where
  number : ℕ
  beneficiary : Address
  receipts : List Receipt
  rewardLogs : List Log
  initialValidators : List Address
  refreshedValidators : List Address
deriving DecidableEq

section Stages
variable (c : AuraConfig) (b : AuraBlock) (rf : RollingFinality)

def blockContext : AuraExecutionCtx := (auraContextForBlock c b.number rf).1

def afterContext : RollingFinality := (auraContextForBlock c b.number rf).2

/-- `apply_pre_execution_changes`: the initial `getValidators()`, and the refresh after
a POSDAO `finalizeChange()`. -/
def afterPreExecution : RollingFinality :=
  let ctx := blockContext c b rf
  let initialized :=
    if needsInit ctx b.number (afterContext c b rf) then
      (afterContext c b rf).setValidators b.initialValidators
    else
      afterContext c b rf
  if ctx.finalizeChangeAddress.isSome && decide (ctx.posdaoTransition ≤ b.number) then
    initialized.setValidators b.refreshedValidators
  else
    initialized

def afterRecord : RollingFinality :=
  recordInitiateChange (blockContext c b rf) b.number b.receipts b.rewardLogs
    (afterPreExecution c b rf)

/-- The tracker after the block; `finish` runs on what pre-execution left. -/
def liveBlock : RollingFinality :=
  finishTracker (blockContext c b rf) b.number b.receipts b.rewardLogs b.beneficiary
    (afterPreExecution c b rf)

def finalizeChangeAddress : Option Address := (blockContext c b rf).finalizeChangeAddress

def announces : Bool := hasInitiateChange (blockContext c b rf) b.receipts b.rewardLogs

end Stages

def Consecutive : ℕ → List AuraBlock → Prop
  | _, [] => True
  | n, b :: rest => b.number = n ∧ Consecutive (n + 1) rest

def runLive (c : AuraConfig) : List AuraBlock → RollingFinality → RollingFinality :=
  Run.run (liveBlock c)

def executed (c : AuraConfig) :
    List AuraBlock → RollingFinality → List (AuraBlock × RollingFinality) :=
  Run.visits (liveBlock c)

end RethGnosis
