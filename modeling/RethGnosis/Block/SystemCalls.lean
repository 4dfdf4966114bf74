import RethGnosis.Block.State

set_option autoImplicit false

/-!
# Post-block system calls and bytecode rewrites

`gnosis.rs`. The post-block calls report their diff to the state hook before they
commit it; the two bytecode rewrites commit theirs without reporting it.
-/
namespace RethGnosis

def u128Max : ℕ := 2 ^ 128 - 1

/-- `*balance_increments.entry(address).or_default() += amount.to::<u128>()`, over the zipped
arrays. -/
def accumulateRewards : List (Address × U256) → BalanceIncrements → Except Fault BalanceIncrements
  | [], increments => .ok increments
  | (address, amount) :: rest, increments =>
    if u128Max < amount then
      .error (.panic "Uint conversion error: Value is too large for u128")
    else
      accumulateRewards rest
        (increments.insert address ((increments.getD address 0 + amount) % 2 ^ 128))

section PostBlock
variable {δ ε : Type} (ext : Externals δ ε) (executor : GnosisBlockExecutor)

def applyWithdrawalsContractCall (withdrawalContractAddress : Address)
    (withdrawals : List Withdrawal) : Exec δ Bytes := do
  let s ← get
  match transactSystemCall ext.transact (executor.evm s.db) SYSTEM_ADDRESS withdrawalContractAddress
      (ext.executeSystemWithdrawalsCall 4 (withdrawals.map Withdrawal.amount)
        (withdrawals.map Withdrawal.address)) with
  | .error e =>
    let message := ext.displayError e
    failWith (.other s!"withdrawal contract system call revert: {message}")
  | .ok res =>
    onState .postBlockWithdrawalRequestsContract res.state
    commitState ext res.state
    match res.result with
    | .success _ _ output => pure output.intoData
    | .revert _ output =>
      let message := displayBytes output
      failWith (.other s!"execution reverted: {message}")
    | .halt _ reason => failWith (.other s!"execution halted: {reason}")

def applyBlockRewardsContractCall (blockRewardsContract coinbase : Address) :
    Exec δ (BalanceIncrements × List Log) := do
  let s ← get
  match transactSystemCall ext.transact (executor.evm s.db) SYSTEM_ADDRESS blockRewardsContract
      (ext.rewardCall [coinbase] [0]) with
  | .error e =>
    let message := ext.displayError e
    failWith (.custom s!"block rewards contract system call error: {message}")
  | .ok res =>
    if contractMissing res.state blockRewardsContract then
      pure (∅, [])
    else
      match res.result with
      | .revert _ output =>
        let message := displayBytes output
        failWith (.custom s!"block rewards contract system call revert {message}")
      | .halt _ reason =>
        failWith (.custom s!"block rewards contract system call halt {reason}")
      | .success _ rewardLogs output =>
        match ext.rewardReturns output.intoData with
        | .error e =>
          let returned := hexEncode output.intoData
          failWith (.custom
            s!"error parsing block rewards contract system call return \"{returned}\": {e}")
        | .ok (receiversNative, rewardsNative) =>
          onState .postBlockWithdrawalRequestsContract res.state
          commitState ext res.state
          match accumulateRewards (receiversNative.zip rewardsNative) ∅ with
          | .error fault => throw fault
          | .ok balanceIncrements => pure (balanceIncrements, rewardLogs)

def applyWithdrawals (withdrawalContract : Address) (blockTimestamp : ℕ)
    (withdrawals : Option (List Withdrawal)) : Exec δ Bytes :=
  if executor.spec.isShanghaiActiveAtTimestamp blockTimestamp then
    match withdrawals with
    | none => failWith (.custom "block has no withdrawals field")
    | some withdrawals => applyWithdrawalsContractCall ext executor withdrawalContract withdrawals
  else
    pure []

def applyPostBlockSystemCalls (blockRewardsContract withdrawalContract : Address)
    (blockTimestamp : ℕ) (withdrawals : Option (List Withdrawal)) (coinbase : Address) :
    Exec δ (BalanceIncrements × Bytes × List Log) := do
  let withdrawalRequests ←
    applyWithdrawals ext executor withdrawalContract blockTimestamp withdrawals
  let (balanceIncrements, rewardLogs) ←
    applyBlockRewardsContractCall ext executor blockRewardsContract coinbase
  return (balanceIncrements, withdrawalRequests, rewardLogs)

end PostBlock

section Rewrites
variable {δ ε : Type} (ext : Externals δ ε)

/-- `basic(addr).unwrap_or_default().unwrap_or_default()`: a failed read counts as an empty
account. -/
def originalAccountInfo (db : δ) (addr : Address) : AccountInfo :=
  match ext.basic db addr with
  | .ok (some info) => info
  | .ok none => AccountInfo.default
  | .error _ => AccountInfo.default

def rewrittenAccount (original : AccountInfo) (codeHash : B256) (code : Option Bytes) :
    Account where
  info := { original with codeHash := codeHash, code := code }
  originalInfo := original
  transactionId := 0
  storage := ∅
  status := AccountStatus.Touched

def auraRewrites (db : δ) (rewrites : BTreeMap Address Bytes) : EvmState :=
  rewrites.toList.foldl (fun state entry =>
    let original := originalAccountInfo ext db entry.1
    let newCodeHash := ext.hashSlow entry.2
    if original.codeHash = newCodeHash then state
    else state.insert entry.1 (rewrittenAccount original newCodeHash (some entry.2))) ∅

def rewriteAuraBytecodes (rewrites : BTreeMap Address Bytes) : Exec δ Unit := do
  let s ← get
  commitState ext (auraRewrites ext s.db rewrites)

def balancerRewrites (db : δ) (config : BalancerHardforkConfig) : EvmState :=
  config.config.foldl (fun state (addr, code, expectedCodeHash) =>
    let original := originalAccountInfo ext db addr
    if original.codeHash = expectedCodeHash then state
    else
      let codeHash :=
        match code with
        | some code => ext.hashSlow code
        | none => KECCAK_EMPTY
      state.insert addr (rewrittenAccount original codeHash code)) ∅

def rewriteBytecodes (config : BalancerHardforkConfig) : Exec δ Unit := do
  let s ← get
  commitState ext (balancerRewrites ext s.db config)

end Rewrites

end RethGnosis
