import RethGnosis.Block.FailedImport
import RethGnosis.Block.StateHook

set_option autoImplicit false

/-!
# Changes the state hook is not told

The validator calls and the bytecode rewrites run before everything else and commit
without calling the hook. The hook still leads to the database's accounts when what they
commit changes nothing.
-/
namespace RethGnosis
open Fallible

section Silent
variable {δ ε : Type} (ext : Externals δ ε) (executor : GnosisBlockExecutor)

def applySilentChanges : Exec δ Unit := do
  applyAuraChanges ext executor
  applyBalancerRewrites ext executor

theorem executeBlock_eq_silent (transactions : List TransactionSigned) :
    executeBlock ext executor transactions = (do
      applySilentChanges ext executor
      executeReported ext executor transactions) := by
  simp only [executeBlock, applyPreExecutionChanges, applySilentChanges, executeReported,
    bind_assoc]

def systemCallDiff (contract : Address) (data : Bytes) (db : δ) : Option EvmState :=
  match transactSystemCall ext.transact (executor.evm db) SYSTEM_ADDRESS contract data with
  | .ok res => some res.state
  | .error _ => none

theorem systemCallAndCommit_silent (contract : Address) (data : Bytes) :
    Keeps ExecState.stateHook (systemCallAndCommit ext executor contract data) := by
  intro s
  rw [systemCallAndCommit_run]
  cases transactSystemCall ext.transact (executor.evm s.db) SYSTEM_ADDRESS contract data <;> rfl

theorem refreshValidators_silent (contract : Address) (n : ℕ) :
    Keeps ExecState.stateHook (refreshValidatorsViaGetValidators ext executor contract n) := by
  refine Keeps.bind ((systemCallAndCommit_silent ext executor contract _).adaptExcept _)
    (fun result => ?_)
  split
  · split
    · exact fun _ => rfl
    · exact keeps_pure _
  · exact keeps_throw _

theorem applyAuraChanges_silent : Keeps ExecState.stateHook (applyAuraChanges ext executor) := by
  cases haura : executor.ctx.aura with
  | none =>
    unfold applyAuraChanges
    rw [haura]
    exact keeps_pure ()
  | some aura =>
    rw [applyAuraChanges_eq haura]
    refine Keeps.bind ?_ (fun _ => Keeps.bind ?_ (fun _ => ?_))
    · refine keeps_get.bind (fun s => ?_)
      split
      · split
        · exact refreshValidators_silent ext executor _ _
        · exact keeps_pure _
      · exact keeps_pure _
    · unfold applyAuraRewrites
      split
      · exact fun _ => rfl
      · exact keeps_pure _
    · unfold callFinalizeChange
      split
      · refine Keeps.bind ((systemCallAndCommit_silent ext executor _ _).adaptExcept _)
          (fun _ => ?_)
        split
        · exact refreshValidators_silent ext executor _ _
        · exact keeps_pure _
      · exact keeps_pure _

theorem applyBalancerRewrites_silent :
    Keeps ExecState.stateHook (applyBalancerRewrites ext executor) := by
  unfold applyBalancerRewrites
  split
  · split
    · exact fun _ => rfl
    · exact keeps_pure _
  · exact keeps_pure _

/-- Nothing of what the changes before the transactions commit reaches the hook. -/
theorem applySilentChanges_silent :
    Keeps ExecState.stateHook (applySilentChanges ext executor) :=
  (applyAuraChanges_silent ext executor).bind (fun _ => applyBalancerRewrites_silent ext executor)

end Silent

section Inert
variable {δ ε ω : Type} {ext : Externals δ ε} (view : StateView ext ω)
  (executor : GnosisBlockExecutor) (s : ExecState δ)

def Inert (diff : δ → Option EvmState) : Prop :=
  ∀ db state, view.accounts db = view.accounts s.db → diff db = some state →
    view.apply (view.accounts s.db) state = view.accounts s.db

/-- The validator calls and the bytecode rewrites that the block makes are inert. -/
structure NothingUnreported : Prop where
  initialValidators : ∀ aura contract, executor.ctx.aura = some aura →
    aura.validatorContract = some contract →
      needsInit aura executor.block.number s.rollingFinality = true →
        Inert view s (systemCallDiff ext executor contract GET_VALIDATORS_SELECTOR)
  auraRewrites : ∀ aura rewrites, executor.ctx.aura = some aura →
    aura.auraBytecodeRewrites = some rewrites →
      Inert view s (fun db => some (auraRewrites ext db rewrites))
  finalizeChange : ∀ aura contract, executor.ctx.aura = some aura →
    aura.finalizeChangeAddress = some contract →
      Inert view s (systemCallDiff ext executor contract FINALIZE_CHANGE_SELECTOR) ∧
        (aura.posdaoTransition ≤ executor.block.number →
          Inert view s (systemCallDiff ext executor contract GET_VALIDATORS_SELECTOR))
  balancerRewrites : ∀ config, balancerActivates executor = true →
    executor.spec.balancerHardforkConfig = some config →
      Inert view s (fun db => some (balancerRewrites ext db config))

abbrev KeepsAccounts {φ α : Type} (m : EStateM φ (ExecState δ) α) : Prop :=
  Ensures (fun u t => view.accounts u.db = view.accounts s.db →
    view.accounts t.db = view.accounts s.db) m

variable {view executor s}

theorem KeepsAccounts.bind {φ α β : Type} {m : EStateM φ (ExecState δ) α}
    {f : α → EStateM φ (ExecState δ) β} (hm : KeepsAccounts view s m)
    (hf : ∀ a, KeepsAccounts view s (f a)) : KeepsAccounts view s (m >>= f) :=
  Ensures.bind (fun _ _ _ hfirst hsecond h => hsecond (hfirst h)) hm hf

theorem keepsAccounts_pure {φ α : Type} (a : α) :
    KeepsAccounts view s (pure a : EStateM φ (ExecState δ) α) :=
  ensures_pure (fun _ h => h) a

theorem Inert.commit {diff : δ → Option EvmState} (hinert : Inert view s diff) {db : δ}
    {state : EvmState} (hdb : view.accounts db = view.accounts s.db)
    (hdiff : diff db = some state) :
    view.accounts (ext.commit db state) = view.accounts s.db := by
  rw [view.commit, hdb]
  exact hinert db state hdb hdiff

theorem Inert.systemCallAndCommit {contract : Address} {data : Bytes}
    (hinert : Inert view s (systemCallDiff ext executor contract data)) :
    KeepsAccounts view s (systemCallAndCommit ext executor contract data) := by
  intro u result t hrun hu
  rw [systemCallAndCommit_run] at hrun
  have hdiff : systemCallDiff ext executor contract data u.db =
      match transactSystemCall ext.transact (executor.evm u.db) SYSTEM_ADDRESS contract data with
      | .ok res => some res.state
      | .error _ => none := rfl
  cases hcall : transactSystemCall ext.transact (executor.evm u.db) SYSTEM_ADDRESS contract
      data with
  | error e =>
    rw [hcall] at hrun
    cases hrun
  | ok res =>
    rw [hcall] at hrun hdiff
    cases hrun
    exact hinert.commit hu hdiff

theorem Inert.refreshValidators {contract : Address}
    (hinert : Inert view s (systemCallDiff ext executor contract GET_VALIDATORS_SELECTOR)) (n : ℕ) :
    KeepsAccounts view s (refreshValidatorsViaGetValidators ext executor contract n) := by
  refine KeepsAccounts.bind (hinert.systemCallAndCommit.adaptExcept _) (fun result => ?_)
  split
  · split
    · intro u _ t hrun hu
      cases hrun
      exact hu
    · exact keepsAccounts_pure _
  · exact ensures_throw _

theorem Inert.rewrite {diff : δ → EvmState} (hinert : Inert view s (fun db => some (diff db))) :
    KeepsAccounts view s (do let u ← get; commitState ext (diff u.db) : Exec δ Unit) := by
  intro u _ t hrun hu
  cases hrun
  exact hinert.commit hu rfl

section Unreported
variable (h : NothingUnreported view executor s)
include h

theorem NothingUnreported.initializeValidators {aura : AuraExecutionCtx}
    (haura : executor.ctx.aura = some aura) {t : ExecState δ}
    (hrun : initializeValidators ext executor aura executor.block.number s = .ok () t) :
    view.accounts t.db = view.accounts s.db := by
  unfold RethGnosis.initializeValidators at hrun
  rw [get_bind_run] at hrun
  cases hcontract : aura.validatorContract with
  | none =>
    rw [hcontract] at hrun
    cases hrun
    rfl
  | some contract =>
    simp only [hcontract] at hrun
    split_ifs at hrun with hinit
    · exact (h.initialValidators aura contract haura hcontract hinit).refreshValidators _ s () t
        hrun rfl
    · cases hrun
      rfl

theorem NothingUnreported.finalizeChanges {aura : AuraExecutionCtx}
    (haura : executor.ctx.aura = some aura) :
    KeepsAccounts view s (finalizeChanges ext executor aura) := by
  refine KeepsAccounts.bind ?_ (fun _ => ?_)
  · unfold applyAuraRewrites
    split
    · exact (h.auraRewrites aura _ haura ‹_›).rewrite
    · exact keepsAccounts_pure _
  · unfold callFinalizeChange
    split
    · obtain ⟨hcall, hrefresh⟩ := h.finalizeChange aura _ haura ‹_›
      refine KeepsAccounts.bind (hcall.systemCallAndCommit.adaptExcept _) (fun _ => ?_)
      split_ifs with hposdao
      · exact (hrefresh hposdao).refreshValidators _
      · exact keepsAccounts_pure _
    · exact keepsAccounts_pure _

theorem NothingUnreported.applyBalancerRewrites :
    KeepsAccounts view s (applyBalancerRewrites ext executor) := by
  unfold RethGnosis.applyBalancerRewrites
  split_ifs with hactivates
  · split
    · exact (h.balancerRewrites _ hactivates ‹_›).rewrite
    · exact keepsAccounts_pure _
  · exact keepsAccounts_pure _

theorem NothingUnreported.applyAuraChanges {t : ExecState δ}
    (hrun : applyAuraChanges ext executor s = .ok () t) :
    view.accounts t.db = view.accounts s.db := by
  cases haura : executor.ctx.aura with
  | none =>
    unfold RethGnosis.applyAuraChanges at hrun
    rw [haura] at hrun
    cases hrun
    rfl
  | some aura =>
    rw [applyAuraChanges_eq haura] at hrun
    obtain ⟨_, u, hinit, hfinalize⟩ := bind_ok.mp hrun
    exact h.finalizeChanges haura u () t hfinalize (h.initializeValidators haura hinit)

theorem NothingUnreported.applySilentChanges {t : ExecState δ}
    (hrun : applySilentChanges ext executor s = .ok () t) :
    view.accounts t.db = view.accounts s.db := by
  obtain ⟨_, u, haura, hbalancer⟩ := bind_ok.mp hrun
  exact h.applyBalancerRewrites u () t hbalancer (h.applyAuraChanges haura)

end Unreported

/-- The hook's accounts are the database's exactly when the reported diffs hide what the changes
before them did, as they do when those changes are inert. -/
theorem stateHook_replay {transactions : List TransactionSigned} {result : BlockExecutionResult}
    {t : ExecState δ} (hhook : s.stateHook = some [])
    (hrun : executeBlock ext executor transactions s = .ok result t) :
    ∃ u calls, applySilentChanges ext executor s = .ok () u ∧ t.stateHook = some calls ∧
      (view.replay calls (view.accounts s.db) = view.accounts t.db ↔
        view.replay calls (view.accounts s.db) = view.replay calls (view.accounts u.db)) ∧
      (NothingUnreported view executor s →
        view.replay calls (view.accounts s.db) = view.accounts t.db) := by
  rw [executeBlock_eq_silent] at hrun
  obtain ⟨_, u, hsilent, hreported⟩ := bind_ok.mp hrun
  have hu : u.stateHook = some [] :=
    ((applySilentChanges_silent ext executor).ok hsilent).trans hhook
  obtain ⟨calls, hcalls, hreplay⟩ :=
    executeReported_reports view executor transactions u result t hreported [] hu
  refine ⟨u, calls, hsilent, hcalls, by rw [hreplay], ?_⟩
  intro hinert
  rw [hreplay, hinert.applySilentChanges hsilent]

end Inert

section World

structure WorldAccount where
  info : AccountInfo
  storage : BTreeMap U256 U256
deriving DecidableEq

abbrev World := BTreeMap Address WorldAccount

def AccountInfo.isEmpty (info : AccountInfo) : Bool :=
  info.balance == 0 && info.nonce == 0 && info.codeHash == KECCAK_EMPTY

def writeSlots (slots : EvmStorage) (storage : BTreeMap U256 U256) : BTreeMap U256 U256 :=
  slots.toList.foldl (fun storage slot =>
    if slot.2.presentValue = 0 then storage.erase slot.1
    else storage.insert slot.1 slot.2.presentValue) storage

def World.storageOf (world : World) (address : Address) : BTreeMap U256 U256 :=
  match world[address]? with
  | some account => account.storage
  | none => ∅

def World.infoOf (world : World) (address : Address) : AccountInfo :=
  match world[address]? with
  | some account => account.info
  | none => .default

/-- Only touched accounts are written, and touched empty ones are removed. -/
def World.commitAccount (world : World) (address : Address) (account : Account) : World :=
  if account.status.touched = false then world
  else if account.status.selfDestructed then world.erase address
  else if account.status.created then
    world.insert address ⟨account.info, writeSlots account.storage ∅⟩
  else if account.info.isEmpty then world.erase address
  else world.insert address ⟨account.info, writeSlots account.storage (world.storageOf address)⟩

def World.commit (world : World) (state : EvmState) : World :=
  state.toList.foldl (fun world entry => world.commitAccount entry.1 entry.2) world

def World.touch (world : World) (address : Address) : Account where
  info := world.infoOf address
  originalInfo := world.infoOf address
  transactionId := 0
  storage := ∅
  status := AccountStatus.Touched

def World.call (world : World) (caller contract : Address) : EvmState :=
  ((∅ : EvmState).insert contract (world.touch contract)).insert caller
    { world.touch caller with
      info := { world.infoOf caller with nonce := (world.infoOf caller).nonce + 1 } }

def worldExternals : Externals World String where
  transact := fun _ _ _ db tx =>
    match tx.kind with
    | .call contract => .ok ⟨.success 21000 [] (.call []), db.call tx.caller contract⟩
    | .create => .error "no code"
  basic := fun db address => .ok (db[address]?.map WorldAccount.info)
  commit := World.commit
  incrementBalances := fun db increments => if increments.isEmpty then some db else none
  balanceIncrementState := fun _ _ => .ok ∅
  blockhashesContractCall := fun _ _ _ => (none, .ok ())
  beaconRootContractCall := fun _ _ _ => (none, .ok ())
  withdrawalRequestsContractCall := fun _ _ => (none, .ok [])
  consolidationRequestsContractCall := fun _ _ => (none, .ok [])
  parseDepositsFromReceipts := fun _ _ => .ok []
  executeSystemWithdrawalsCall := fun _ _ _ => []
  rewardCall := fun _ _ => []
  rewardReturns := fun _ => .ok ([], [])
  hashSlow := fun code => BitVec.ofNat 256 (beBytesToNat code)
  txEnv := fun tx => { systemCallTx 21#160 22#160 [] with gasLimit := tx.gasLimit }
  buildReceipt := fun txType result cumulative =>
    match result with
    | .success _ logs _ => ⟨txType, true, cumulative, logs⟩
    | _ => ⟨txType, false, cumulative, []⟩
  displayError := id
  debugResult := fun _ => ""

def worldView : StateView worldExternals World where
  accounts := id
  apply := World.commit
  commit := fun _ _ => rfl
  increments := by
    intro db db' increments state hincrement hstate
    simp only [worldExternals, Option.ite_none_right_eq_some, Option.some.injEq,
      Except.ok.injEq] at hincrement hstate
    rw [← hstate, ← hincrement.2]
    rfl

def balancerNode : GnosisEvmConfig where
  chainSpec :=
    { chainId := 100
      genesis := ⟨∅⟩
      hardforks := [(.ethereum .Paris, .ttd 0 0 none), (.ethereum .Shanghai, .timestamp 0),
        (.gnosis .BalancerFork, .timestamp 1000)]
      depositContract := some 11#160
      balancerHardforkConfig := some ⟨1000, [(7#160, some [2], 2#256)]⟩
      auraConfig := none }
  feeCollectorAddress := 3#160
  blockRewardsAddress := 5#160
  headerLookup := fun hash => some { (default : GnosisHeader) with timestamp := hash.toNat }

def blockAt (parentTimestamp timestamp : ℕ) : GnosisBlock :=
  ⟨{ (default : GnosisHeader) with
      number := 11
      parentHash := BitVec.ofNat 256 parentTimestamp
      timestamp := timestamp
      gasLimit := 30000
      mixHash := some 0#256 }, [⟨0#256, 0, 21000, none⟩], some []⟩

/-- Account 7 has code 1, account 21 has a balance; the hook has not been called. -/
def hookedState : ExecState World where
  db := ((∅ : World).insert 7#160 ⟨⟨0, 1, 1#256, some [1]⟩, ∅⟩).insert 21#160
    ⟨⟨1000, 0, KECCAK_EMPTY, some []⟩, ∅⟩
  stateHook := some []
  rollingFinality := .new []
  receipts := []
  gasUsed := 0
  blobGasUsed := 0

def executeAt (parentTimestamp timestamp : ℕ) :
    EStateM.Result Fault (ExecState World) BlockExecutionResult :=
  executeBlock worldExternals
    (blockExecutor referenceSource balancerNode (blockAt parentTimestamp timestamp) hookedState)
    (blockAt parentTimestamp timestamp).transactions hookedState

theorem stateHook_replay_afterFork :
    ∃ result t calls, executeAt 1000 1005 = .ok result t ∧ t.stateHook = some calls ∧
      worldView.replay calls hookedState.db = t.db := by
  obtain ⟨result, t, hrun, -⟩ := exists_ok (r := executeAt 1000 1005) (by decide +kernel)
  obtain ⟨u, calls, -, hcalls, -, hreplay⟩ :=
    @stateHook_replay World String World worldExternals worldView _ _ _ result t rfl hrun
  refine ⟨result, t, calls, hrun, hcalls, hreplay ?_⟩
  have haura : (blockExecutor referenceSource balancerNode (blockAt 1000 1005)
      hookedState).ctx.aura = none := rfl
  have hbalancer : balancerActivates (blockExecutor referenceSource balancerNode
      (blockAt 1000 1005) hookedState) = false := by decide +kernel
  refine ⟨?_, ?_, ?_, ?_⟩
  · intro aura contract hsome
    rw [haura] at hsome
    contradiction
  · intro aura rewrites hsome
    rw [haura] at hsome
    contradiction
  · intro aura contract hsome
    rw [haura] at hsome
    contradiction
  · intro config hactivates
    rw [hbalancer] at hactivates
    contradiction

/-- The Balancer activation block: the database has the new code, the hook's accounts the old. -/
theorem balancerActivation_unreported :
    failed (executeAt 995 1000) = false ∧
      ((final (executeAt 995 1000)).db.infoOf 7#160).code = some [2] ∧
      (final (executeAt 995 1000)).stateHook.map
        (fun calls => (World.infoOf (worldView.replay calls hookedState.db) 7#160).code) =
          some (some [1]) := by
  decide +kernel

end World

end RethGnosis
