import RethGnosis.Aura.LiveRun
import RethGnosis.Block.TrackerProgress

set_option autoImplicit false

/-!
# Imports of pre-merge blocks

A successful import runs the tracker through `liveBlock`. A failing one has no
rollback: the tracker stays at the last milestone the block completed, and the same
block is executed again from there.
-/
namespace RethGnosis
open Fallible

section Import
variable {δ ε : Type} (source : EnvSource) (config : GnosisEvmConfig) (ext : Externals δ ε)
  (block : GnosisBlock) (c : AuraConfig) (s : ExecState δ)

def blockExecutor : GnosisBlockExecutor :=
  executorFor source config block (contextForBlock config block s.rollingFinality).1

def contextState : ExecState δ :=
  { s with rollingFinality := (contextForBlock config block s.rollingFinality).2 }

def preMergeContext : AuraExecutionCtx :=
  (auraContextForBlock c block.header.number s.rollingFinality).1

theorem importBlock_run :
    importBlock source config ext block s =
      executeBlock ext (blockExecutor source config block s) block.transactions
        (contextState config block s) := rfl

/-- `b` is the imported block, with the validator lists it was answered before the milestone. -/
structure Shows (b : AuraBlock) (m : Milestone) : Prop where
  number : b.number = block.header.number
  beneficiary : b.beneficiary = block.header.beneficiary
  initial : m ≠ .context → InitialAnswer ext (blockExecutor source config block s)
    (preMergeContext block c s) (contextState config block s) b.initialValidators
  refreshed : m ≠ .context → m ≠ .initialized →
    RefreshedAnswer ext (blockExecutor source config block s) (preMergeContext block c s)
      (contextState config block s) b.refreshedValidators

/-- The step that fails, by the last milestone completed before it. -/
def StoppedAfter (b : AuraBlock) (fault : Fault) (t : ExecState δ) : Milestone → Prop
  | .context =>
    initializeValidators ext (blockExecutor source config block s) (preMergeContext block c s)
      block.header.number (contextState config block s) = .error fault t
  | .initialized =>
    ∃ s₁, initializeValidators ext (blockExecutor source config block s)
        (preMergeContext block c s) block.header.number (contextState config block s) = .ok () s₁ ∧
      finalizeChanges ext (blockExecutor source config block s) (preMergeContext block c s) s₁ =
        .error fault t
  | .preExecuted =>
    ∃ s₁, applyAuraChanges ext (blockExecutor source config block s)
        (contextState config block s) = .ok () s₁ ∧
      executeBody ext (blockExecutor source config block s) block.transactions s₁ = .error fault t
  | .finished =>
    ∃ s₁ s₂ calls, applyAuraChanges ext (blockExecutor source config block s)
        (contextState config block s) = .ok () s₁ ∧
      executeBody ext (blockExecutor source config block s) block.transactions s₁ =
        .ok calls s₂ ∧
      b.receipts = s₂.receipts ∧ b.rewardLogs = calls.2.2 ∧
      applyBalanceIncrements ext calls.2.1 (trackedState (blockExecutor source config block s)
        (preMergeContext block c s) calls.2.2 s₂) = .error fault t

def LogsRewards (b : AuraBlock) : Prop :=
  ∃ s₁ s₂ calls, applyAuraChanges ext (blockExecutor source config block s)
      (contextState config block s) = .ok () s₁ ∧
    executeBody ext (blockExecutor source config block s) block.transactions s₁ =
      .ok calls s₂ ∧
    b.rewardLogs = calls.2.2

end Import

section PreMerge
variable {δ ε : Type} {source : EnvSource} {config : GnosisEvmConfig} {ext : Externals δ ε}
  {block : GnosisBlock} {c : AuraConfig} {s : ExecState δ}

theorem contextForBlock_preMerge (haura : config.chainSpec.auraConfig = some c)
    (hpre : config.chainSpec.isParisActiveAtBlock block.header.number = false)
    (rf : RollingFinality) :
    (contextForBlock config block rf).1.aura =
        some (auraContextForBlock c block.header.number rf).1 ∧
      (contextForBlock config block rf).2 = (auraContextForBlock c block.header.number rf).2 := by
  simp only [contextForBlock, auraForBlock, haura, hpre, Bool.false_eq_true, ↓reduceIte, and_self]

theorem blockExecutor_aura (haura : config.chainSpec.auraConfig = some c)
    (hpre : config.chainSpec.isParisActiveAtBlock block.header.number = false) :
    (blockExecutor source config block s).ctx.aura = some (preMergeContext block c s) :=
  (contextForBlock_preMerge haura hpre s.rollingFinality).1

theorem contextState_tracker (haura : config.chainSpec.auraConfig = some c)
    (hpre : config.chainSpec.isParisActiveAtBlock block.header.number = false) {b : AuraBlock}
    (hb : b.number = block.header.number) :
    (contextState config block s).rollingFinality = afterContext c b s.rollingFinality := by
  rw [afterContext, hb]
  exact (contextForBlock_preMerge haura hpre s.rollingFinality).2

theorem afterInitialization_eq {b : AuraBlock} (hb : b.number = block.header.number) :
    afterInitialization c b s.rollingFinality =
      if needsInit (preMergeContext block c s) block.header.number
          (afterContext c b s.rollingFinality) then
        (afterContext c b s.rollingFinality).setValidators b.initialValidators
      else afterContext c b s.rollingFinality := by
  rw [afterInitialization, blockContext, hb, preMergeContext]

theorem afterPreExecution_eq {b : AuraBlock} (hb : b.number = block.header.number) :
    afterPreExecution c b s.rollingFinality =
      if (preMergeContext block c s).finalizeChangeAddress.isSome &&
          decide ((preMergeContext block c s).posdaoTransition ≤ block.header.number) then
        (afterInitialization c b s.rollingFinality).setValidators b.refreshedValidators
      else afterInitialization c b s.rollingFinality := by
  rw [preMergeContext, ← hb]
  rfl

theorem initialized_tracker (haura : config.chainSpec.auraConfig = some c)
    (hpre : config.chainSpec.isParisActiveAtBlock block.header.number = false) {b : AuraBlock}
    (hb : b.number = block.header.number) {s₁ : ExecState δ}
    (hs₁ : s₁.rollingFinality =
      if needsInit (preMergeContext block c s) block.header.number
          (contextState config block s).rollingFinality then
        (contextState config block s).rollingFinality.setValidators b.initialValidators
      else (contextState config block s).rollingFinality) :
    s₁.rollingFinality = afterInitialization c b s.rollingFinality := by
  rw [hs₁, afterInitialization_eq hb, contextState_tracker haura hpre hb]

def importedBlock (block : GnosisBlock) (initialValidators refreshedValidators : List Address)
    (receipts : List Receipt) (rewardLogs : List Log) : AuraBlock where
  number := block.header.number
  beneficiary := block.header.beneficiary
  receipts := receipts
  rewardLogs := rewardLogs
  initialValidators := initialValidators
  refreshedValidators := refreshedValidators

theorem applyAuraChanges_error (haura : config.chainSpec.auraConfig = some c)
    (hpre : config.chainSpec.isParisActiveAtBlock block.header.number = false) {fault : Fault}
    {t : ExecState δ}
    (hrun : applyAuraChanges ext (blockExecutor source config block s)
      (contextState config block s) = .error fault t) :
    ∃ (b : AuraBlock) (m : Milestone), Shows source config ext block c s b m ∧
      StoppedAfter source config ext block c s b fault t m ∧
      t.rollingFinality = m.tracker c b s.rollingFinality := by
  have hctx := @blockExecutor_aura δ source config block c s haura hpre
  rw [applyAuraChanges_eq hctx] at hrun
  rcases @initializeValidators_run δ ε ext (blockExecutor source config block s) _ hctx
      (contextState config block s) with
    ⟨e, u, hinit, hu⟩ | ⟨initial, s₁, hinit, hanswer, hs₁⟩
  · rw [bind_run, hinit] at hrun
    cases hrun
    refine ⟨importedBlock block [] [] [] [], .context, ⟨rfl, rfl, ?_, ?_⟩, hinit, ?_⟩
    · intro hm
      exact absurd rfl hm
    · intro hm
      exact absurd rfl hm
    · rw [hu]
      exact contextState_tracker haura hpre rfl
  · rw [bind_run, hinit] at hrun
    refine ⟨importedBlock block initial [] [] [], .initialized,
      ⟨rfl, rfl, fun _ => hanswer, fun _ hm => absurd rfl hm⟩, ⟨s₁, hinit, hrun⟩, ?_⟩
    rcases @finalizeChanges_run δ ε ext (blockExecutor source config block s) _ hctx s₁ with
      ⟨e, u, hfinalize, hu⟩ | ⟨refreshed, -, u, -, hfinalize, -, -⟩
    · have hsame : EStateM.Result.error fault t = EStateM.Result.error e u :=
        hrun.symm.trans hfinalize
      cases hsame
      rw [hu]
      exact @initialized_tracker _ _ _ _ _ haura hpre (importedBlock block initial [] [] []) rfl _
        hs₁
    · have hsame : EStateM.Result.error fault t = EStateM.Result.ok () u :=
        hrun.symm.trans hfinalize
      cases hsame

theorem applyAuraChanges_ok (haura : config.chainSpec.auraConfig = some c)
    (hpre : config.chainSpec.isParisActiveAtBlock block.header.number = false)
    {t : ExecState δ}
    (hrun : applyAuraChanges ext (blockExecutor source config block s)
      (contextState config block s) = .ok () t) :
    ∃ initial refreshed : List Address,
      InitialAnswer ext (blockExecutor source config block s) (preMergeContext block c s)
        (contextState config block s) initial ∧
      RefreshedAnswer ext (blockExecutor source config block s) (preMergeContext block c s)
        (contextState config block s) refreshed ∧
      ∀ (receipts : List Receipt) (rewardLogs : List Log), t.rollingFinality =
        afterPreExecution c (importedBlock block initial refreshed receipts rewardLogs)
          s.rollingFinality := by
  have hctx := @blockExecutor_aura δ source config block c s haura hpre
  rw [applyAuraChanges_eq hctx] at hrun
  rcases @initializeValidators_run δ ε ext (blockExecutor source config block s) _ hctx
      (contextState config block s) with
    ⟨e, u, hinit, hu⟩ | ⟨initial, s₁, hinit, hanswer, hs₁⟩
  · rw [bind_run, hinit] at hrun
    cases hrun
  · rw [bind_run, hinit] at hrun
    rcases @finalizeChanges_run δ ε ext (blockExecutor source config block s) _ hctx s₁ with
      ⟨e, u, hfinalize, hu⟩ | ⟨refreshed, v, u, hrewrites, hfinalize, hrefreshed, hu⟩
    · have hsame : EStateM.Result.ok () t = EStateM.Result.error e u :=
        hrun.symm.trans hfinalize
      cases hsame
    · have hsame : EStateM.Result.ok () t = EStateM.Result.ok () u :=
        hrun.symm.trans hfinalize
      cases hsame
      refine ⟨initial, refreshed, hanswer, ⟨s₁, v, hinit, hrewrites, hrefreshed⟩, ?_⟩
      intro receipts rewardLogs
      have hinitialized : s₁.rollingFinality = afterInitialization c
          (importedBlock block initial refreshed receipts rewardLogs) s.rollingFinality :=
        initialized_tracker haura hpre rfl hs₁
      rw [hu, afterPreExecution_eq rfl, hinitialized]
      rfl

theorem settle_run {calls : Requests × BalanceIncrements × List Log}
    (haura : config.chainSpec.auraConfig = some c)
    (hpre : config.chainSpec.isParisActiveAtBlock block.header.number = false)
    (s₂ : ExecState δ) :
    settle ext (blockExecutor source config block s) calls s₂ =
      match applyBalanceIncrements ext calls.2.1 (trackedState (blockExecutor source config block s)
        (preMergeContext block c s) calls.2.2 s₂) with
      | .ok () t =>
        .ok
          { receipts := t.receipts
            requests := calls.1
            gasUsed := t.gasUsed
            blobGasUsed := t.blobGasUsed } t
      | .error fault t => .error fault t := by
  unfold settle
  rw [bind_run, updateTracker_run _ (blockExecutor_aura haura hpre)]
  refine (bind_run _ _ _).trans ?_
  cases applyBalanceIncrements ext calls.2.1 (trackedState (blockExecutor source config block s)
    (preMergeContext block c s) calls.2.2 s₂) <;> rfl

theorem trackedState_tracker {b : AuraBlock} (hnumber : b.number = block.header.number)
    (hbeneficiary : b.beneficiary = block.header.beneficiary) {s₂ : ExecState δ}
    (hreceipts : b.receipts = s₂.receipts)
    (htracker : s₂.rollingFinality = afterPreExecution c b s.rollingFinality) :
    (trackedState (blockExecutor source config block s) (preMergeContext block c s) b.rewardLogs
      s₂).rollingFinality = liveBlock c b s.rollingFinality := by
  unfold trackedState liveBlock
  rw [htracker, hreceipts, hbeneficiary, hnumber, blockContext, hnumber]
  rfl

theorem importBlock_error (haura : config.chainSpec.auraConfig = some c)
    (hpre : config.chainSpec.isParisActiveAtBlock block.header.number = false) {fault : Fault}
    {t : ExecState δ} (hrun : importBlock source config ext block s = .error fault t) :
    ∃ (b : AuraBlock) (m : Milestone), Shows source config ext block c s b m ∧
      StoppedAfter source config ext block c s b fault t m ∧
      t.rollingFinality = m.tracker c b s.rollingFinality := by
  rw [importBlock_run, executeBlock_eq] at hrun
  rcases bind_error.mp hrun with hstop | ⟨_, s₁, hpreExecuted, hrest⟩
  · exact applyAuraChanges_error haura hpre hstop
  · obtain ⟨initial, refreshed, hinitial, hrefreshed, htracker⟩ :=
      applyAuraChanges_ok haura hpre hpreExecuted
    rcases bind_error.mp hrest with hstop | ⟨calls, s₂, hbody, hsettle⟩
    · refine ⟨importedBlock block initial refreshed [] [], .preExecuted,
        ⟨rfl, rfl, fun _ => hinitial, fun _ _ => hrefreshed⟩, ⟨s₁, hpreExecuted, hstop⟩, ?_⟩
      rw [(executeBody_keeps ext _ _).error hstop]
      exact htracker [] []
    · have hs₂ := (executeBody_keeps ext _ _).ok hbody
      rw [settle_run haura hpre] at hsettle
      cases hincrements : applyBalanceIncrements ext calls.2.1
          (trackedState (blockExecutor source config block s) (preMergeContext block c s)
            calls.2.2 s₂) with
      | ok _ u =>
        rw [hincrements] at hsettle
        cases hsettle
      | error e u =>
        rw [hincrements] at hsettle
        cases hsettle
        refine ⟨importedBlock block initial refreshed s₂.receipts calls.2.2, .finished,
          ⟨rfl, rfl, fun _ => hinitial, fun _ _ => hrefreshed⟩,
          ⟨s₁, s₂, calls, hpreExecuted, hbody, rfl, rfl, hincrements⟩, ?_⟩
        rw [(applyBalanceIncrements_keeps rollingFinality_ignores ext _).error hincrements]
        exact @trackedState_tracker δ source config block c s
          (importedBlock block initial refreshed s₂.receipts calls.2.2) rfl rfl s₂ rfl
          (hs₂.trans (htracker s₂.receipts calls.2.2))

theorem importBlock_ok (haura : config.chainSpec.auraConfig = some c)
    (hpre : config.chainSpec.isParisActiveAtBlock block.header.number = false)
    {result : BlockExecutionResult} {t : ExecState δ}
    (hrun : importBlock source config ext block s = .ok result t) :
    ∃ b : AuraBlock, Shows source config ext block c s b .finished ∧
      b.receipts = result.receipts ∧ LogsRewards source config ext block s b ∧
      t.rollingFinality = liveBlock c b s.rollingFinality := by
  rw [importBlock_run, executeBlock_eq] at hrun
  obtain ⟨_, s₁, hpreExecuted, hrest⟩ := bind_ok.mp hrun
  obtain ⟨initial, refreshed, hinitial, hrefreshed, htracker⟩ :=
    applyAuraChanges_ok haura hpre hpreExecuted
  obtain ⟨calls, s₂, hbody, hsettle⟩ := bind_ok.mp hrest
  have hs₂ := (executeBody_keeps ext _ _).ok hbody
  rw [settle_run haura hpre] at hsettle
  cases hincrements : applyBalanceIncrements ext calls.2.1
      (trackedState (blockExecutor source config block s) (preMergeContext block c s)
        calls.2.2 s₂) with
  | error e u =>
    rw [hincrements] at hsettle
    cases hsettle
  | ok _ u =>
    rw [hincrements] at hsettle
    cases hsettle
    refine ⟨importedBlock block initial refreshed s₂.receipts calls.2.2,
      ⟨rfl, rfl, fun _ => hinitial, fun _ _ => hrefreshed⟩, ?_,
      ⟨s₁, s₂, calls, hpreExecuted, hbody, rfl⟩, ?_⟩
    · exact ((applyBalanceIncrements_keeps receipts_ignores ext _).ok hincrements).symm
    · rw [(applyBalanceIncrements_keeps rollingFinality_ignores ext _).ok hincrements]
      exact @trackedState_tracker δ source config block c s
        (importedBlock block initial refreshed s₂.receipts calls.2.2) rfl rfl s₂ rfl
        (hs₂.trans (htracker s₂.receipts calls.2.2))

theorem contextForBlock_address (haura : config.chainSpec.auraConfig = some c)
    (hpre : config.chainSpec.isParisActiveAtBlock block.header.number = false) {b : AuraBlock}
    (hb : b.number = block.header.number) (rf : RollingFinality) :
    (contextForBlock config block rf).1.aura.bind AuraExecutionCtx.finalizeChangeAddress =
      finalizeChangeAddress c b rf := by
  rw [(contextForBlock_preMerge haura hpre rf).1, finalizeChangeAddress, blockContext, hb]
  rfl

def retryBlock (source : EnvSource) (config : GnosisEvmConfig) (ext : Externals δ ε)
    (block : GnosisBlock) (s t : ExecState δ) :
    EStateM.Result Fault (ExecState δ) BlockExecutionResult :=
  importBlock source config ext block { s with rollingFinality := t.rollingFinality }

theorem failedImport_tracker (haura : config.chainSpec.auraConfig = some c)
    (hpre : config.chainSpec.isParisActiveAtBlock block.header.number = false) {fault : Fault}
    {t : ExecState δ} (hrun : importBlock source config ext block s = .error fault t) :
    ∃ (b : AuraBlock) (m : Milestone), Shows source config ext block c s b m ∧
      StoppedAfter source config ext block c s b fault t m ∧
      t.rollingFinality = m.tracker c b s.rollingFinality ∧
      ((contextForBlock config block t.rollingFinality).1.aura.bind
          AuraExecutionCtx.finalizeChangeAddress = boundaryCall c b) ∧
      ((contextForBlock config block t.rollingFinality).1.aura.bind
          AuraExecutionCtx.finalizeChangeAddress =
            (contextForBlock config block s.rollingFinality).1.aura.bind
              AuraExecutionCtx.finalizeChangeAddress ↔
        consumedSlot c b s.rollingFinality = none) ∧
      (m.Idle c b s.rollingFinality → t.rollingFinality = s.rollingFinality ∧
        retryBlock source config ext block s t = importBlock source config ext block s) := by
  obtain ⟨b, m, hshows, hstopped, htracker⟩ := importBlock_error haura hpre hrun
  have hretry : (contextForBlock config block t.rollingFinality).1.aura.bind
      AuraExecutionCtx.finalizeChangeAddress = boundaryCall c b := by
    rw [contextForBlock_address haura hpre hshows.number, htracker, m.address_tracker]
  refine ⟨b, m, hshows, hstopped, htracker, hretry, ?_, ?_⟩
  · rw [hretry, contextForBlock_address haura hpre hshows.number]
    exact boundaryCall_eq_address_iff
  · intro hidle
    have hsame : t.rollingFinality = s.rollingFinality := by
      rw [htracker, Milestone.tracker_of_idle hidle]
    refine ⟨hsame, ?_⟩
    rw [retryBlock, hsame]

end PreMerge

section Reference

def referenceSource : EnvSource where
  mainnetGasParams := fun _ => .eip1283
  isPreMerge := fun header => header.mixHash.isNone
  revmSpec := fun _ _ => .MERGE
  blobParamsAtTimestamp := fun _ _ => none
  calcBlobFee := fun _ _ => 0

def posdaoNode : GnosisEvmConfig where
  chainSpec :=
    { chainId := 100
      genesis := ⟨∅⟩
      hardforks := []
      depositContract := some 11#160
      balancerHardforkConfig := none
      auraConfig := some (contractFrom 1 9#160 0) }
  feeCollectorAddress := 3#160
  blockRewardsAddress := 5#160
  headerLookup := fun _ => none

def answeringTransact : Transact Unit String := fun _ _ _ _ tx =>
  .ok
    { result := .success 0 [] (.call
        (if tx.data = GET_VALIDATORS_SELECTOR then encodeAddressArray [4#160] else []))
      state := ∅ }

def failingTransact : Transact Unit String := fun _ _ _ _ _ => .error "database read failed"

def nodeExternals (transact : Transact Unit String) : Externals Unit String where
  transact := transact
  basic := fun _ _ => .ok none
  commit := fun _ _ => ()
  incrementBalances := fun _ _ => some ()
  balanceIncrementState := fun _ _ => .ok ∅
  blockhashesContractCall := fun _ _ _ => (none, .ok ())
  beaconRootContractCall := fun _ _ _ => (none, .ok ())
  withdrawalRequestsContractCall := fun _ _ => (none, .ok [])
  consolidationRequestsContractCall := fun _ _ => (none, .ok [])
  parseDepositsFromReceipts := fun _ _ => .ok []
  executeSystemWithdrawalsCall := fun _ _ _ => []
  rewardCall := fun _ _ => []
  rewardReturns := fun _ => .ok ([], [])
  hashSlow := fun _ => KECCAK_EMPTY
  txEnv := fun _ => systemCallTx SYSTEM_ADDRESS 0#160 []
  buildReceipt := fun txType result cumulative =>
    match result with
    | .success _ logs _ => ⟨txType, true, cumulative, logs⟩
    | _ => ⟨txType, false, cumulative, []⟩
  displayError := id
  debugResult := fun _ => ""

def boundaryBlock : GnosisBlock :=
  ⟨{ (default : GnosisHeader) with number := 5, beneficiary := 1#160 }, [], none⟩

def scheduledState : ExecState Unit where
  db := ()
  stateHook := none
  rollingFinality :=
    { (RollingFinality.new []).setValidators [1#160, 2#160, 3#160] with
      finalizeChangeAt := some (5, 9#160) }
  receipts := []
  gasUsed := 0
  blobGasUsed := 0

theorem failedImport_tracker_scheduled :
    ∃ (fault : Fault) (t : ExecState Unit),
      importBlock referenceSource posdaoNode (nodeExternals failingTransact) boundaryBlock
        scheduledState = .error fault t ∧
      ∃ (b : AuraBlock) (m : Milestone),
        Shows referenceSource posdaoNode (nodeExternals failingTransact) boundaryBlock
          (contractFrom 1 9#160 0) scheduledState b m ∧
        StoppedAfter referenceSource posdaoNode (nodeExternals failingTransact) boundaryBlock
          (contractFrom 1 9#160 0) scheduledState b fault t m ∧
        t.rollingFinality =
          m.tracker (contractFrom 1 9#160 0) b scheduledState.rollingFinality := by
  obtain ⟨fault, t, hrun, -⟩ := exists_error
    (r := importBlock referenceSource posdaoNode (nodeExternals failingTransact) boundaryBlock
      scheduledState) (by decide +kernel)
  obtain ⟨b, m, hshows, hstopped, htracker, -⟩ :=
    failedImport_tracker (c := contractFrom 1 9#160 0) rfl (by decide +kernel) hrun
  exact ⟨fault, t, hrun, b, m, hshows, hstopped, htracker⟩

def trackerAfter (transact : Transact Unit String) (s : ExecState Unit) : RollingFinality :=
  (final (importBlock referenceSource posdaoNode (nodeExternals transact) boundaryBlock
    s)).rollingFinality

/-- A failing `finalizeChange()` loses the scheduled call: the retry, with an answering contract,
carries no call and keeps the old validators. -/
theorem failedImport_loses_call :
    failed (importBlock referenceSource posdaoNode (nodeExternals failingTransact) boundaryBlock
        scheduledState) = true ∧
      scheduledState.rollingFinality.finalizeChangeAt = some (5, 9#160) ∧
      (trackerAfter failingTransact scheduledState).finalizeChangeAt = none ∧
      (contextForBlock posdaoNode boundaryBlock
        scheduledState.rollingFinality).1.aura.bind AuraExecutionCtx.finalizeChangeAddress =
          some 9#160 ∧
      (contextForBlock posdaoNode boundaryBlock
        (trackerAfter failingTransact scheduledState)).1.aura.bind
          AuraExecutionCtx.finalizeChangeAddress = none ∧
      (trackerAfter answeringTransact scheduledState).validators = [4#160] ∧
      (trackerAfter answeringTransact { scheduledState with
        rollingFinality := trackerAfter failingTransact scheduledState }).validators =
          [1#160, 2#160, 3#160] := by
  decide +kernel

end Reference

end RethGnosis
