import RethGnosis.Aura.LiveStep
import RethGnosis.Block.TrackerFrame

set_option autoImplicit false

/-!
# What an import does to the tracker, failed or not

The tracker is written at four milestones: when the context is built, after the
initial `getValidators()`, after the refresh that follows `finalizeChange()`, and in
`finish`. A failing import leaves it at the last milestone it completed; a successful
one ends in `liveBlock`.
-/
namespace RethGnosis
open Fallible

inductive Milestone where
  | context
  | initialized
  | preExecuted
  | finished

def afterInitialization (c : AuraConfig) (b : AuraBlock) (rf : RollingFinality) : RollingFinality :=
  if needsInit (blockContext c b rf) b.number (afterContext c b rf) then
    (afterContext c b rf).setValidators b.initialValidators
  else
    afterContext c b rf

def Milestone.tracker (c : AuraConfig) (b : AuraBlock) (rf : RollingFinality) :
    Milestone → RollingFinality
  | .context => afterContext c b rf
  | .initialized => afterInitialization c b rf
  | .preExecuted => afterPreExecution c b rf
  | .finished => liveBlock c b rf

def Milestone.Idle (c : AuraConfig) (b : AuraBlock) (rf : RollingFinality) : Milestone → Prop
  | .context => consumedSlot c b rf = none
  | .initialized =>
    consumedSlot c b rf = none ∧ needsInit (blockContext c b rf) b.number rf = false
  | .preExecuted =>
    consumedSlot c b rf = none ∧ needsInit (blockContext c b rf) b.number rf = false ∧
      (c.posdaoTransition ≤ b.number → callsFinalizeChange c b rf = false)
  | .finished =>
    consumedSlot c b rf = none ∧ needsInit (blockContext c b rf) b.number rf = false ∧
      (c.posdaoTransition ≤ b.number → callsFinalizeChange c b rf = false) ∧
      announces c b rf = false ∧
      (c.posdaoTransition ≤ b.number → rf.counts b.beneficiary = false)

section Milestones
variable {c : AuraConfig} {b : AuraBlock} {rf : RollingFinality}

theorem afterContext_of_idle (hslot : consumedSlot c b rf = none) : afterContext c b rf = rf := by
  rw [afterContext_eq, hslot]
  rfl

theorem afterInitialization_of_idle (hslot : consumedSlot c b rf = none)
    (hinit : needsInit (blockContext c b rf) b.number rf = false) :
    afterInitialization c b rf = rf := by
  rw [afterInitialization, afterContext_of_idle hslot, hinit]
  rfl

theorem afterPreExecution_eq_afterInitialization
    (hcalls : c.posdaoTransition ≤ b.number → callsFinalizeChange c b rf = false) :
    afterPreExecution c b rf = afterInitialization c b rf := by
  have haddress : (blockContext c b rf).finalizeChangeAddress.isSome = callsFinalizeChange c b rf :=
    finalizeChangeAddress_isSome c b rf
  unfold afterPreExecution afterInitialization
  simp only [haddress, blockContext_posdao, Bool.and_eq_true, decide_eq_true_eq]
  rw [if_neg]
  rintro ⟨hcall, hposdao⟩
  rw [hcalls hposdao] at hcall
  contradiction

theorem liveBlock_of_idle (hslot : consumedSlot c b rf = none)
    (hinit : needsInit (blockContext c b rf) b.number rf = false)
    (hcalls : c.posdaoTransition ≤ b.number → callsFinalizeChange c b rf = false)
    (hannounces : announces c b rf = false)
    (hcounts : c.posdaoTransition ≤ b.number → rf.counts b.beneficiary = false) :
    liveBlock c b rf = rf := by
  have hrecord : afterRecord c b rf = rf := by
    rw [afterRecord_of_not_announces hannounces, afterPreExecution_eq_afterInitialization hcalls,
      afterInitialization_of_idle hslot hinit]
  rw [liveBlock_eq, hrecord]
  split_ifs with hposdao
  · rw [RollingFinality.push_of_not_counts (hcounts hposdao)]
  · rfl

theorem Milestone.tracker_of_idle {m : Milestone} (h : m.Idle c b rf) : m.tracker c b rf = rf := by
  cases m with
  | context => exact afterContext_of_idle h
  | initialized => exact afterInitialization_of_idle h.1 h.2
  | preExecuted =>
    obtain ⟨hslot, hinit, hcalls⟩ := h
    exact (afterPreExecution_eq_afterInitialization hcalls).trans
      (afterInitialization_of_idle hslot hinit)
  | finished =>
    obtain ⟨hslot, hinit, hcalls, hannounces, hcounts⟩ := h
    exact liveBlock_of_idle hslot hinit hcalls hannounces hcounts

theorem dueSlot_congr {rf rf' : RollingFinality} (h : rf'.finalizeChangeAt = rf.finalizeChangeAt)
    (n : ℕ) : dueSlot rf' n = dueSlot rf n := by
  unfold dueSlot
  rw [h]

theorem popFinalized_slot (l : List (ℕ × Address)) (rf : RollingFinality) :
    (RollingFinality.popFinalized l rf).2.finalizeChangeAt = rf.finalizeChangeAt := by
  induction l generalizing rf with
  | nil => rfl
  | cons e rest ih =>
    unfold RollingFinality.popFinalized
    split_ifs
    · exact ih _
    · rfl

theorem dueSlot_of_later {m n : ℕ} {contract : Address} (hm : m < n)
    (hslot : rf.finalizeChangeAt = some (n, contract)) : dueSlot rf m = none := by
  simp only [dueSlot, hslot]
  rw [if_neg (by omega)]

theorem dueSlot_of_le {m n : ℕ} (hm : m ≤ n) (h : dueSlot rf n = none) : dueSlot rf m = none := by
  unfold dueSlot at h ⊢
  cases hslot : rf.finalizeChangeAt with
  | none => rfl
  | some slot =>
    obtain ⟨target, contract⟩ := slot
    simp only [hslot] at h ⊢
    split_ifs at h with htarget
    rw [if_neg (by omega)]

theorem dueSlot_scheduleTransitions {m n : ℕ} (hm : m ≤ n) (popped : List (ℕ × Address))
    (h : dueSlot rf m = none) :
    dueSlot (RollingFinality.scheduleTransitions n popped rf) m = none := by
  induction popped generalizing rf with
  | nil => exact h
  | cons e rest ih =>
    unfold RollingFinality.scheduleTransitions
    split
    · exact ih (dueSlot_of_later (Nat.lt_succ_of_le hm) rfl)
    · exact ih h

theorem dueSlot_push {m n : ℕ} (hm : m ≤ n) (signer : Address) (h : dueSlot rf m = none) :
    dueSlot (rf.push n signer).2 m = none := by
  unfold RollingFinality.push
  split_ifs
  · refine dueSlot_scheduleTransitions hm _ ?_
    rw [← h]
    exact dueSlot_congr (popFinalized_slot _ _) m
  · exact h

theorem dueSlot_afterContext (hboundary : boundaryCall c b = none) :
    dueSlot (afterContext c b rf) b.number = none := by
  rw [afterContext_eq]
  cases hslot : consumedSlot c b rf with
  | some slot => rfl
  | none =>
    rw [consumedSlot, if_pos hboundary] at hslot
    exact hslot

theorem afterPreExecution_keeps_slot (c : AuraConfig) (b : AuraBlock) (rf : RollingFinality) :
    (afterPreExecution c b rf).finalizeChangeAt = (afterContext c b rf).finalizeChangeAt := by
  rw [afterPreExecution_slot, afterContext_eq]
  split_ifs <;> rfl

theorem dueSlot_recordInitiateChange {m n : ℕ} (hm : m ≤ n) (ctx : AuraExecutionCtx)
    (receipts : List Receipt) (rewardLogs : List Log) (h : dueSlot rf m = none) :
    dueSlot (recordInitiateChange ctx n receipts rewardLogs rf) m = none := by
  unfold recordInitiateChange
  cases ctx.validatorContract with
  | none => exact h
  | some contract =>
    simp only
    split_ifs
    · exact (dueSlot_congr rfl m).trans h
    · exact dueSlot_of_later (Nat.lt_succ_of_le hm) rfl
    · exact h

theorem dueSlot_afterRecord (hboundary : boundaryCall c b = none) :
    dueSlot (afterRecord c b rf) b.number = none := by
  have hpre : dueSlot (afterPreExecution c b rf) b.number = none :=
    (dueSlot_congr (afterPreExecution_keeps_slot c b rf) b.number).trans
      (dueSlot_afterContext hboundary)
  exact dueSlot_recordInitiateChange le_rfl (blockContext c b rf) b.receipts b.rewardLogs hpre

theorem Milestone.dueSlot_tracker (m : Milestone) (hboundary : boundaryCall c b = none) :
    dueSlot (m.tracker c b rf) b.number = none := by
  have hcontext : dueSlot (afterContext c b rf) b.number = none :=
    dueSlot_afterContext hboundary
  cases m with
  | context => exact hcontext
  | initialized =>
    rw [Milestone.tracker, afterInitialization, ← hcontext]
    split_ifs
    · exact dueSlot_congr rfl b.number
    · rfl
  | preExecuted =>
    exact (dueSlot_congr (afterPreExecution_keeps_slot c b rf) b.number).trans hcontext
  | finished =>
    rw [Milestone.tracker, liveBlock_eq]
    split_ifs
    · exact dueSlot_push le_rfl b.beneficiary (dueSlot_afterRecord hboundary)
    · exact dueSlot_afterRecord hboundary

theorem Milestone.address_tracker (m : Milestone) :
    finalizeChangeAddress c b (m.tracker c b rf) = boundaryCall c b := by
  rw [finalizeChangeAddress_eq]
  cases hboundary : boundaryCall c b with
  | some addr => rfl
  | none =>
    rw [consumedSlot, if_pos hboundary, m.dueSlot_tracker hboundary]
    rfl

/-- A context that only meets the boundary rule agrees with the block's own one exactly where
that one consumed nothing. -/
theorem boundaryCall_eq_address_iff :
    boundaryCall c b = finalizeChangeAddress c b rf ↔ consumedSlot c b rf = none := by
  rw [finalizeChangeAddress_eq]
  unfold consumedSlot
  cases boundaryCall c b <;> cases dueSlot rf b.number <;> simp

end Milestones

section Refresh
variable {δ ε : Type} {ext : Externals δ ε} {executor : GnosisBlockExecutor}

def Answers (ext : Externals δ ε) (executor : GnosisBlockExecutor) (db : δ) (contract : Address)
    (validators : List Address) : Prop :=
  ∃ res : ResultAndState, transactSystemCall ext.transact (executor.evm db) SYSTEM_ADDRESS contract
      GET_VALIDATORS_SELECTOR = .ok res ∧
    decodeValidators ext executor.block.number res.result = .ok validators

theorem systemCallAndCommit_run (contract : Address) (data : Bytes) (s : ExecState δ) :
    systemCallAndCommit ext executor contract data s =
      match transactSystemCall ext.transact (executor.evm s.db) SYSTEM_ADDRESS contract data with
      | .error e => .error e s
      | .ok res => .ok res.result { s with db := ext.commit s.db res.state } := by
  unfold systemCallAndCommit
  rw [get_bind_run]
  cases transactSystemCall ext.transact (executor.evm s.db) SYSTEM_ADDRESS contract data <;> rfl

/-- The tracker is only written once the answer is decoded. -/
theorem refreshValidators_run {contract : Address} {s : ExecState δ}
    (haura : executor.ctx.aura.isSome = true) :
    (∃ e t, refreshValidatorsViaGetValidators ext executor contract executor.block.number s =
          .error e t ∧ t.rollingFinality = s.rollingFinality) ∨
      ∃ validators t, refreshValidatorsViaGetValidators ext executor contract
          executor.block.number s = .ok () t ∧ Answers ext executor s.db contract validators ∧
        t.rollingFinality = s.rollingFinality.setValidators validators := by
  unfold refreshValidatorsViaGetValidators
  rw [bind_run]
  simp only [EStateM.adaptExcept, systemCallAndCommit_run, haura, ↓reduceIte]
  cases hcall : transactSystemCall ext.transact (executor.evm s.db) SYSTEM_ADDRESS contract
      GET_VALIDATORS_SELECTOR with
  | error e => exact .inl ⟨_, _, rfl, rfl⟩
  | ok res =>
    cases hdecode : decodeValidators ext executor.block.number res.result with
    | error fault =>
      simp only [hdecode]
      exact .inl ⟨_, _, rfl, rfl⟩
    | ok validators =>
      simp only [hdecode]
      exact .inr ⟨validators, _, rfl, ⟨res, hcall, hdecode⟩, rfl⟩

variable {aura : AuraExecutionCtx}

/-- The list the initial `getValidators()` puts in force, if it is made. -/
def InitialAnswer (ext : Externals δ ε) (executor : GnosisBlockExecutor) (aura : AuraExecutionCtx)
    (s : ExecState δ) (validators : List Address) : Prop :=
  needsInit aura executor.block.number s.rollingFinality = true →
    ∃ contract, aura.validatorContract = some contract ∧
      Answers ext executor s.db contract validators

/-- The list the refresh after a POSDAO `finalizeChange()` puts in force, if it is made: the
contract is asked in the database that the committed call left. -/
def FinalizedAnswer (ext : Externals δ ε) (executor : GnosisBlockExecutor)
    (aura : AuraExecutionCtx) (db : δ) (validators : List Address) : Prop :=
  aura.posdaoTransition ≤ executor.block.number →
    ∀ contract, aura.finalizeChangeAddress = some contract →
      ∃ res : ResultAndState, transactSystemCall ext.transact (executor.evm db) SYSTEM_ADDRESS
          contract FINALIZE_CHANGE_SELECTOR = .ok res ∧
        Answers ext executor (ext.commit db res.state) contract validators

/-- The same from the state a block starts in: the call comes after the initial `getValidators()`
and the rewrites. -/
def RefreshedAnswer (ext : Externals δ ε) (executor : GnosisBlockExecutor)
    (aura : AuraExecutionCtx) (s : ExecState δ) (validators : List Address) : Prop :=
  ∃ s₁ s₂, initializeValidators ext executor aura executor.block.number s = .ok () s₁ ∧
    applyAuraRewrites ext aura s₁ = .ok () s₂ ∧
    FinalizedAnswer ext executor aura s₂.db validators

theorem initializeValidators_run (haura : executor.ctx.aura = some aura) (s : ExecState δ) :
    (∃ e t, initializeValidators ext executor aura executor.block.number s = .error e t ∧
        t.rollingFinality = s.rollingFinality) ∨
      ∃ validators t, initializeValidators ext executor aura executor.block.number s = .ok () t ∧
        InitialAnswer ext executor aura s validators ∧
        t.rollingFinality =
          if needsInit aura executor.block.number s.rollingFinality then
            s.rollingFinality.setValidators validators
          else s.rollingFinality := by
  unfold initializeValidators
  rw [get_bind_run]
  cases hcontract : aura.validatorContract with
  | none =>
    have hinit : needsInit aura executor.block.number s.rollingFinality = false := by
      simp [needsInit, hcontract]
    refine .inr ⟨[], s, rfl, ?_, by rw [hinit]; rfl⟩
    intro hneeds
    rw [hinit] at hneeds
    contradiction
  | some contract =>
    cases hinit : needsInit aura executor.block.number s.rollingFinality with
    | false =>
      refine .inr ⟨[], s, rfl, ?_, rfl⟩
      intro hneeds
      rw [hinit] at hneeds
      contradiction
    | true =>
      rcases @refreshValidators_run δ ε ext executor contract s (by rw [haura]; rfl) with
        ⟨e, t, hrun, ht⟩ | ⟨validators, t, hrun, hanswer, ht⟩
      · exact .inl ⟨e, t, hrun, ht⟩
      · exact .inr ⟨validators, t, hrun, fun _ => ⟨contract, hcontract, hanswer⟩, ht⟩

theorem callFinalizeChange_run (haura : executor.ctx.aura = some aura) (s : ExecState δ) :
    (∃ e t, callFinalizeChange ext executor aura executor.block.number s = .error e t ∧
        t.rollingFinality = s.rollingFinality) ∨
      ∃ validators t, callFinalizeChange ext executor aura executor.block.number s = .ok () t ∧
        FinalizedAnswer ext executor aura s.db validators ∧
        t.rollingFinality =
          if aura.finalizeChangeAddress.isSome &&
              decide (aura.posdaoTransition ≤ executor.block.number) then
            s.rollingFinality.setValidators validators
          else s.rollingFinality := by
  unfold callFinalizeChange
  cases hcontract : aura.finalizeChangeAddress with
  | none =>
    refine .inr ⟨[], s, rfl, ?_, rfl⟩
    intro _ contract hcall
    rw [hcontract] at hcall
    contradiction
  | some contract =>
    simp only [Option.isSome_some, Bool.true_and, decide_eq_true_eq]
    rw [bind_run]
    simp only [EStateM.adaptExcept, systemCallAndCommit_run]
    cases hcall : transactSystemCall ext.transact (executor.evm s.db) SYSTEM_ADDRESS contract
        FINALIZE_CHANGE_SELECTOR with
    | error e => exact .inl ⟨_, s, rfl, rfl⟩
    | ok res =>
      by_cases hposdao : aura.posdaoTransition ≤ executor.block.number
      · simp only [hposdao, ↓reduceIte]
        rcases @refreshValidators_run δ ε ext executor contract
            { s with db := ext.commit s.db res.state } (by rw [haura]; rfl) with
          ⟨e, t, hrun, ht⟩ | ⟨validators, t, hrun, hanswer, ht⟩
        · exact .inl ⟨e, t, hrun, ht⟩
        · refine .inr ⟨validators, t, hrun, ?_, ht⟩
          intro _ called hcalled
          rw [hcontract, Option.some.injEq] at hcalled
          subst hcalled
          exact ⟨res, hcall, hanswer⟩
      · simp only [hposdao, ↓reduceIte]
        exact .inr ⟨[], _, rfl, fun hle => absurd hle hposdao, rfl⟩

theorem applyAuraChanges_eq (haura : executor.ctx.aura = some aura) :
    applyAuraChanges ext executor = (do
      initializeValidators ext executor aura executor.block.number
      applyAuraRewrites ext aura
      callFinalizeChange ext executor aura executor.block.number) := by
  unfold applyAuraChanges
  rw [haura]

def finalizeChanges (ext : Externals δ ε) (executor : GnosisBlockExecutor)
    (aura : AuraExecutionCtx) : Exec δ Unit := do
  applyAuraRewrites ext aura
  callFinalizeChange ext executor aura executor.block.number

theorem finalizeChanges_run (haura : executor.ctx.aura = some aura) (s : ExecState δ) :
    (∃ e t, finalizeChanges ext executor aura s = .error e t ∧
        t.rollingFinality = s.rollingFinality) ∨
      ∃ validators u t, applyAuraRewrites ext aura s = .ok () u ∧
        finalizeChanges ext executor aura s = .ok () t ∧
        FinalizedAnswer ext executor aura u.db validators ∧
        t.rollingFinality =
          if aura.finalizeChangeAddress.isSome &&
              decide (aura.posdaoTransition ≤ executor.block.number) then
            s.rollingFinality.setValidators validators
          else s.rollingFinality := by
  have hkeeps := applyAuraRewrites_keeps rollingFinality_ignores ext aura
  unfold finalizeChanges
  rw [bind_run]
  cases hrewrites : applyAuraRewrites ext aura s with
  | error e t => exact .inl ⟨e, t, rfl, hkeeps.error hrewrites⟩
  | ok _ t =>
    rw [← hkeeps.ok hrewrites]
    rcases callFinalizeChange_run haura t with
      ⟨e, u, hrun, hu⟩ | ⟨validators, u, hrun, hanswer, hu⟩
    · exact .inl ⟨e, u, hrun, hu⟩
    · exact .inr ⟨validators, t, u, rfl, hrun, hanswer, hu⟩

end Refresh

section Body
variable {δ ε : Type} (ext : Externals δ ε) (executor : GnosisBlockExecutor)

/-- Everything between the AuRa changes and the tracker part of `finish`. -/
def executeBody (transactions : List TransactionSigned) :
    Exec δ (Requests × BalanceIncrements × List Log) := do
  applyBalancerRewrites ext executor
  upstreamCall ext executor .preBlockBlockHashesContract
    (ext.blockhashesContractCall executor.ctx.parentHash)
  upstreamCall ext executor .preBlockBeaconRootContract
    (ext.beaconRootContractCall executor.ctx.parentBeaconBlockRoot)
  transactions.forM (executeTransaction ext executor)
  finishCalls ext executor

def settle (calls : Requests × BalanceIncrements × List Log) : Exec δ BlockExecutionResult := do
  updateTracker executor calls.2.2
  applyBalanceIncrements ext calls.2.1
  let s ← get
  pure
    { receipts := s.receipts
      requests := calls.1
      gasUsed := s.gasUsed
      blobGasUsed := s.blobGasUsed }

theorem executeBlock_eq (transactions : List TransactionSigned) :
    executeBlock ext executor transactions = (do
      applyAuraChanges ext executor
      let calls ← executeBody ext executor transactions
      settle ext executor calls) := by
  simp only [executeBlock, applyPreExecutionChanges, finish, executeBody, settle, bind_assoc]

theorem executeBody_keeps (transactions : List TransactionSigned) :
    KeepsTracker (executeBody ext executor transactions) :=
  (applyBalancerRewrites_keeps rollingFinality_ignores ext executor).bind (fun _ =>
    (upstreamCall_keeps rollingFinality_ignores ext executor _ _).bind (fun _ =>
      (upstreamCall_keeps rollingFinality_ignores ext executor _ _).bind (fun _ =>
        (Keeps.forM (executeTransaction_keeps ext executor) transactions).bind (fun _ =>
          finishCalls_keeps rollingFinality_ignores ext executor))))

def trackedState (aura : AuraExecutionCtx) (rewardLogs : List Log) (s : ExecState δ) :
    ExecState δ :=
  { s with
    rollingFinality := finishTracker aura executor.block.number s.receipts rewardLogs
      executor.block.beneficiary s.rollingFinality }

theorem updateTracker_run {aura : AuraExecutionCtx} (haura : executor.ctx.aura = some aura)
    (rewardLogs : List Log) (s : ExecState δ) :
    updateTracker executor rewardLogs s = .ok () (trackedState executor aura rewardLogs s) := by
  unfold updateTracker
  rw [haura]
  rfl

end Body

end RethGnosis
