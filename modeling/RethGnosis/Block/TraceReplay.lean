import RethGnosis.Aura.Restart
import RethGnosis.Block.FailedImport

set_option autoImplicit false

/-!
# Replays of imported blocks beside the import

Clones of the configuration share one tracker. An import and the replays that block
tracing makes each hold its lock for one statement at a time, so a block is a worker
that goes through these statements, and the workers advance in any order. A replay ends
after `apply_pre_execution_changes`.
-/
namespace RethGnosis
open Fallible

/-- Where a block's execution is, between two of its accesses to the tracker. -/
inductive Stage where
  | contextBuilt
  | checked (empty : Bool)
  | initialized
  | preExecuted
  | recorded
deriving DecidableEq

structure Worker where
  block : AuraBlock
  ctx : AuraExecutionCtx
  stage : Stage

namespace Worker

def start (c : AuraConfig) (b : AuraBlock) (rf : RollingFinality) : Worker × RollingFinality :=
  let built := auraContextForBlock c b.number rf
  ({ block := b, ctx := built.1, stage := .contextBuilt }, built.2)

/-- The next access of a worker; `none` when it was the last one. -/
def advance (w : Worker) (rf : RollingFinality) : Option Worker × RollingFinality :=
  match w.stage with
  | .contextBuilt => (some { w with stage := .checked (needsInit w.ctx w.block.number rf) }, rf)
  | .checked empty =>
    (some { w with stage := .initialized },
      if empty then rf.setValidators w.block.initialValidators else rf)
  | .initialized =>
    (some { w with stage := .preExecuted },
      if w.ctx.finalizeChangeAddress.isSome && decide (w.ctx.posdaoTransition ≤ w.block.number) then
        rf.setValidators w.block.refreshedValidators
      else rf)
  | .preExecuted =>
    (some { w with stage := .recorded },
      recordInitiateChange w.ctx w.block.number w.block.receipts w.block.rewardLogs rf)
  | .recorded => (none, pushSigner w.ctx w.block.number w.block.beneficiary rf)

def preExecuting (w : Worker) : Bool :=
  match w.stage with
  | .contextBuilt => true
  | .checked _ => true
  | .initialized => true
  | .preExecuted => false
  | .recorded => false

end Worker

structure Importer where
  next : ℕ
  worker : Option Worker
  tracker : RollingFinality

inductive ImportStep where
  | start (b : AuraBlock)
  | advance

def importStep (c : AuraConfig) : ImportStep → Importer → Importer
  | .start b, s =>
    let started := Worker.start c b s.tracker
    { s with worker := some started.1, tracker := started.2 }
  | .advance, s =>
    match s.worker with
    | none => s
    | some w =>
      match w.advance s.tracker with
      | (some w', rf) => { s with worker := some w', tracker := rf }
      | (none, rf) => { next := s.next + 1, worker := none, tracker := rf }

structure Node where
  importer : Importer
  tracing : ℕ → Option Worker

inductive NodeStep where
  | imports (step : ImportStep)
  | startTrace (request : ℕ) (b : AuraBlock)
  | advanceTrace (request : ℕ)

def Node.withTracker (s : Node) (request : ℕ) (traced : Option Worker × RollingFinality) :
    Node where
  importer := { s.importer with tracker := traced.2 }
  tracing := Function.update s.tracing request traced.1

def nodeStep (c : AuraConfig) : NodeStep → Node → Node
  | .imports step, s => { s with importer := importStep c step s.importer }
  | .startTrace request b, s =>
    let started := Worker.start c b s.importer.tracker
    s.withTracker request (some started.1, started.2)
  | .advanceTrace request, s =>
    match s.tracing request with
    | none => s
    | some w => s.withTracker request (w.advance s.importer.tracker)

/-- Blocks are imported in order and one at a time, and only imported ones are replayed. -/
def Legal (step : NodeStep) (s : Node) : Prop :=
  match step with
  | .imports (.start b) => s.importer.worker.isNone = true ∧ b.number = s.importer.next
  | .imports .advance => s.importer.worker.isSome = true
  | .startTrace _ b => b.number < s.importer.next
  | .advanceTrace request => (s.tracing request).any Worker.preExecuting = true

/-- A replay does not reach `set_validators`: it found a list in place, and its block is no
POSDAO boundary block. -/
def Quiet (c : AuraConfig) (step : NodeStep) (s : Node) : Prop :=
  match step with
  | .imports _ => True
  | .startTrace _ _ => True
  | .advanceTrace request => ∀ w ∈ s.tracing request, w.stage ≠ .checked true ∧
      (w.stage = .initialized → c.posdaoTransition ≤ w.block.number → boundaryCall c w.block = none)

instance (step : NodeStep) (s : Node) : Decidable (Legal step s) :=
  match step with
  | .imports (.start b) =>
    inferInstanceAs (Decidable (s.importer.worker.isNone = true ∧ b.number = s.importer.next))
  | .imports .advance => inferInstanceAs (Decidable (s.importer.worker.isSome = true))
  | .startTrace _ b => inferInstanceAs (Decidable (b.number < s.importer.next))
  | .advanceTrace request =>
    inferInstanceAs (Decidable ((s.tracing request).any Worker.preExecuting = true))

instance (c : AuraConfig) (step : NodeStep) (s : Node) : Decidable (Quiet c step s) :=
  match step with
  | .imports _ => inferInstanceAs (Decidable True)
  | .startTrace _ _ => inferInstanceAs (Decidable True)
  | .advanceTrace request =>
    inferInstanceAs (Decidable (∀ w ∈ s.tracing request, w.stage ≠ .checked true ∧
      (w.stage = .initialized → c.posdaoTransition ≤ w.block.number →
        boundaryCall c w.block = none)))

def importSteps (b : AuraBlock) : List ImportStep :=
  .start b :: List.replicate 5 .advance

def traceSteps (request : ℕ) (b : AuraBlock) : List NodeStep :=
  .startTrace request b :: List.replicate 3 (.advanceTrace request)

/-- Statement by statement, an import is one step of a live run. -/
theorem run_importSteps (c : AuraConfig) (b : AuraBlock) (n : ℕ) (rf : RollingFinality) :
    Run.run (importStep c) (importSteps b) ⟨n, none, rf⟩ = ⟨n + 1, none, liveBlock c b rf⟩ := rfl

theorem run_imports (c : AuraConfig) (bs : List AuraBlock) (n : ℕ) (rf : RollingFinality) :
    Run.run (importStep c) (bs.flatMap importSteps) ⟨n, none, rf⟩ =
      ⟨n + bs.length, none, runLive c bs rf⟩ := by
  induction bs generalizing n rf with
  | nil => rfl
  | cons b rest ih =>
    rw [List.flatMap_cons, Run.run_append, run_importSteps, ih, List.length_cons,
      show n + 1 + rest.length = n + (rest.length + 1) by omega]
    rfl

@[simp] theorem Node.withTracker_tracing (s : Node) (request : ℕ)
    (traced : Option Worker × RollingFinality) :
    (s.withTracker request traced).tracing request = traced.1 := Function.update_self _ _ _

@[simp] theorem Node.withTracker_tracker (s : Node) (request : ℕ)
    (traced : Option Worker × RollingFinality) :
    (s.withTracker request traced).importer.tracker = traced.2 := rfl

theorem run_traceSteps_tracker (c : AuraConfig) (b : AuraBlock) (request : ℕ) (s : Node) :
    (Run.run (nodeStep c) (traceSteps request b) s).importer.tracker =
      afterPreExecution c b s.importer.tracker := by
  simp only [traceSteps, List.replicate, Run.run, nodeStep, Worker.start, Worker.advance,
    Node.withTracker_tracing, Node.withTracker_tracker]
  rfl

/-- What a replay runs: `context_for_block`, then `apply_pre_execution_changes`. -/
def traceExecution {δ ε : Type} (source : EnvSource) (config : GnosisEvmConfig)
    (ext : Externals δ ε) (block : GnosisBlock) (s : ExecState δ) :
    EStateM.Result Fault (ExecState δ) Unit :=
  applyPreExecutionChanges ext (blockExecutor source config block s) (contextState config block s)

theorem traceExecution_ok {δ ε : Type} {source : EnvSource} {config : GnosisEvmConfig}
    {ext : Externals δ ε} {block : GnosisBlock} {c : AuraConfig} {s t : ExecState δ}
    (haura : config.chainSpec.auraConfig = some c)
    (hpre : config.chainSpec.isParisActiveAtBlock block.header.number = false)
    (hrun : traceExecution source config ext block s = .ok () t) (request : ℕ) (node : Node)
    (htracker : node.importer.tracker = s.rollingFinality) :
    ∃ initial refreshed : List Address,
      InitialAnswer ext (blockExecutor source config block s) (preMergeContext block c s)
        (contextState config block s) initial ∧
      RefreshedAnswer ext (blockExecutor source config block s) (preMergeContext block c s)
        (contextState config block s) refreshed ∧
      t.rollingFinality = (Run.run (nodeStep c) (traceSteps request
        (importedBlock block initial refreshed [] [])) node).importer.tracker := by
  rw [traceExecution, applyPreExecutionChanges] at hrun
  obtain ⟨_, s₁, haura₁, hrest⟩ := bind_ok.mp hrun
  obtain ⟨initial, refreshed, hinitial, hrefreshed, ht⟩ := applyAuraChanges_ok haura hpre haura₁
  have hkeeps : KeepsTracker (do
      applyBalancerRewrites ext (blockExecutor source config block s)
      upstreamCall ext (blockExecutor source config block s) .preBlockBlockHashesContract
        (ext.blockhashesContractCall (blockExecutor source config block s).ctx.parentHash)
      upstreamCall ext (blockExecutor source config block s) .preBlockBeaconRootContract
        (ext.beaconRootContractCall
          (blockExecutor source config block s).ctx.parentBeaconBlockRoot)) :=
    (applyBalancerRewrites_keeps rollingFinality_ignores ext _).bind (fun _ =>
      (upstreamCall_keeps rollingFinality_ignores ext _ _ _).bind
        (fun _ => upstreamCall_keeps rollingFinality_ignores ext _ _ _))
  refine ⟨initial, refreshed, hinitial, hrefreshed, ?_⟩
  rw [hkeeps.ok hrest, run_traceSteps_tracker, htracker]
  exact ht [] []

section Slot
variable {c : AuraConfig} {b : AuraBlock} {rf : RollingFinality} {w : Worker}

theorem dueSlot_afterContext_of_none {m : ℕ} (h : dueSlot rf m = none) :
    dueSlot (afterContext c b rf) m = none := by
  rw [afterContext_eq]
  split_ifs
  · rfl
  · exact h

theorem Worker.advance_some {w' : Worker} (h : (w.advance rf).1 = some w') :
    w'.block = w.block ∧ w'.ctx = w.ctx := by
  unfold Worker.advance at h
  split at h <;> simp only [Option.some.injEq, reduceCtorEq] at h <;> rw [← h] <;>
    exact ⟨rfl, rfl⟩

theorem Worker.slot_advance (h : w.preExecuting = true) :
    (w.advance rf).2.finalizeChangeAt = rf.finalizeChangeAt := by
  obtain ⟨block, ctx, stage⟩ := w
  cases stage with
  | contextBuilt => rfl
  | checked empty => cases empty <;> rfl
  | initialized =>
    simp only [Worker.advance]
    split_ifs <;> rfl
  | preExecuted => contradiction
  | recorded => contradiction

/-- No access of a worker makes a call due at its own block or an earlier one. -/
theorem Worker.dueSlot_advance {m : ℕ} (hm : m ≤ w.block.number) (h : dueSlot rf m = none) :
    dueSlot (w.advance rf).2 m = none := by
  cases hexecuting : w.preExecuting with
  | true => exact (dueSlot_congr (Worker.slot_advance hexecuting) m).trans h
  | false =>
    obtain ⟨block, ctx, stage⟩ := w
    cases stage with
    | contextBuilt => contradiction
    | checked empty => contradiction
    | initialized => contradiction
    | preExecuted => exact dueSlot_recordInitiateChange hm ctx block.receipts block.rewardLogs h
    | recorded =>
      simp only [Worker.advance, pushSigner]
      split_ifs
      · exact dueSlot_push hm block.beneficiary h
      · exact h

end Slot

/-- A replay in progress: its block is imported, and its context is the boundary rule's. -/
structure Traced (c : AuraConfig) (next : ℕ) (w : Worker) : Prop where
  imported : w.block.number < next
  address : w.ctx.finalizeChangeAddress = boundaryCall c w.block
  posdao : w.ctx.posdaoTransition = c.posdaoTransition

/-- What holds between any two statements: no scheduled call is due at an imported block, or
at the block in progress, unless that is a boundary block. -/
structure NodeInv (c : AuraConfig) (s : Node) : Prop where
  notDue : ∀ m < s.importer.next, computeFinalizeChangeAddressFromValidators c.validators m = none →
    dueSlot s.importer.tracker m = none
  current : ∀ w, s.importer.worker = some w → w.block.number = s.importer.next ∧
    (boundaryCall c w.block = none → dueSlot s.importer.tracker w.block.number = none)
  traced : ∀ request w, s.tracing request = some w → Traced c s.importer.next w

section Node
variable {c : AuraConfig} {s : Node}

theorem NodeInv.consumedSlot_none (h : NodeInv c s) {b : AuraBlock}
    (hb : b.number < s.importer.next) : consumedSlot c b s.importer.tracker = none := by
  unfold consumedSlot
  split_ifs with hboundary
  · exact h.notDue b.number hb hboundary
  · rfl

theorem NodeInv.trace_address (h : NodeInv c s) {b : AuraBlock}
    (hb : b.number < s.importer.next) :
    finalizeChangeAddress c b s.importer.tracker = boundaryCall c b := by
  rw [finalizeChangeAddress_eq, h.consumedSlot_none hb]
  exact Option.or_none

theorem NodeInv.startTrace_tracker (h : NodeInv c s) {b : AuraBlock}
    (hb : b.number < s.importer.next) :
    (Worker.start c b s.importer.tracker).2 = s.importer.tracker :=
  afterContext_of_idle (h.consumedSlot_none hb)

theorem NodeInv.startImport (h : NodeInv c s) {b : AuraBlock} (hb : b.number = s.importer.next) :
    NodeInv c (nodeStep c (.imports (.start b)) s) := by
  refine ⟨?_, ?_, h.traced⟩
  · intro m hm hboundary
    exact dueSlot_afterContext_of_none (h.notDue m hm hboundary)
  · intro w hw
    have hstarted : (Worker.start c b s.importer.tracker).1 = w := Option.some.inj hw
    subst hstarted
    exact ⟨hb, fun hboundary => dueSlot_afterContext hboundary⟩

theorem NodeInv.advanceImport (h : NodeInv c s) :
    NodeInv c (nodeStep c (.imports .advance) s) := by
  cases hworker : s.importer.worker with
  | none =>
    have hsame : nodeStep c (.imports .advance) s = s := by
      simp only [nodeStep, importStep, hworker]
    rw [hsame]
    exact h
  | some w =>
    obtain ⟨hnumber, hcurrent⟩ := h.current w hworker
    have hkeeps : ∀ m < s.importer.next,
        computeFinalizeChangeAddressFromValidators c.validators m = none →
        dueSlot (w.advance s.importer.tracker).2 m = none := by
      intro m hm hboundary
      exact Worker.dueSlot_advance (by omega) (h.notDue m hm hboundary)
    have hkeepsCurrent : boundaryCall c w.block = none →
        dueSlot (w.advance s.importer.tracker).2 w.block.number = none := by
      intro hboundary
      exact Worker.dueSlot_advance le_rfl (hcurrent hboundary)
    cases hadvance : w.advance s.importer.tracker with
    | mk rest rf =>
      rw [hadvance] at hkeeps hkeepsCurrent
      cases rest with
      | some w' =>
        have hstep : nodeStep c (.imports .advance) s =
            { s with importer := { s.importer with worker := some w', tracker := rf } } := by
          simp only [nodeStep, importStep, hworker, hadvance]
        obtain ⟨hblock, -⟩ := @Worker.advance_some s.importer.tracker w w' (by rw [hadvance])
        rw [hstep]
        refine ⟨hkeeps, ?_, h.traced⟩
        intro u hu
        rw [← Option.some.inj hu, hblock]
        exact ⟨hnumber, hkeepsCurrent⟩
      | none =>
        have hstep : nodeStep c (.imports .advance) s =
            { s with importer := ⟨s.importer.next + 1, none, rf⟩ } := by
          simp only [nodeStep, importStep, hworker, hadvance]
        rw [hstep]
        refine ⟨?_, ?_, ?_⟩
        · intro m hm hboundary
          rcases Nat.lt_succ_iff_lt_or_eq.mp hm with hlt | heq
          · exact hkeeps m hlt hboundary
          · subst heq
            rw [← hnumber] at hboundary ⊢
            exact hkeepsCurrent hboundary
        · intro u hu
          contradiction
        · intro request u hu
          have htraced := h.traced request u hu
          exact ⟨Nat.lt_succ_of_lt htraced.imported, htraced.address, htraced.posdao⟩

theorem NodeInv.startTrace (h : NodeInv c s) {request : ℕ} {b : AuraBlock}
    (hb : b.number < s.importer.next) : NodeInv c (nodeStep c (.startTrace request b) s) := by
  have htracker := h.startTrace_tracker hb
  refine ⟨?_, ?_, ?_⟩
  · intro m hm hboundary
    exact (congrArg (fun rf => dueSlot rf m) htracker).trans (h.notDue m hm hboundary)
  · intro w hw
    obtain ⟨hnumber, hcurrent⟩ := h.current w hw
    refine ⟨hnumber, fun hboundary => ?_⟩
    exact (congrArg (fun rf => dueSlot rf w.block.number) htracker).trans (hcurrent hboundary)
  · intro r w hw
    by_cases hr : r = request
    · subst hr
      have hstarted : (Worker.start c b s.importer.tracker).1 = w :=
        Option.some.inj ((Node.withTracker_tracing s r _).symm.trans hw)
      subst hstarted
      exact ⟨hb, h.trace_address hb, blockContext_posdao c b s.importer.tracker⟩
    · refine h.traced r w ?_
      rw [← hw]
      exact (Function.update_of_ne hr _ _).symm

theorem NodeInv.advanceTrace (h : NodeInv c s) {request : ℕ}
    (hlegal : Legal (.advanceTrace request) s) :
    NodeInv c (nodeStep c (.advanceTrace request) s) := by
  obtain ⟨w, hw, hexecuting⟩ := (Option.any_eq_true _ _).mp hlegal
  have htraced := h.traced request w hw
  have hslot : ∀ m, dueSlot (w.advance s.importer.tracker).2 m = dueSlot s.importer.tracker m :=
    dueSlot_congr (Worker.slot_advance hexecuting)
  have hstep : nodeStep c (.advanceTrace request) s =
      s.withTracker request (w.advance s.importer.tracker) := by
    simp only [nodeStep, hw]
  rw [hstep]
  refine ⟨?_, ?_, ?_⟩
  · intro m hm hboundary
    exact (hslot m).trans (h.notDue m hm hboundary)
  · intro u hu
    obtain ⟨hu, hcurrent⟩ := h.current u hu
    exact ⟨hu, fun hboundary => (hslot _).trans (hcurrent hboundary)⟩
  · intro r u hu
    by_cases hr : r = request
    · subst hr
      rw [Node.withTracker_tracing] at hu
      obtain ⟨hblock, hctx⟩ := Worker.advance_some hu
      refine ⟨?_, ?_, ?_⟩
      · rw [hblock]
        exact htraced.imported
      · rw [hblock, hctx]
        exact htraced.address
      · rw [hctx]
        exact htraced.posdao
    · refine h.traced r u ?_
      rw [← hu]
      exact (Function.update_of_ne hr _ _).symm

theorem NodeInv.nodeStep {step : NodeStep} (h : NodeInv c s) (hlegal : Legal step s) :
    NodeInv c (nodeStep c step s) := by
  cases step with
  | imports step =>
    cases step with
    | start b => exact h.startImport hlegal.2
    | advance => exact h.advanceImport
  | startTrace request b => exact h.startTrace hlegal
  | advanceTrace request => exact h.advanceTrace hlegal

end Node

def StartTracker (c : AuraConfig) (n : ℕ) (rf : RollingFinality) : Prop :=
  rf = .new [] ∨ ∃ scanner head, n = head + 1 ∧ rf = restartedTracker scanner c head

def freshNode (n : ℕ) (rf : RollingFinality) : Node where
  importer := ⟨n, none, rf⟩
  tracing := fun _ => none

theorem dueSlot_replayBlock (scanner : ChainScanner) (contract : Address) (posdaoTransition n : ℕ)
    (sim : RollingFinality) :
    dueSlot (replayBlock scanner contract posdaoTransition n sim) n = none := by
  have htaken : dueSlot (sim.takeFinalizeChange n).2 n = none := by
    rw [takeFinalizeChange_eq]
    cases hdue : dueSlot sim n with
    | none => exact hdue
    | some slot => rfl
  unfold replayBlock
  cases scanner.headerByNumber n with
  | none => exact htaken
  | some header =>
    refine dueSlot_push le_rfl header.beneficiary ?_
    split_ifs
    · exact (dueSlot_congr rfl n).trans htaken
    · exact dueSlot_of_later (Nat.lt_succ_self n) rfl
    · exact htaken

theorem dueSlot_restartedTracker (scanner : ChainScanner) (c : AuraConfig) (head : ℕ) :
    dueSlot (restartedTracker scanner c head) head = none := by
  unfold restartedTracker
  simp only
  split_ifs
  · cases c.validators.contractAddressAt head with
    | none => rfl
    | some contract =>
      have hwindow : lookbackWindow head = List.range' (lookbackStart head)
          (head - lookbackStart head) ++ [head] := by
        have hstart : lookbackStart head ≤ head := Nat.sub_le _ _
        have hlength : head + 1 - lookbackStart head = head - lookbackStart head + 1 := by omega
        have hlast : lookbackStart head + (head - lookbackStart head) = head := by omega
        rw [lookbackWindow, hlength, List.range'_1_concat, hlast]
      refine (@dueSlot_congr (replay scanner head contract c.posdaoTransition) _ rfl head).trans ?_
      rw [replay, hwindow, Run.run_append]
      exact dueSlot_replayBlock scanner contract c.posdaoTransition head _
  · rfl

theorem StartTracker.nodeInv {c : AuraConfig} {n : ℕ} {rf : RollingFinality}
    (h : StartTracker c n rf) : NodeInv c (freshNode n rf) := by
  refine ⟨?_, ?_, ?_⟩
  · intro m hm _
    rcases h with rfl | ⟨scanner, head, rfl, rfl⟩
    · rfl
    · exact dueSlot_of_le (Nat.le_of_lt_succ hm) (dueSlot_restartedTracker scanner c head)
  · intro w hw
    contradiction
  · intro request w hw
    contradiction

def importOf : NodeStep → Option ImportStep
  | .imports step => some step
  | .startTrace _ _ => none
  | .advanceTrace _ => none

def importVisits (c : AuraConfig) (steps : List NodeStep) (s : Node) :
    List (ImportStep × Importer) :=
  (Run.visits (nodeStep c) steps s).filterMap
    (fun v => (importOf v.1).map (fun step => (step, v.2.importer)))

def importAddresses (c : AuraConfig) (visits : List (ImportStep × Importer)) :
    List (Option Address) :=
  visits.filterMap (fun v =>
    match v.1 with
    | .start b => some (finalizeChangeAddress c b v.2.tracker)
    | .advance => none)

theorem NodeInv.quiet_step {c : AuraConfig} {s : Node} {step : NodeStep} (h : NodeInv c s)
    (hlegal : Legal step s) (hquiet : Quiet c step s) (htrace : importOf step = none) :
    (RethGnosis.nodeStep c step s).importer = s.importer := by
  cases step with
  | imports step => contradiction
  | startTrace request b =>
    exact congrArg (fun rf => { s.importer with tracker := rf }) (h.startTrace_tracker hlegal)
  | advanceTrace request =>
    obtain ⟨w, hw, hexecuting⟩ := (Option.any_eq_true _ _).mp hlegal
    obtain ⟨hchecked, hboundary⟩ := hquiet w hw
    have htraced := h.traced request w hw
    have hkeeps : (w.advance s.importer.tracker).2 = s.importer.tracker := by
      obtain ⟨block, ctx, stage⟩ := w
      cases stage with
      | contextBuilt => rfl
      | checked empty =>
        cases empty with
        | true => exact absurd rfl hchecked
        | false => rfl
      | initialized =>
        simp only [Worker.advance]
        split_ifs with hcall
        · rw [htraced.address, htraced.posdao, Bool.and_eq_true, decide_eq_true_eq] at hcall
          rw [hboundary rfl hcall.2] at hcall
          exact absurd hcall.1 Bool.false_ne_true
        · rfl
      | preExecuted => contradiction
      | recorded => contradiction
    simp only [RethGnosis.nodeStep, hw]
    exact congrArg (fun rf => { s.importer with tracker := rf }) hkeeps

theorem replays_and_import (c : AuraConfig) (n : ℕ) (rf : RollingFinality)
    (steps : List NodeStep) (hstart : StartTracker c n rf)
    (hlegal : ∀ v ∈ Run.visits (nodeStep c) steps (freshNode n rf), Legal v.1 v.2) :
    (∀ v ∈ Run.visits (nodeStep c) steps (freshNode n rf), ∀ request b,
      v.1 = .startTrace request b →
        consumedSlot c b v.2.importer.tracker = none ∧
        finalizeChangeAddress c b v.2.importer.tracker = boundaryCall c b ∧
        ∀ u ∈ Run.visits (nodeStep c) steps (freshNode n rf), ∀ imported,
          u.1 = .imports (.start imported) → imported.number = b.number →
            (finalizeChangeAddress c b v.2.importer.tracker =
                finalizeChangeAddress c imported u.2.importer.tracker ↔
              consumedSlot c imported u.2.importer.tracker = none)) ∧
    ((∀ v ∈ Run.visits (nodeStep c) steps (freshNode n rf), Quiet c v.1 v.2) →
      (Run.run (nodeStep c) steps (freshNode n rf)).importer =
          Run.run (importStep c) (steps.filterMap importOf) ⟨n, none, rf⟩ ∧
        importAddresses c (importVisits c steps (freshNode n rf)) =
          importAddresses c
            (Run.visits (importStep c) (steps.filterMap importOf) ⟨n, none, rf⟩)) := by
  have hinv : ∀ v ∈ Run.visits (nodeStep c) steps (freshNode n rf), NodeInv c v.2 :=
    (Run.invariant_guarded (fun _ _ h hl => h.nodeStep hl) hstart.nodeInv hlegal).2
  refine ⟨?_, ?_⟩
  · intro v hv request b hb
    have hnumber : b.number < v.2.importer.next := by
      have hstep := hlegal v hv
      rw [hb] at hstep
      exact hstep
    have haddress := (hinv v hv).trace_address hnumber
    refine ⟨(hinv v hv).consumedSlot_none hnumber, haddress, ?_⟩
    intro u _ imported _ hsame
    have hboundary : boundaryCall c b = boundaryCall c imported := by
      unfold boundaryCall
      rw [hsame]
    rw [haddress, hboundary]
    exact boundaryCall_eq_address_iff
  · intro hquiet
    have hidle : ∀ v ∈ Run.visits (nodeStep c) steps (freshNode n rf), importOf v.1 = none →
        (nodeStep c v.1 v.2).importer = v.2.importer := by
      intro v hv
      exact (hinv v hv).quiet_step (hlegal v hv) (hquiet v hv)
    have himport : ∀ (step : NodeStep) (k : ImportStep) (s : Node), importOf step = some k →
        (nodeStep c step s).importer = importStep c k s.importer := by
      intro step k s hk
      cases step with
      | imports step =>
        rw [← Option.some.inj hk]
        rfl
      | startTrace request b => contradiction
      | advanceTrace request => contradiction
    obtain ⟨hrun, hvisits⟩ := Run.skip_idle importOf Node.importer himport hidle
    exact ⟨hrun, congrArg (importAddresses c) hvisits⟩

def traceAddresses (c : AuraConfig) (steps : List NodeStep) (s : Node) : List (Option Address) :=
  (Run.visits (nodeStep c) steps s).filterMap (fun v =>
    match v.1 with
    | .imports _ => none
    | .startTrace _ b => some (finalizeChangeAddress c b v.2.importer.tracker)
    | .advanceTrace _ => none)

def importRun (bs : List AuraBlock) : List NodeStep := (bs.flatMap importSteps).map .imports

def announcedPast : List AuraBlock :=
  [turnBlock 1 1#160 false, turnBlock 2 1#160 false, turnBlock 3 1#160 true]

def finalizingBlocks : List AuraBlock := [turnBlock 4 2#160 false, turnBlock 5 1#160 false]

theorem replays_and_import_lateTrace :
    let c := contractFrom 1 9#160 0
    let steps := importRun (announcedPast ++ finalizingBlocks) ++
      traceSteps 0 (turnBlock 4 2#160 false)
    (Run.run (nodeStep c) steps (freshNode 1 (.new []))).importer =
      Run.run (importStep c) (steps.filterMap importOf) ⟨1, none, .new []⟩ :=
  ((replays_and_import (contractFrom 1 9#160 0) 1 (.new []) (importRun
    (announcedPast ++ finalizingBlocks) ++ traceSteps 0 (turnBlock 4 2#160 false)) (.inl rfl)
    (by decide +kernel)).2 (by decide +kernel)).1

/-- A replay of boundary block 2 loses the call of block 5, and a replay of block 5 is built
without the call its import made. -/
theorem replays_disturb_import :
    let c := contractFrom 1 9#160 0
    let boundary := importRun announcedPast ++ traceSteps 0 (turnBlock 2 1#160 false) ++
      importRun finalizingBlocks
    let scheduled := importRun (announcedPast ++ finalizingBlocks) ++
      traceSteps 0 (turnBlock 5 1#160 false)
    (∀ v ∈ Run.visits (nodeStep c) boundary (freshNode 1 (.new [])), Legal v.1 v.2) ∧
      importAddresses c (importVisits c boundary (freshNode 1 (.new []))) =
        [none, some 9#160, none, none, none] ∧
      importAddresses c
          (Run.visits (importStep c) (boundary.filterMap importOf) ⟨1, none, .new []⟩) =
        [none, some 9#160, none, none, some 9#160] ∧
      (∀ v ∈ Run.visits (nodeStep c) scheduled (freshNode 1 (.new [])), Legal v.1 v.2) ∧
      importAddresses c (importVisits c scheduled (freshNode 1 (.new []))) =
        [none, some 9#160, none, none, some 9#160] ∧
      traceAddresses c scheduled (freshNode 1 (.new [])) = [none] := by
  refine ⟨?_, ?_, ?_, ?_, ?_, ?_⟩ <;> decide +kernel

end RethGnosis
