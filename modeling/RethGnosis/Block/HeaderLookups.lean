import RethGnosis.Block.Rewrites

set_option autoImplicit false

/-!
# A chain under two header lookups

`context_for_block` takes the parent's timestamp from a header lookup, or 0. The lookup
only decides whether the Balancer rewrite fires. Without an answer it fires at every block
from the activation on, which changes nothing as long as the configured accounts have the
expected code hashes.
-/
namespace RethGnosis
open Fallible

def noopHeaderLookup : HeaderLookup := fun _ => none

def GnosisEvmConfig.withLookup (config : GnosisEvmConfig) (lookup : HeaderLookup) :
    GnosisEvmConfig :=
  { config with headerLookup := lookup }

def GnosisBlockExecutor.withParent (executor : GnosisBlockExecutor) (parentTimestamp : ℕ) :
    GnosisBlockExecutor :=
  { executor with ctx := { executor.ctx with parentTimestamp := parentTimestamp } }

section Executor
variable {δ ε : Type} (ext : Externals δ ε) (executor : GnosisBlockExecutor)

/-- A new executor on the database, the hook and the tracker that the last block left. -/
def nextBlockState (t : ExecState δ) : ExecState δ :=
  { t with receipts := [], gasUsed := 0, blobGasUsed := 0 }

def rewriteSettled (db : δ) (config : BalancerHardforkConfig) : Bool :=
  config.config.all (fun e => (originalAccountInfo ext db e.1).codeHash == e.2.2)

/-- The Balancer fork is active in the block and in its parent, but not at time 0: the rewrite fires
only if the parent is not found. -/
def refires : Bool :=
  executor.spec.isBalancerHardforkActiveAtTimestamp executor.block.timestamp &&
    executor.spec.isBalancerHardforkActiveAtTimestamp executor.ctx.parentTimestamp &&
      !executor.spec.isBalancerHardforkActiveAtTimestamp 0

def settledAt (s : ExecState δ) : Bool :=
  match refires executor, executor.spec.balancerHardforkConfig, applyAuraChanges ext executor s with
  | true, some config, .ok _ u => rewriteSettled ext u.db config
  | _, _, _ => true

theorem executeReported_withParent (parentTimestamp : ℕ) (transactions : List TransactionSigned) :
    executeReported ext (executor.withParent parentTimestamp) transactions =
      executeReported ext executor transactions := rfl

theorem applyAuraChanges_withParent (parentTimestamp : ℕ) :
    applyAuraChanges ext (executor.withParent parentTimestamp) =
      applyAuraChanges ext executor := rfl

end Executor

section Rewrite
variable {δ ε : Type} {ext : Externals δ ε} {executor : GnosisBlockExecutor}

theorem isBalancerActive_of_zero {chainSpec : GnosisChainSpec}
    (h : chainSpec.isBalancerHardforkActiveAtTimestamp 0 = true) (timestamp : ℕ) :
    chainSpec.isBalancerHardforkActiveAtTimestamp timestamp = true := by
  unfold GnosisChainSpec.isBalancerHardforkActiveAtTimestamp ForkCondition.activeAtTimestamp at h ⊢
  cases hfork : chainSpec.fork (.gnosis .BalancerFork) with
  | timestamp time =>
    rw [hfork] at h
    simp only [decide_eq_true_eq] at h ⊢
    omega
  | block number => simp [hfork] at h
  | ttd number difficulty fork => simp [hfork] at h
  | never => simp [hfork] at h

theorem balancerActivates_withParent_zero :
    balancerActivates (executor.withParent 0) =
      (balancerActivates executor || refires executor) := by
  unfold balancerActivates refires GnosisBlockExecutor.withParent
  dsimp only
  cases hzero : executor.spec.isBalancerHardforkActiveAtTimestamp 0 with
  | true => simp [isBalancerActive_of_zero hzero]
  | false =>
    cases executor.spec.isBalancerHardforkActiveAtTimestamp executor.block.timestamp <;>
      cases executor.spec.isBalancerHardforkActiveAtTimestamp executor.ctx.parentTimestamp <;> rfl

theorem rewriteBytecodes_of_settled (hcommit : ∀ db, ext.commit db ∅ = db)
    {config : BalancerHardforkConfig} {s : ExecState δ}
    (h : rewriteSettled ext s.db config = true) : rewriteBytecodes ext config s = .ok () s := by
  have hnone : ∀ e ∈ config.config, rewriteOf ext s.db e = none := by
    intro e he
    have hhash := List.all_eq_true.mp h e he
    rw [rewriteOf, if_pos (by simpa using hhash)]
  rw [rewriteBytecodes_run, Overlay.overlay_eq_empty hnone, hcommit]

variable (ext) in
theorem applyBalancerRewrites_of_none {executor : GnosisBlockExecutor}
    (h : executor.spec.balancerHardforkConfig = none) :
    applyBalancerRewrites ext executor = pure () := by
  unfold applyBalancerRewrites
  rw [h]
  cases balancerActivates executor <;> rfl

variable (ext) in
theorem applyBalancerRewrites_of_some {executor : GnosisBlockExecutor}
    {config : BalancerHardforkConfig} (h : executor.spec.balancerHardforkConfig = some config) :
    applyBalancerRewrites ext executor =
      if balancerActivates executor then rewriteBytecodes ext config else pure () := by
  unfold applyBalancerRewrites
  rw [h]

theorem applyBalancerRewrites_withParent_zero (hcommit : ∀ db, ext.commit db ∅ = db)
    {s : ExecState δ}
    (h : refires executor = true → ∀ config,
      executor.spec.balancerHardforkConfig = some config → rewriteSettled ext s.db config = true) :
    applyBalancerRewrites ext (executor.withParent 0) s = applyBalancerRewrites ext executor s := by
  cases hconfig : executor.spec.balancerHardforkConfig with
  | none =>
    have hleft : applyBalancerRewrites ext (executor.withParent 0) = pure () :=
      applyBalancerRewrites_of_none ext hconfig
    rw [hleft, applyBalancerRewrites_of_none ext hconfig]
  | some config =>
    have hleft : applyBalancerRewrites ext (executor.withParent 0) =
        if balancerActivates (executor.withParent 0) then rewriteBytecodes ext config
        else pure () := applyBalancerRewrites_of_some ext hconfig
    rw [hleft, applyBalancerRewrites_of_some ext hconfig, balancerActivates_withParent_zero]
    cases hactivates : balancerActivates executor with
    | true => rfl
    | false =>
      cases hrefires : refires executor with
      | false => rfl
      | true => exact rewriteBytecodes_of_settled hcommit (h hrefires config hconfig)

theorem executeBlock_withParent_zero (hcommit : ∀ db, ext.commit db ∅ = db)
    (transactions : List TransactionSigned) {s : ExecState δ}
    (h : settledAt ext executor s = true) :
    executeBlock ext (executor.withParent 0) transactions s =
      executeBlock ext executor transactions s := by
  rw [executeBlock_eq_silent, executeBlock_eq_silent, executeReported_withParent]
  unfold applySilentChanges
  rw [applyAuraChanges_withParent, bind_run, bind_run, bind_run, bind_run]
  cases haura : applyAuraChanges ext executor s with
  | error fault t => rfl
  | ok _ u =>
    have hsettled : refires executor = true → ∀ config,
        executor.spec.balancerHardforkConfig = some config →
          rewriteSettled ext u.db config = true := by
      intro hrefires config hconfig
      rw [settledAt, hrefires, hconfig, haura] at h
      exact h
    dsimp only
    rw [applyBalancerRewrites_withParent_zero hcommit hsettled]

end Rewrite

section Chain
variable {δ ε : Type} (source : EnvSource) (config : GnosisEvmConfig) (ext : Externals δ ε)

def importChain : List GnosisBlock → ExecState δ →
    List (EStateM.Result Fault (ExecState δ) BlockExecutionResult)
  | [], _ => []
  | block :: rest, s =>
    match importBlock source config ext block (nextBlockState s) with
    | .ok result t => .ok result t :: importChain rest t
    | .error fault t => [.error fault t]

def settledAlong : List GnosisBlock → ExecState δ → Bool
  | [], _ => true
  | block :: rest, s =>
    settledAt ext (blockExecutor source config block (nextBlockState s))
        (contextState config block (nextBlockState s)) &&
      match importBlock source config ext block (nextBlockState s) with
      | .ok _ t => settledAlong rest t
      | .error _ _ => true

end Chain

theorem importBlock_noop {δ ε : Type} {source : EnvSource} {config : GnosisEvmConfig}
    {ext : Externals δ ε} (hcommit : ∀ db, ext.commit db ∅ = db) {block : GnosisBlock}
    {s : ExecState δ}
    (h : settledAt ext (blockExecutor source config block s) (contextState config block s) = true) :
    importBlock source (config.withLookup noopHeaderLookup) ext block s =
      importBlock source config ext block s := by
  rw [importBlock_run, importBlock_run]
  exact executeBlock_withParent_zero hcommit block.transactions h

/-- As long as the configured accounts have the expected code hashes wherever the rewrite would fire
a second time, a chain has the same outcomes with a lookup that always fails as with any other. -/
theorem importChain_noop {δ ε : Type} {source : EnvSource} {config : GnosisEvmConfig}
    {ext : Externals δ ε} (hcommit : ∀ db, ext.commit db ∅ = db) {blocks : List GnosisBlock}
    {s : ExecState δ} (hsettled : settledAlong source config ext blocks s = true) :
    importChain source (config.withLookup noopHeaderLookup) ext blocks s =
      importChain source config ext blocks s := by
  induction blocks generalizing s with
  | nil => rfl
  | cons block rest ih =>
    rw [settledAlong, Bool.and_eq_true] at hsettled
    rw [importChain, importChain, importBlock_noop hcommit hsettled.1]
    have hrest := hsettled.2
    cases hblock : importBlock source config ext block (nextBlockState s) with
    | error fault t => rfl
    | ok result t =>
      rw [hblock] at hrest
      dsimp only at hrest ⊢
      rw [ih hrest]

section Deployment

def World.deploy (world : World) (caller : Address) : EvmState :=
  ((∅ : EvmState).insert 7#160
    { world.touch 7#160 with
      info := ⟨0, 1, 9#256, some [9]⟩
      status := AccountStatus.Created.union AccountStatus.Touched }).insert caller
    { world.touch caller with
      info := { world.infoOf caller with nonce := (world.infoOf caller).nonce + 1 } }

def deployingWorld : Externals World String :=
  { hashingWorld with
    txEnv := fun tx =>
      { worldExternals.txEnv tx with kind := if tx.hash = 1 then .create else .call 22#160 }
    transact := fun cfg block feeCollector db tx =>
      match tx.kind with
      | .create => .ok ⟨.success 53000 [] (.create [9] (some 7#160)), db.deploy tx.caller⟩
      | .call _ => worldExternals.transact cfg block feeCollector db tx }

def chainedHeader (parentHash timestamp : ℕ) : GnosisHeader :=
  { (default : GnosisHeader) with
    number := 10 + parentHash
    parentHash := BitVec.ofNat 256 parentHash
    timestamp := timestamp
    gasLimit := 60000
    mixHash := some 0#256 }

def deployment : TransactionSigned := ⟨1#256, 0, 53000, none⟩

def plainCall : TransactionSigned := ⟨0#256, 0, 21000, none⟩

def chainWith (tx : TransactionSigned) : List GnosisBlock :=
  [⟨chainedHeader 1 1000, [], some []⟩, ⟨chainedHeader 2 1005, [tx], some []⟩,
    ⟨chainedHeader 3 1010, [], some []⟩]

def parentOf : HeaderLookup := fun hash =>
  if hash = 1 then some (chainedHeader 0 995)
  else if hash = 2 then some (chainedHeader 1 1000)
  else if hash = 3 then some (chainedHeader 2 1005)
  else none

def emptyingNode : GnosisEvmConfig :=
  { balancerNode with
    chainSpec :=
      { balancerNode.chainSpec with
        balancerHardforkConfig := some ⟨1000, [(7#160, none, KECCAK_EMPTY)]⟩ }
    headerLookup := parentOf }

def undeployedState : ExecState World :=
  { hookedState with
    db := (∅ : World).insert 21#160 ⟨⟨1000, 0, KECCAK_EMPTY, some []⟩, ∅⟩ }

def codesAlong (config : GnosisEvmConfig) (blocks : List GnosisBlock) :
    List (Bool × Option Bytes) :=
  (importChain referenceSource config deployingWorld blocks undeployedState).map
    (fun r => (failed r, ((final r).db.infoOf 7#160).code))

/-- Code deployed after the fork stays with the parents known, and is removed by the next block
without. -/
theorem deployedCode_removed :
    codesAlong emptyingNode (chainWith deployment) =
        [(false, some []), (false, some [9]), (false, some [9])] ∧
      codesAlong (emptyingNode.withLookup noopHeaderLookup) (chainWith deployment) =
        [(false, some []), (false, some [9]), (false, none)] := by
  decide +kernel

theorem importChain_noop_plainCall :
    importChain referenceSource (emptyingNode.withLookup noopHeaderLookup)
        deployingWorld (chainWith plainCall) undeployedState =
      importChain referenceSource emptyingNode deployingWorld (chainWith plainCall)
        undeployedState := by
  have hcommit : ∀ db, deployingWorld.commit db ∅ = db := by
    intro db
    change World.commit db ∅ = db
    rw [World.commit, Std.ExtTreeMap.toList_eq_nil_iff.mpr rfl]
    rfl
  exact importChain_noop hcommit (by decide +kernel)

end Deployment

end RethGnosis
