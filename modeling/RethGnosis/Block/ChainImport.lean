import RethGnosis.Aura.Phases
import RethGnosis.Block.FailedImport
import RethGnosis.Block.HeaderLookups

set_option autoImplicit false

/-!
# Importing an accepted chain across the merge

The blocks of a chain that consensus accepts are executed one by one until one fails.
Over its AuRa blocks the tracker goes through the live run; a block after the merge
does not touch it, whether it is imported or fails.
-/
namespace RethGnosis
open Fallible RollingFinality

structure SealedBlock where
  block : GnosisBlock
  hash : B256

def SealedBlock.sealedHeader (b : SealedBlock) : SealedHeader := ⟨b.block.header, b.hash⟩

section Beacon
variable {δ ε : Type} {source : EnvSource} {config : GnosisEvmConfig} {ext : Externals δ ε}
  {block : GnosisBlock}

theorem contextForBlock_beacon
    (hactive : config.chainSpec.isParisActiveAtBlock block.header.number = true)
    (rf : RollingFinality) :
    (contextForBlock config block rf).1.aura = none ∧ (contextForBlock config block rf).2 = rf := by
  unfold contextForBlock auraForBlock
  rw [hactive]
  cases config.chainSpec.auraConfig <;> exact ⟨rfl, rfl⟩

/-- Without an AuRa context neither the changes before the transactions nor `finish` read or write
the tracker. -/
theorem executeBlock_keeps {executor : GnosisBlockExecutor} (haura : executor.ctx.aura = none)
    (transactions : List TransactionSigned) :
    KeepsTracker (executeBlock ext executor transactions) := by
  rw [executeBlock_eq]
  refine Keeps.bind ?_
    (fun _ => (executeBody_keeps ext executor transactions).bind (fun calls => ?_))
  · unfold applyAuraChanges
    rw [haura]
    exact keeps_pure ()
  · unfold settle
    refine Keeps.bind ?_ (fun _ => ?_)
    · unfold updateTracker
      rw [haura]
      exact keeps_pure ()
    · exact (applyBalanceIncrements_keeps rollingFinality_ignores ext _).bind
        (fun _ => keeps_get.bind (fun _ => keeps_pure _))

/-- An import after the merge leaves the tracker alone, failed or not. -/
theorem importBlock_beacon
    (hactive : config.chainSpec.isParisActiveAtBlock block.header.number = true)
    (s : ExecState δ) :
    (final (importBlock source config ext block s)).rollingFinality = s.rollingFinality := by
  have haura : (blockExecutor source config block s).ctx.aura = none :=
    (contextForBlock_beacon hactive s.rollingFinality).1
  have hcontext : (contextState config block s).rollingFinality = s.rollingFinality :=
    (contextForBlock_beacon hactive s.rollingFinality).2
  rw [importBlock_run, executeBlock_keeps haura block.transactions, hcontext]

end Beacon

abbrev Outcome (δ : Type) := EStateM.Result Fault (ExecState δ) BlockExecutionResult

section Chain
variable {δ ε : Type} (source : EnvSource) (config : GnosisEvmConfig) (ext : Externals δ ε)
  (c : AuraConfig)

def importedCount (outcomes : List (Outcome δ)) : ℕ := outcomes.countP (fun r => !failed r)

/-- The AuRa block that the run records for a block imported from `s`. -/
structure Records (b : AuraBlock) (block : GnosisBlock) (s : ExecState δ)
    (result : BlockExecutionResult) : Prop where
  shows : Shows source config ext block c (nextBlockState s) b .finished
  receipts : b.receipts = result.receipts
  rewardLogs : LogsRewards source config ext block (nextBlockState s) b

/-- What the block at `i`, executed from `u`, did to the tracker; `bs` are the AuRa blocks imported
and `rf` is the tracker before them. -/
structure Tracks (blocks : List SealedBlock) (bs : List AuraBlock) (rf : RollingFinality) (i : ℕ)
    (u : ExecState δ) (outcome : Outcome δ) : Prop where
  imported : ∀ result t, outcome = .ok result t →
    t.rollingFinality = runLive c (bs.take (i + 1)) rf ∧
      ∀ b, bs[i]? = some b → ∃ sealedBlock, blocks[i]? = some sealedBlock ∧
        Records source config ext c b sealedBlock.block u result
  stopped : ∀ fault t, outcome = .error fault t →
    ∃ sealedBlock, blocks[i]? = some sealedBlock ∧
      ((config.chainSpec.isParisActiveAtBlock sealedBlock.block.header.number = true ∧
          t.rollingFinality = runLive c bs rf) ∨
        config.chainSpec.isParisActiveAtBlock sealedBlock.block.header.number = false ∧
          ∃ b m, Shows source config ext sealedBlock.block c (nextBlockState u) b m ∧
            t.rollingFinality = m.tracker c b (runLive c bs rf))

def startStates (s : ExecState δ) (outcomes : List (Outcome δ)) : List (ExecState δ) :=
  s :: outcomes.map final

end Chain

section Run
variable {δ ε : Type} {checks : HeaderChecks} {crypto : SealCrypto} {source : EnvSource}
  {config : GnosisEvmConfig} {ext : Externals δ ε} {c : AuraConfig} {root : SealedHeader}
  {blocks : List SealedBlock}

theorem tracks_beacon
    (hactive : ∀ b ∈ blocks, config.chainSpec.isParisActiveAtBlock b.block.header.number = true)
    (s : ExecState δ) {i : ℕ} {outcome : Outcome δ}
    (hmem : (importChain source config ext (blocks.map SealedBlock.block) s)[i]? = some outcome) :
    (∃ b, blocks[i]? = some b) ∧ (final outcome).rollingFinality = s.rollingFinality := by
  induction blocks generalizing s i with
  | nil => cases hmem
  | cons first rest ih =>
    have hfirst : (final (importBlock source config ext first.block
        (nextBlockState s))).rollingFinality = s.rollingFinality :=
      importBlock_beacon (hactive first (List.mem_cons_self ..)) (nextBlockState s)
    have hrest : ∀ b ∈ rest, config.chainSpec.isParisActiveAtBlock b.block.header.number = true :=
      fun b hb => hactive b (List.mem_cons_of_mem _ hb)
    rw [List.map_cons, importChain] at hmem
    cases hrun : importBlock source config ext first.block (nextBlockState s) with
    | error fault t =>
      rw [hrun] at hmem hfirst
      cases i with
      | zero =>
        obtain rfl := Option.some.inj hmem
        exact ⟨⟨first, rfl⟩, hfirst⟩
      | succ j => cases hmem
    | ok result t =>
      rw [hrun] at hmem hfirst
      cases i with
      | zero =>
        obtain rfl := Option.some.inj hmem
        exact ⟨⟨first, rfl⟩, hfirst⟩
      | succ j => exact ⟨(ih hrest t hmem).1, (ih hrest t hmem).2.trans hfirst⟩

theorem Tracks.of_kept {b : SealedBlock} {rf : RollingFinality} {i : ℕ} {u : ExecState δ}
    {outcome : Outcome δ} (hb : blocks[i]? = some b)
    (hactive : config.chainSpec.isParisActiveAtBlock b.block.header.number = true)
    (hkept : (final outcome).rollingFinality = rf) :
    Tracks source config ext c blocks [] rf i u outcome := by
  refine ⟨?_, ?_⟩
  · rintro result t rfl
    rw [List.take_nil]
    exact ⟨hkept, fun b hb => (by cases hb)⟩
  · rintro fault t rfl
    exact ⟨b, hb, .inl ⟨hactive, hkept⟩⟩

theorem Tracks.cons {first : SealedBlock} {b : AuraBlock} {bs : List AuraBlock}
    {rf : RollingFinality} {i : ℕ} {u : ExecState δ} {outcome : Outcome δ}
    (h : Tracks source config ext c blocks bs (liveBlock c b rf) i u outcome) :
    Tracks source config ext c (first :: blocks) (b :: bs) rf (i + 1) u outcome :=
  ⟨h.imported, h.stopped⟩

/-- The AuRa blocks of the run, and what each outcome did to the tracker. -/
structure ChainRun (source : EnvSource) (config : GnosisEvmConfig) (ext : Externals δ ε)
    (c : AuraConfig) (checks : HeaderChecks) (blocks : List SealedBlock) (first : ℕ)
    (s : ExecState δ) (bs : List AuraBlock) : Prop where
  consecutive : Consecutive first bs
  length : bs.length = min (auraPhase checks (blocks.map SealedBlock.sealedHeader)).length
    (importedCount (importChain source config ext (blocks.map SealedBlock.block) s))
  tracks : ∀ i u outcome,
    (startStates s (importChain source config ext (blocks.map SealedBlock.block) s))[i]? = some u →
    (importChain source config ext (blocks.map SealedBlock.block) s)[i]? = some outcome →
      Tracks source config ext c blocks bs s.rollingFinality i u outcome

theorem ChainRun.beacon {first : ℕ} {s : ExecState δ}
    (hpost : ∀ b ∈ blocks, checks.isPreMerge b.block.header = false)
    (hactive : ∀ b ∈ blocks, config.chainSpec.isParisActiveAtBlock b.block.header.number = true) :
    ChainRun source config ext c checks blocks first s [] := by
  refine ⟨trivial, ?_, ?_⟩
  · have hnone : auraPhase checks (blocks.map SealedBlock.sealedHeader) = [] := by
      cases blocks with
      | nil => rfl
      | cons b rest => exact auraPhase_cons_of_post (hpost b (List.mem_cons_self ..))
    rw [hnone]
    exact (Nat.zero_min _).symm
  · intro i u outcome _ hmem
    obtain ⟨⟨b, hb⟩, hkept⟩ := tracks_beacon hactive s hmem
    exact Tracks.of_kept hb (hactive b (List.mem_of_getElem? hb)) hkept

theorem Milestone.windowInv {b : AuraBlock} {rf : RollingFinality} (h : WindowInv rf)
    (m : Milestone) : WindowInv (m.tracker c b rf) := by
  cases m with
  | context => exact WindowInv.afterContext h
  | initialized =>
    rw [Milestone.tracker, afterInitialization]
    split_ifs
    · exact windowInv_setValidators _ _
    · exact WindowInv.afterContext h
  | preExecuted => exact WindowInv.afterPreExecution h
  | finished => exact WindowInv.liveBlock h

end Run

section Reference

end Reference

end RethGnosis
