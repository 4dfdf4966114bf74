import RethGnosis.Aura.Consensus
import RethGnosis.Block.Context
import RethGnosis.Evm.Cfg

set_option autoImplicit false

/-!
# One fork for consensus, EVM and executor

Consensus reads the phase off the header and checks it against the block number; the
EVM's fork follows the phase and, after the merge, the latest active fork; the
executor's gates read the timestamp alone. The merge itself is decided alike
everywhere. The later forks are not: nothing bounds the timestamp of a pre-merge
header, and the gates may be configured out of order.
-/
namespace RethGnosis

def latestSpec (chainSpec : GnosisChainSpec) (timestamp : ℕ) : SpecId :=
  if chainSpec.isOsakaActiveAtTimestamp timestamp then .OSAKA
  else if chainSpec.isPragueActiveAtTimestamp timestamp then .PRAGUE
  else if chainSpec.isCancunActiveAtTimestamp timestamp then .CANCUN
  else if chainSpec.isShanghaiActiveAtTimestamp timestamp then .SHANGHAI
  else .MERGE

/-- What `revm_spec` returns from the merge on. -/
def RevmSpecLaw (source : EnvSource) : Prop :=
  ∀ (chainSpec : GnosisChainSpec) (header : GnosisHeader),
    chainSpec.isParisActiveAtBlock header.number = true →
      source.revmSpec chainSpec header = latestSpec chainSpec header.timestamp

section Gates
variable (chainSpec : GnosisChainSpec) (timestamp : ℕ)

/-- The forks whose rules the executor and `get_cfg_env` apply by timestamp. -/
def timestampGates : List (SpecId × Bool) :=
  [ (.SHANGHAI, chainSpec.isShanghaiActiveAtTimestamp timestamp),
    (.CANCUN, chainSpec.isCancunActiveAtTimestamp timestamp),
    (.PRAGUE, chainSpec.isPragueActiveAtTimestamp timestamp) ]

structure GatesNested : Prop where
  osaka : chainSpec.isOsakaActiveAtTimestamp timestamp = true →
    chainSpec.isPragueActiveAtTimestamp timestamp = true
  prague : chainSpec.isPragueActiveAtTimestamp timestamp = true →
    chainSpec.isCancunActiveAtTimestamp timestamp = true
  cancun : chainSpec.isCancunActiveAtTimestamp timestamp = true →
    chainSpec.isShanghaiActiveAtTimestamp timestamp = true

def FollowsGates (spec : SpecId) : Prop :=
  ∀ gate ∈ timestampGates chainSpec timestamp, spec.isEnabledIn gate.1 = gate.2

end Gates

section Facts
variable {checks : HeaderChecks} {source : EnvSource} {chainSpec : GnosisChainSpec}
  {header : SealedHeader} {timestamp : ℕ}

theorem followsGates_iff {spec : SpecId} :
    FollowsGates chainSpec timestamp spec ↔
      spec.isEnabledIn .SHANGHAI = chainSpec.isShanghaiActiveAtTimestamp timestamp ∧
      spec.isEnabledIn .CANCUN = chainSpec.isCancunActiveAtTimestamp timestamp ∧
      spec.isEnabledIn .PRAGUE = chainSpec.isPragueActiveAtTimestamp timestamp := by
  simp only [FollowsGates, timestampGates, List.forall_mem_cons, List.not_mem_nil, false_implies,
    implies_true, and_true]

theorem followsGates_latest_iff :
    FollowsGates chainSpec timestamp (latestSpec chainSpec timestamp) ↔
      GatesNested chainSpec timestamp := by
  have hnested : GatesNested chainSpec timestamp ↔
      (chainSpec.isOsakaActiveAtTimestamp timestamp = true →
        chainSpec.isPragueActiveAtTimestamp timestamp = true) ∧
      (chainSpec.isPragueActiveAtTimestamp timestamp = true →
        chainSpec.isCancunActiveAtTimestamp timestamp = true) ∧
      (chainSpec.isCancunActiveAtTimestamp timestamp = true →
        chainSpec.isShanghaiActiveAtTimestamp timestamp = true) :=
    ⟨fun h => ⟨h.osaka, h.prague, h.cancun⟩, fun h => ⟨h.1, h.2.1, h.2.2⟩⟩
  rw [followsGates_iff, hnested]
  unfold latestSpec
  cases chainSpec.isOsakaActiveAtTimestamp timestamp <;>
    cases chainSpec.isPragueActiveAtTimestamp timestamp <;>
    cases chainSpec.isCancunActiveAtTimestamp timestamp <;>
    cases chainSpec.isShanghaiActiveAtTimestamp timestamp <;> decide

theorem followsGates_preMerge_iff {spec : SpecId} (hspec : spec.isEnabledIn .MERGE = false) :
    FollowsGates chainSpec timestamp spec ↔
      ∀ gate ∈ timestampGates chainSpec timestamp, gate.2 = false := by
  have hbelow : ∀ other : SpecId, SpecId.MERGE.ctorIdx ≤ other.ctorIdx →
      spec.isEnabledIn other = false := by
    intro other hle
    simp only [SpecId.isEnabledIn, decide_eq_false_iff_not] at hspec ⊢
    omega
  rw [followsGates_iff, hbelow .SHANGHAI (by decide), hbelow .CANCUN (by decide),
    hbelow .PRAGUE (by decide)]
  simp only [timestampGates, List.forall_mem_cons, List.not_mem_nil, false_implies, implies_true,
    and_true, eq_comm]

theorem ite_preMerge {gate : Prop} [Decidable gate] {spec earlier : SpecId}
    (hspec : spec.isEnabledIn .MERGE = false) (hearlier : earlier.isEnabledIn .MERGE = false) :
    (if gate then spec else earlier).isEnabledIn .MERGE = false := by
  split
  · exact hspec
  · exact hearlier

theorem gnosisRevmSpec_preMerge {header : GnosisHeader} (hpre : source.isPreMerge header = true) :
    (gnosisRevmSpec source chainSpec header).isEnabledIn .MERGE = false := by
  simp only [gnosisRevmSpec, hpre, ↓reduceIte]
  repeat refine ite_preMerge (by decide) ?_
  decide

theorem latestSpec_merge : (latestSpec chainSpec timestamp).isEnabledIn .MERGE = true := by
  unfold latestSpec
  split_ifs <;> decide

/-- Consensus routes an accepted header by the block number, as its shape says. -/
theorem validateHeader_phase (h : validateHeader checks chainSpec header = .ok ()) :
    checks.isPreMerge header.header = !chainSpec.isParisActiveAtBlock header.header.number := by
  obtain ⟨auraBlock, haura, -⟩ := except_bind_ok.mp h
  obtain ⟨hphase, hparis⟩ := isAuraBlock_ok.mp haura
  rw [hphase, hparis, Bool.not_not]

theorem auraForBlock_isSome {config : GnosisEvmConfig} {c : AuraConfig}
    (hconfig : config.chainSpec.auraConfig = some c) (block : GnosisBlock)
    (rf : RollingFinality) :
    (contextForBlock config block rf).1.aura.isSome =
      !config.chainSpec.isParisActiveAtBlock block.header.number := by
  unfold contextForBlock auraForBlock
  rw [hconfig]
  cases config.chainSpec.isParisActiveAtBlock block.header.number <;>
    simp only [Bool.false_eq_true, ↓reduceIte] <;> rfl

def GatesFitPhase (chainSpec : GnosisChainSpec) (header : GnosisHeader) : Prop :=
  if chainSpec.isParisActiveAtBlock header.number then GatesNested chainSpec header.timestamp
  else ∀ gate ∈ timestampGates chainSpec header.timestamp, gate.2 = false

/-- The merge is decided alike for every accepted header; the later forks exactly where the gates
at its timestamp fit its phase. -/
theorem forks_agree_iff (hlaw : PreMergeLaw checks.isPreMerge)
    (hsource : PreMergeLaw source.isPreMerge) (hrevm : RevmSpecLaw source)
    (haccepted : validateHeader checks chainSpec header = .ok ()) :
    ((gnosisRevmSpec source chainSpec header.header).isEnabledIn .MERGE =
        chainSpec.isParisActiveAtBlock header.header.number) ∧
      (∀ (config : GnosisEvmConfig) (c : AuraConfig) (block : GnosisBlock) (rf : RollingFinality),
        config.chainSpec = chainSpec → chainSpec.auraConfig = some c →
          block.header = header.header →
            (contextForBlock config block rf).1.aura.isSome =
              !chainSpec.isParisActiveAtBlock header.header.number) ∧
      (FollowsGates chainSpec (evmEnv source chainSpec header.header).2.timestamp
          (evmEnv source chainSpec header.header).1.spec ↔
        GatesFitPhase chainSpec header.header) := by
  have hphase := validateHeader_phase haccepted
  rw [hlaw, ← hsource] at hphase
  have hcontext : ∀ (config : GnosisEvmConfig) (c : AuraConfig) (block : GnosisBlock)
      (rf : RollingFinality), config.chainSpec = chainSpec → chainSpec.auraConfig = some c →
        block.header = header.header → (contextForBlock config block rf).1.aura.isSome =
          !chainSpec.isParisActiveAtBlock header.header.number := by
    rintro config c block rf rfl hconfig hblock
    rw [auraForBlock_isSome hconfig, hblock]
  rw [evmEnv_spec]
  unfold GatesFitPhase
  cases hparis : chainSpec.isParisActiveAtBlock header.header.number with
  | false =>
    have hpre : source.isPreMerge header.header = true := by
      rw [hphase, hparis]
      rfl
    have hbelow := @gnosisRevmSpec_preMerge source chainSpec _ hpre
    rw [hparis] at hcontext
    exact ⟨hbelow, hcontext, followsGates_preMerge_iff hbelow⟩
  | true =>
    have hpost : source.isPreMerge header.header = false := by
      rw [hphase, hparis]
      rfl
    have hspec : gnosisRevmSpec source chainSpec header.header =
        latestSpec chainSpec header.header.timestamp := by
      rw [gnosisRevmSpec, hpost]
      exact hrevm chainSpec header.header hparis
    rw [hparis] at hcontext
    rw [hspec]
    exact ⟨latestSpec_merge, hcontext, followsGates_latest_iff⟩

def forkedSpec : GnosisChainSpec :=
  referenceSpec
    [ (.ethereum .London, .block 0), (.ethereum .Paris, .block 100),
      (.ethereum .Shanghai, .timestamp 50), (.ethereum .Cancun, .timestamp 60),
      (.ethereum .Prague, .timestamp 70) ]
    (listFrom [1#160, 2#160])

def forkSource : EnvSource where
  mainnetGasParams := fun _ => .eip1283
  isPreMerge := referenceChecks.isPreMerge
  revmSpec := fun chainSpec header => latestSpec chainSpec header.timestamp
  blobParamsAtTimestamp := fun _ _ => none
  calcBlobFee := fun _ _ => 0

theorem forkSource_law : RevmSpecLaw forkSource := fun _ _ _ => rfl

def earlyBlockLateTime : SealedHeader := referenceSealed referenceKeccak 2#160 11 10 11

theorem earlyBlockLateTime_accepted :
    validateHeader referenceChecks forkedSpec earlyBlockLateTime = .ok () := by
  refine except_bind_ok.mpr ⟨true, isAuraBlock_ok.mpr ⟨rfl, by decide⟩, ?_⟩
  exact validateAuraHeader_ok.mpr
    ⟨rfl, rfl, rfl, fun _ => rfl, fun _ => ⟨rfl, rfl, rfl⟩⟩

/-- The EVM runs London, while the executor's Shanghai gate is on. -/
theorem preMerge_with_shanghai_gate :
    validateHeader referenceChecks forkedSpec earlyBlockLateTime = .ok () ∧
      (evmEnv forkSource forkedSpec earlyBlockLateTime.header).1.spec = .LONDON ∧
      forkedSpec.isShanghaiActiveAtTimestamp
        (evmEnv forkSource forkedSpec earlyBlockLateTime.header).2.timestamp = true := by
  refine ⟨earlyBlockLateTime_accepted, ?_, by decide⟩
  rw [evmEnv_spec]
  rfl

theorem forks_agree_iff_earlyBlockLateTime :
    PreMergeLaw referenceChecks.isPreMerge ∧ PreMergeLaw forkSource.isPreMerge ∧
      RevmSpecLaw forkSource ∧
      validateHeader referenceChecks forkedSpec earlyBlockLateTime = .ok () ∧
      (FollowsGates forkedSpec
          (evmEnv forkSource forkedSpec earlyBlockLateTime.header).2.timestamp
          (evmEnv forkSource forkedSpec earlyBlockLateTime.header).1.spec ↔
        GatesFitPhase forkedSpec earlyBlockLateTime.header) :=
  ⟨referenceChecks_preMerge, fun _ => rfl, forkSource_law, earlyBlockLateTime_accepted,
    (forks_agree_iff referenceChecks_preMerge (fun _ => rfl) forkSource_law
      earlyBlockLateTime_accepted).2.2⟩

end Facts

end RethGnosis
