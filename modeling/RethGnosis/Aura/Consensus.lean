import RethGnosis.Aura.Seal
import RethGnosis.Spec.ChainSpec

set_option autoImplicit false

/-!
# Header validation

`aura/mod.rs`: which phase a header belongs to, and the checks of a pre-merge header
alone and against its parent. The checks of reth itself are parameters that get what
they read of the two headers.
-/
namespace RethGnosis

inductive ConsensusError where
  | msg (text : String)
  | theMergeOmmerRootIsNotEmpty
  | withdrawalsRootUnexpected
  | blobGasUsedUnexpected
  | upstream (text : String)
deriving DecidableEq

structure SealedHeader where
  header : GnosisHeader
  hash : B256
deriving DecidableEq

def EMPTY_OMMER_ROOT_HASH : B256 :=
  0x1dcc4de8dec75d7aab85b567b6ccd41ad312451b948a7413f0a142fd40d49347#256

/-- The header checks of reth, `EthBeaconConsensus`, and `GnosisHeader::is_pre_merge`. -/
structure HeaderChecks where
  isPreMerge : GnosisHeader → Bool
  validateHeaderExtraData : (extraData : Bytes) → (maxSize : ℕ) → Except ConsensusError Unit
  validateHeaderGas : (gasUsed gasLimit : ℕ) → Except ConsensusError Unit
  validateAgainstParentHashNumber :
    (number : ℕ) → (parentHash : B256) → SealedHeader → Except ConsensusError Unit
  validateAgainstParentTimestamp : (timestamp parentTimestamp : ℕ) → Except ConsensusError Unit
  validateAgainstParentEip1559BaseFee : (number timestamp : ℕ) → (baseFeePerGas : Option ℕ) →
    (parent : GnosisHeader) → GnosisChainSpec → Except ConsensusError Unit
  innerValidateHeader : GnosisChainSpec → SealedHeader → Except ConsensusError Unit
  innerValidateHeaderAgainstParent :
    GnosisChainSpec → SealedHeader → SealedHeader → Except ConsensusError Unit
  displayAddress : Address → String
  displaySealError : SealError → String

section Consensus
variable (checks : HeaderChecks) (crypto : SealCrypto) (chainSpec : GnosisChainSpec)

/-- The phase of the chain spec; a header shaped for the other phase is rejected. -/
def isAuraBlock (header : GnosisHeader) : Except ConsensusError Bool :=
  let preMergePerSpec := !chainSpec.isParisActiveAtBlock header.number
  let preMergePerHeader := checks.isPreMerge header
  if preMergePerSpec ≠ preMergePerHeader then
    .error (.msg (s!"header phase mismatch at block {header.number}: " ++
      s!"chain-spec pre_merge={preMergePerSpec}, header pre_merge={preMergePerHeader}"))
  else
    .ok preMergePerSpec

def rejectIf (condition : Bool) (e : ConsensusError) : Except ConsensusError Unit :=
  if condition then .error e else .ok ()

def validateAuraHeader (header : GnosisHeader) : Except ConsensusError Unit := do
  rejectIf (header.ommersHash != EMPTY_OMMER_ROOT_HASH) .theMergeOmmerRootIsNotEmpty
  checks.validateHeaderExtraData header.extraData 32
  checks.validateHeaderGas header.gasUsed header.gasLimit
  rejectIf (!chainSpec.isShanghaiActiveAtTimestamp header.timestamp &&
    header.withdrawalsRoot.isSome) .withdrawalsRootUnexpected
  rejectIf (!chainSpec.isCancunActiveAtTimestamp header.timestamp &&
    (header.blobGasUsed.isSome || header.excessBlobGas.isSome ||
      header.parentBeaconBlockRoot.isSome)) .blobGasUsedUnexpected

def stepOf (auraStep : Option U256) (missing exceeds : String) : Except ConsensusError ℕ :=
  match auraStep with
  | none => .error (.msg missing)
  | some step => if step < 2 ^ 64 then .ok step else .error (.msg s!"{exceeds}: {step}")

def validateAuraStep (header parent : GnosisHeader) : Except ConsensusError ℕ := do
  let currentStep ← stepOf header.auraStep "missing AuRa step" "AuRa step exceeds u64"
  let parentStep ← stepOf parent.auraStep "missing parent AuRa step" "AuRa parent step exceeds u64"
  rejectIf (currentStep ≤ parentStep) (.msg ("AuRa step must be monotonically increasing: " ++
    s!"current={currentStep}, parent={parentStep}"))
  let expectedDifficulty := calculateAuraDifficulty parentStep currentStep
  rejectIf (header.difficulty != expectedDifficulty) (.msg ("AuRa difficulty mismatch: " ++
    s!"expected={expectedDifficulty}, got={header.difficulty}"))
  return currentStep

/-- The seal, and the proposer where the set active at the parent is a list. -/
def validateAuraProposer (c : AuraConfig) (header : GnosisHeader) (step : ℕ) :
    Except ConsensusError Unit :=
  match recoverSealAuthor crypto header with
  | .error e =>
    let message := checks.displaySealError e
    .error (.msg s!"AuRa seal verification failed: {message}")
  | .ok signer =>
    match c.validators.tryGetListValidators (header.number - 1) with
    | none => .ok ()
    | some validators =>
      match ValidatorSet.expectedProposer step validators with
      | none => .error (.msg "AuRa validator list is empty for proposer lookup")
      | some expectedProposer =>
        if signer ≠ expectedProposer then
          let expected := checks.displayAddress expectedProposer
          let got := checks.displayAddress signer
          .error (.msg (s!"AuRa proposer mismatch: expected={expected}, got={got} " ++
            s!"(step={step}, block={header.number})"))
        else
          .ok ()

def validateAuraHeaderAgainstParent (c : AuraConfig) (header parent : SealedHeader) :
    Except ConsensusError Unit := do
  checks.validateAgainstParentHashNumber header.header.number header.header.parentHash parent
  checks.validateAgainstParentTimestamp header.header.timestamp parent.header.timestamp
  checks.validateAgainstParentEip1559BaseFee header.header.number header.header.timestamp
    header.header.baseFeePerGas parent.header chainSpec
  let currentStep ← validateAuraStep header.header parent.header
  validateAuraProposer checks crypto c header.header currentStep

def validateHeader (header : SealedHeader) : Except ConsensusError Unit := do
  let auraBlock ← isAuraBlock checks chainSpec header.header
  if auraBlock then
    validateAuraHeader checks chainSpec header.header
  else
    checks.innerValidateHeader chainSpec header

def validateHeaderAgainstParent (header parent : SealedHeader) : Except ConsensusError Unit := do
  let auraBlock ← isAuraBlock checks chainSpec header.header
  if auraBlock then
    match chainSpec.auraConfig with
    | none =>
      throw (.msg ("AuRa config missing for chain with pre-merge phase: " ++
        "genesis must contain an `aura` section"))
    | some c => validateAuraHeaderAgainstParent checks crypto chainSpec c header parent
  else
    checks.innerValidateHeaderAgainstParent chainSpec header parent

end Consensus

section Facts
variable {checks : HeaderChecks} {crypto : SealCrypto} {chainSpec : GnosisChainSpec}

theorem except_bind_ok {ε α β : Type} {m : Except ε α} {f : α → Except ε β} {b : β} :
    (m >>= f) = .ok b ↔ ∃ a, m = .ok a ∧ f a = .ok b := by
  cases m with
  | error e =>
    constructor
    · intro h
      cases h
    · rintro ⟨a, h, -⟩
      cases h
  | ok a =>
    constructor
    · intro h
      exact ⟨a, rfl, h⟩
    · rintro ⟨c, h, hf⟩
      cases h
      exact hf

theorem rejectIf_ok {condition : Bool} {e : ConsensusError} :
    rejectIf condition e = .ok () ↔ condition = false := by
  cases condition <;> simp [rejectIf]

theorem isAuraBlock_ok {header : GnosisHeader} {auraBlock : Bool} :
    isAuraBlock checks chainSpec header = .ok auraBlock ↔
      checks.isPreMerge header = auraBlock ∧
        chainSpec.isParisActiveAtBlock header.number = !auraBlock := by
  unfold isAuraBlock
  cases checks.isPreMerge header <;> cases chainSpec.isParisActiveAtBlock header.number <;>
    cases auraBlock <;> simp

structure AuraHeader (checks : HeaderChecks) (chainSpec : GnosisChainSpec)
    (header : GnosisHeader) : Prop where
  ommersHash : header.ommersHash = EMPTY_OMMER_ROOT_HASH
  extraData : checks.validateHeaderExtraData header.extraData 32 = .ok ()
  gas : checks.validateHeaderGas header.gasUsed header.gasLimit = .ok ()
  withdrawalsRoot : chainSpec.isShanghaiActiveAtTimestamp header.timestamp = false →
    header.withdrawalsRoot = none
  blobFields : chainSpec.isCancunActiveAtTimestamp header.timestamp = false →
    header.blobGasUsed = none ∧ header.excessBlobGas = none ∧ header.parentBeaconBlockRoot = none

theorem validateAuraHeader_ok {header : GnosisHeader} :
    validateAuraHeader checks chainSpec header = .ok () ↔ AuraHeader checks chainSpec header := by
  unfold validateAuraHeader
  constructor
  · intro h
    obtain ⟨⟨⟩, hommers, h⟩ := except_bind_ok.mp h
    obtain ⟨⟨⟩, hextra, h⟩ := except_bind_ok.mp h
    obtain ⟨⟨⟩, hgas, h⟩ := except_bind_ok.mp h
    obtain ⟨⟨⟩, hwithdrawals, hblob⟩ := except_bind_ok.mp h
    refine ⟨by simpa using rejectIf_ok.mp hommers, hextra, hgas, ?_, ?_⟩
    · intro hshanghai
      simpa [hshanghai] using rejectIf_ok.mp hwithdrawals
    · intro hcancun
      simpa [hcancun, and_assoc] using rejectIf_ok.mp hblob
  · rintro ⟨hommers, hextra, hgas, hwithdrawals, hblob⟩
    refine except_bind_ok.mpr ⟨(), rejectIf_ok.mpr (by simpa using hommers),
      except_bind_ok.mpr ⟨(), hextra, except_bind_ok.mpr ⟨(), hgas,
        except_bind_ok.mpr ⟨(), rejectIf_ok.mpr ?_, rejectIf_ok.mpr ?_⟩⟩⟩⟩
    · cases hshanghai : chainSpec.isShanghaiActiveAtTimestamp header.timestamp with
      | true => simp
      | false => simp [hwithdrawals hshanghai]
    · cases hcancun : chainSpec.isCancunActiveAtTimestamp header.timestamp with
      | true => simp
      | false => simp [hblob hcancun]

def GnosisHeader.step (header : GnosisHeader) : ℕ := header.auraStep.getD 0

structure AuraStep (header parent : GnosisHeader) (parentStep step : ℕ) : Prop where
  current : header.auraStep = some step
  previous : parent.auraStep = some parentStep
  fits : step < 2 ^ 64
  increases : parentStep < step
  difficulty : header.difficulty = calculateAuraDifficulty parentStep step

theorem AuraStep.step_eq {header parent : GnosisHeader} {parentStep step : ℕ}
    (h : AuraStep header parent parentStep step) :
    header.step = step ∧ parent.step = parentStep := by
  rw [GnosisHeader.step, GnosisHeader.step, h.current, h.previous]
  exact ⟨rfl, rfl⟩

theorem AuraStep.congr {header other parent : GnosisHeader} {parentStep step : ℕ}
    (h : AuraStep header parent parentStep step) (hstep : other.auraStep = header.auraStep)
    (hdifficulty : other.difficulty = header.difficulty) :
    AuraStep other parent parentStep step :=
  ⟨hstep.trans h.current, h.previous, h.fits, h.increases, hdifficulty.trans h.difficulty⟩

theorem stepOf_ok {auraStep : Option U256} {missing exceeds : String} {step : ℕ} :
    stepOf auraStep missing exceeds = .ok step ↔ auraStep = some step ∧ step < 2 ^ 64 := by
  unfold stepOf
  cases auraStep with
  | none => simp
  | some found =>
    simp only [Option.some.injEq]
    split_ifs with hfits
    · rw [Except.ok.injEq]
      constructor
      · rintro rfl
        exact ⟨rfl, hfits⟩
      · exact And.left
    · constructor
      · intro h
        cases h
      · rintro ⟨rfl, hlt⟩
        exact absurd hlt hfits

theorem validateAuraStep_ok {header parent : GnosisHeader} {step : ℕ} :
    validateAuraStep header parent = .ok step ↔
      ∃ parentStep, AuraStep header parent parentStep step := by
  unfold validateAuraStep
  constructor
  · intro h
    obtain ⟨current, hcurrent, h⟩ := except_bind_ok.mp h
    obtain ⟨parentStep, hparent, h⟩ := except_bind_ok.mp h
    obtain ⟨⟨⟩, hle, h⟩ := except_bind_ok.mp h
    obtain ⟨⟨⟩, hdifficulty, h⟩ := except_bind_ok.mp h
    cases h
    exact ⟨parentStep, (stepOf_ok.mp hcurrent).1, (stepOf_ok.mp hparent).1,
      (stepOf_ok.mp hcurrent).2, by simpa using rejectIf_ok.mp hle,
      by simpa using rejectIf_ok.mp hdifficulty⟩
  · rintro ⟨parentStep, hstep, hparent, hfits, hincreases, hdifficulty⟩
    refine except_bind_ok.mpr ⟨step, stepOf_ok.mpr ⟨hstep, hfits⟩, except_bind_ok.mpr
      ⟨parentStep, stepOf_ok.mpr ⟨hparent, hincreases.trans hfits⟩, except_bind_ok.mpr
        ⟨(), rejectIf_ok.mpr (by simpa using hincreases), except_bind_ok.mpr
          ⟨(), rejectIf_ok.mpr (by simpa using hdifficulty), rfl⟩⟩⟩⟩

theorem validateAuraProposer_ok {c : AuraConfig} {header : GnosisHeader} {step : ℕ} :
    validateAuraProposer checks crypto c header step = .ok () ↔
      ∃ signer, recoverSealAuthor crypto header = .ok signer ∧
        ∀ validators, c.validators.tryGetListValidators (header.number - 1) = some validators →
          ValidatorSet.expectedProposer step validators = some signer := by
  unfold validateAuraProposer
  cases recoverSealAuthor crypto header with
  | error e => simp
  | ok signer =>
    cases c.validators.tryGetListValidators (header.number - 1) with
    | none => simp
    | some validators =>
      cases hexpected : ValidatorSet.expectedProposer step validators with
      | none => simp [hexpected]
      | some expected =>
        simp only [Except.ok.injEq, Option.some.injEq, exists_eq_left', forall_eq', hexpected]
        split_ifs with hsigner
        · simp only [false_iff]
          exact fun h => hsigner h.symm
        · simp only [true_iff]
          exact (not_not.mp hsigner).symm

structure AuraChild (checks : HeaderChecks) (crypto : SealCrypto) (chainSpec : GnosisChainSpec)
    (c : AuraConfig) (header parent : SealedHeader) (parentStep step : ℕ) (signer : Address) :
    Prop where
  hashNumber : checks.validateAgainstParentHashNumber header.header.number
    header.header.parentHash parent = .ok ()
  timestamp : checks.validateAgainstParentTimestamp header.header.timestamp
    parent.header.timestamp = .ok ()
  baseFee : checks.validateAgainstParentEip1559BaseFee header.header.number
    header.header.timestamp header.header.baseFeePerGas parent.header chainSpec = .ok ()
  steps : AuraStep header.header parent.header parentStep step
  signed : recoverSealAuthor crypto header.header = .ok signer
  proposer : ∀ validators,
    c.validators.tryGetListValidators (header.header.number - 1) = some validators →
      ValidatorSet.expectedProposer step validators = some signer

theorem validateAuraHeaderAgainstParent_ok {c : AuraConfig} {header parent : SealedHeader} :
    validateAuraHeaderAgainstParent checks crypto chainSpec c header parent = .ok () ↔
      ∃ parentStep step signer,
        AuraChild checks crypto chainSpec c header parent parentStep step signer := by
  unfold validateAuraHeaderAgainstParent
  constructor
  · intro h
    obtain ⟨⟨⟩, hhash, h⟩ := except_bind_ok.mp h
    obtain ⟨⟨⟩, htimestamp, h⟩ := except_bind_ok.mp h
    obtain ⟨⟨⟩, hfee, h⟩ := except_bind_ok.mp h
    obtain ⟨step, hstep, h⟩ := except_bind_ok.mp h
    obtain ⟨parentStep, hsteps⟩ := validateAuraStep_ok.mp hstep
    obtain ⟨signer, hsigned, hproposer⟩ := validateAuraProposer_ok.mp h
    exact ⟨parentStep, step, signer, hhash, htimestamp, hfee, hsteps, hsigned, hproposer⟩
  · rintro ⟨parentStep, step, signer, hhash, htimestamp, hfee, hsteps, hsigned, hproposer⟩
    exact except_bind_ok.mpr ⟨(), hhash, except_bind_ok.mpr ⟨(), htimestamp, except_bind_ok.mpr
      ⟨(), hfee, except_bind_ok.mpr ⟨step, validateAuraStep_ok.mpr ⟨parentStep, hsteps⟩,
        validateAuraProposer_ok.mpr ⟨signer, hsigned, hproposer⟩⟩⟩⟩⟩

structure AcceptedAura (checks : HeaderChecks) (crypto : SealCrypto) (chainSpec : GnosisChainSpec)
    (header parent : SealedHeader) : Prop where
  validHeader : validateHeader checks chainSpec header = .ok ()
  validChild : validateHeaderAgainstParent checks crypto chainSpec header parent = .ok ()
  preMerge : checks.isPreMerge header.header = true

theorem acceptedAura_iff {header parent : SealedHeader} :
    AcceptedAura checks crypto chainSpec header parent ↔
      checks.isPreMerge header.header = true ∧
        chainSpec.isParisActiveAtBlock header.header.number = false ∧
        AuraHeader checks chainSpec header.header ∧
        ∃ c, chainSpec.auraConfig = some c ∧ ∃ parentStep step signer,
          AuraChild checks crypto chainSpec c header parent parentStep step signer := by
  constructor
  · rintro ⟨hheader, hchild, hpre⟩
    obtain ⟨auraBlock, haura, hheader⟩ := except_bind_ok.mp hheader
    obtain ⟨hphase, hparis⟩ := isAuraBlock_ok.mp haura
    obtain rfl : auraBlock = true := hphase.symm.trans hpre
    unfold validateHeaderAgainstParent at hchild
    rw [haura] at hchild
    refine ⟨hpre, hparis, validateAuraHeader_ok.mp hheader, ?_⟩
    cases hconfig : chainSpec.auraConfig with
    | none =>
      rw [hconfig] at hchild
      cases hchild
    | some c =>
      rw [hconfig] at hchild
      exact ⟨c, rfl, validateAuraHeaderAgainstParent_ok.mp hchild⟩
  · rintro ⟨hpre, hparis, hheader, c, hconfig, hchild⟩
    have haura : isAuraBlock checks chainSpec header.header = .ok true :=
      isAuraBlock_ok.mpr ⟨hpre, hparis⟩
    refine ⟨?_, ?_, hpre⟩
    · exact except_bind_ok.mpr ⟨true, haura, validateAuraHeader_ok.mpr hheader⟩
    · refine except_bind_ok.mpr ⟨true, haura, ?_⟩
      simp only [hconfig, ↓reduceIte]
      exact validateAuraHeaderAgainstParent_ok.mpr hchild

end Facts

/-- `GnosisHeader::is_pre_merge`: both AuRa fields are there. -/
def PreMergeLaw (isPreMerge : GnosisHeader → Bool) : Prop :=
  ∀ header, isPreMerge header = (header.auraStep.isSome && header.auraSeal.isSome)

def HashNumberLaw (checks : HeaderChecks) : Prop :=
  ∀ (number : ℕ) (parentHash : B256) (parent : SealedHeader),
    checks.validateAgainstParentHashNumber number parentHash parent = .ok () →
      number = parent.header.number + 1 ∧ parentHash = parent.hash

def referenceChecks : HeaderChecks where
  isPreMerge := fun header => header.auraStep.isSome && header.auraSeal.isSome
  validateHeaderExtraData := fun extraData maxSize =>
    rejectIf (maxSize < extraData.length) (.upstream "ExtraDataExceedsMax")
  validateHeaderGas := fun gasUsed gasLimit =>
    rejectIf (gasLimit < gasUsed) (.upstream "HeaderGasUsedExceedsGasLimit")
  validateAgainstParentHashNumber := fun number parentHash parent => do
    rejectIf (number != parent.header.number + 1) (.upstream "ParentBlockNumberMismatch")
    rejectIf (parentHash != parent.hash) (.upstream "ParentHashMismatch")
  validateAgainstParentTimestamp := fun timestamp parentTimestamp =>
    rejectIf (timestamp ≤ parentTimestamp) (.upstream "TimestampIsInPast")
  validateAgainstParentEip1559BaseFee := fun number _ baseFeePerGas _ chainSpec =>
    rejectIf (chainSpec.isLondonActiveAtBlock number && baseFeePerGas.isNone)
      (.upstream "BaseFeeMissing")
  innerValidateHeader := fun _ _ => .ok ()
  innerValidateHeaderAgainstParent := fun _ _ _ => .ok ()
  displayAddress := fun address => toString address.toNat
  displaySealError := fun _ => "seal"

theorem referenceChecks_preMerge : PreMergeLaw referenceChecks.isPreMerge := fun _ => rfl

theorem referenceChecks_hashNumber : HashNumberLaw referenceChecks := by
  intro number parentHash parent h
  obtain ⟨⟨⟩, hnumber, hhash⟩ := except_bind_ok.mp h
  exact ⟨by simpa using rejectIf_ok.mp hnumber, by simpa using rejectIf_ok.mp hhash⟩

def GnosisHeader.sealedBy (header : GnosisHeader) (keccak256 : Bytes → B256) (signer : Address) :
    GnosisHeader :=
  { header with auraSeal := some (openSeal signer (computeSealHash (openCrypto keccak256) header)) }

theorem recoverSealAuthor_sealedBy (header : GnosisHeader) (keccak256 : Bytes → B256)
    (signer : Address) :
    recoverSealAuthor (openCrypto keccak256) (header.sealedBy keccak256 signer) = .ok signer := by
  have hseal : (header.sealedBy keccak256 signer).auraSeal =
      some (openSeal signer (computeSealHash (openCrypto keccak256) header)) := rfl
  have hhash : computeSealHash (openCrypto keccak256) (header.sealedBy keccak256 signer) =
      computeSealHash (openCrypto keccak256) header :=
    computeSealHash_congr _
      ⟨rfl, rfl, rfl, rfl, rfl, rfl, rfl, rfl, rfl, rfl, rfl, rfl, rfl, rfl⟩
  unfold recoverSealAuthor
  simp only [hseal, hhash]
  exact recoverSeal_openSeal keccak256 signer _

def referenceSpec (hardforks : List (Hardfork × ForkCondition)) (c : AuraConfig) :
    GnosisChainSpec where
  chainId := 100
  genesis := ⟨∅⟩
  hardforks := hardforks
  depositContract := none
  balancerHardforkConfig := none
  auraConfig := some c

def referenceKeccak (bytes : Bytes) : B256 := BitVec.ofNat 256 (Rlp.value bytes)

def referenceHeader (number parentStep step : ℕ) : GnosisHeader :=
  { (default : GnosisHeader) with
    ommersHash := EMPTY_OMMER_ROOT_HASH
    difficulty := calculateAuraDifficulty parentStep step
    number := number
    gasLimit := 10000000
    timestamp := 5 * step
    auraStep := some step
    baseFeePerGas := some 7 }

def referenceSealed (keccak256 : Bytes → B256) (signer : Address) (number parentStep step : ℕ) :
    SealedHeader where
  header := { referenceHeader number parentStep step with
    parentHash := BitVec.ofNat 256 (number - 1) }.sealedBy keccak256 signer
  hash := BitVec.ofNat 256 number

def listFrom (validators : List Address) : AuraConfig where
  stepDuration := 5
  validators :=
    { sets := (∅ : BTreeMap ℕ ValidatorSetKind).insert 0 (.list validators)
      nonempty := by simp }
  blockRewardContractTransitions := ∅
  posdaoTransition := 0
  rewriteBytecode := ∅

theorem listFrom_active (validators : List Address) (n : ℕ) :
    (listFrom validators).validators.tryGetListValidators n = some validators := by
  have hsets : (listFrom validators).validators.sets.toList = [(0, .list validators)] := rfl
  have hkind : (listFrom validators).validators.kindAt n = some (.list validators) := by
    rw [ValidatorSet.kindAt, hsets, List.filter_cons_of_pos (by simp)]
    rfl
  rw [ValidatorSet.tryGetListValidators, hkind]

theorem listFrom_proposer {validators : List Address} {n step : ℕ} {signer : Address}
    (hexpected : ValidatorSet.expectedProposer step validators = some signer) :
    ∀ found, (listFrom validators).validators.tryGetListValidators n = some found →
      ValidatorSet.expectedProposer step found = some signer := by
  intro found hfound
  rw [listFrom_active, Option.some.injEq] at hfound
  rw [← hfound]
  exact hexpected

theorem referenceSealed_accepted {chainSpec : GnosisChainSpec} {c : AuraConfig}
    {keccak256 : Bytes → B256} {signer parentSigner : Address}
    {number grandparentStep parentStep step : ℕ} (hsteps : parentStep < step)
    (hfits : step < 2 ^ 64)
    (hproposer : ∀ validators, c.validators.tryGetListValidators number = some validators →
      ValidatorSet.expectedProposer step validators = some signer) :
    validateAuraHeaderAgainstParent referenceChecks (openCrypto keccak256) chainSpec c
      (referenceSealed keccak256 signer (number + 1) parentStep step)
      (referenceSealed keccak256 parentSigner number grandparentStep parentStep) = .ok () := by
  refine validateAuraHeaderAgainstParent_ok.mpr ⟨parentStep, step, signer, ?_⟩
  refine ⟨?_, ?_, ?_, ⟨rfl, rfl, hfits, hsteps, rfl⟩, recoverSealAuthor_sealedBy _ _ _, hproposer⟩
  · refine except_bind_ok.mpr ⟨(), rejectIf_ok.mpr (bne_self_eq_false _), rejectIf_ok.mpr ?_⟩
    exact bne_self_eq_false (BitVec.ofNat 256 number)
  · refine rejectIf_ok.mpr (decide_eq_false ?_)
    change ¬ 5 * step ≤ 5 * parentStep
    omega
  · refine rejectIf_ok.mpr ?_
    change (chainSpec.isLondonActiveAtBlock (number + 1) && false) = false
    exact Bool.and_false _

theorem referenceSealed_acceptedAura {chainSpec : GnosisChainSpec} {c : AuraConfig}
    {keccak256 : Bytes → B256} {signer parentSigner : Address}
    {number grandparentStep parentStep step : ℕ} (hconfig : chainSpec.auraConfig = some c)
    (hparis : chainSpec.isParisActiveAtBlock (number + 1) = false) (hsteps : parentStep < step)
    (hfits : step < 2 ^ 64)
    (hproposer : ∀ validators, c.validators.tryGetListValidators number = some validators →
      ValidatorSet.expectedProposer step validators = some signer) :
    AcceptedAura referenceChecks (openCrypto keccak256) chainSpec
      (referenceSealed keccak256 signer (number + 1) parentStep step)
      (referenceSealed keccak256 parentSigner number grandparentStep parentStep) :=
  acceptedAura_iff.mpr ⟨rfl, hparis, ⟨rfl, rfl, rfl, fun _ => rfl, fun _ => ⟨rfl, rfl, rfl⟩⟩, c,
    hconfig, validateAuraHeaderAgainstParent_ok.mp
      (referenceSealed_accepted hsteps hfits hproposer)⟩

end RethGnosis
