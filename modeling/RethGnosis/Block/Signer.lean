import RethGnosis.Aura.Consensus
import RethGnosis.Block.FailedImport

set_option autoImplicit false

/-!
# Who sealed a block

Header validation recovers a signer from the seal and forgets it. Execution counts the
beneficiary as the signer and never reads the seal, and the proposer check that
validation leaves to it under a contract set is made nowhere.
-/
namespace RethGnosis
open Fallible

def GnosisHeader.creditedTo (header : GnosisHeader) (beneficiary : Address)
    (auraSeal : BitVec 520) : GnosisHeader :=
  { header with beneficiary := beneficiary, auraSeal := some auraSeal }

section Beneficiary
variable {checks : HeaderChecks} {crypto : SealCrypto} {chainSpec : GnosisChainSpec}
  {header parent : SealedHeader}

theorem AcceptedAura.stepIsSome (h : AcceptedAura checks crypto chainSpec header parent) :
    header.header.auraStep.isSome = true := by
  obtain ⟨-, -, -, c, -, parentStep, step, signer, hchild⟩ := acceptedAura_iff.mp h
  rw [hchild.steps.current, Option.isSome_some]

/-- Of the beneficiary and the seal, acceptance reads only the recovered signer. -/
theorem AcceptedAura.creditedTo (hlaw : PreMergeLaw checks.isPreMerge)
    (h : AcceptedAura checks crypto chainSpec header parent) {beneficiary signer : Address}
    {auraSeal : BitVec 520}
    (hsigned : recoverSealAuthor crypto (header.header.creditedTo beneficiary auraSeal) =
      .ok signer)
    (hproposer : ∀ c validators, chainSpec.auraConfig = some c →
      c.validators.tryGetListValidators (header.header.number - 1) = some validators →
        ValidatorSet.expectedProposer header.header.step validators = some signer)
    (hash : B256) :
    AcceptedAura checks crypto chainSpec ⟨header.header.creditedTo beneficiary auraSeal, hash⟩
      parent := by
  obtain ⟨-, hparis, hheader, c, hconfig, parentStep, step, first, hchild⟩ := acceptedAura_iff.mp h
  obtain ⟨hstep, -⟩ := hchild.steps.step_eq
  have hsome : (header.header.creditedTo beneficiary auraSeal).auraStep.isSome = true :=
    h.stepIsSome
  refine acceptedAura_iff.mpr ⟨?_, hparis, ?_, c, hconfig, parentStep, step, signer, ?_⟩
  · rw [hlaw, hsome]
    rfl
  · exact ⟨hheader.ommersHash, hheader.extraData, hheader.gas, hheader.withdrawalsRoot,
      hheader.blobFields⟩
  · refine ⟨hchild.hashNumber, hchild.timestamp, hchild.baseFee, hchild.steps.congr rfl rfl,
      hsigned, ?_⟩
    intro validators hactive
    rw [← hstep]
    exact hproposer c validators hconfig hactive

theorem AcceptedAura.signed (h : AcceptedAura checks crypto chainSpec header parent) :
    ∃ signer, recoverSealAuthor crypto header.header = .ok signer ∧
      ∀ c validators, chainSpec.auraConfig = some c →
        c.validators.tryGetListValidators (header.header.number - 1) = some validators →
          ValidatorSet.expectedProposer header.header.step validators = some signer := by
  obtain ⟨-, -, -, c, hconfig, parentStep, step, signer, hchild⟩ := acceptedAura_iff.mp h
  refine ⟨signer, hchild.signed, ?_⟩
  intro c' validators hconfig' hactive
  rw [hconfig, Option.some.injEq] at hconfig'
  rw [hchild.steps.step_eq.1]
  subst hconfig'
  exact hchild.proposer validators hactive

theorem recoverSealAuthor_ok {header : GnosisHeader} {signer : Address}
    (h : recoverSealAuthor crypto header = .ok signer) :
    ∃ auraSeal, header.auraSeal = some auraSeal ∧
      recoverSeal crypto auraSeal (computeSealHash crypto header) = .ok signer := by
  unfold recoverSealAuthor at h
  cases hseal : header.auraSeal with
  | none =>
    rw [hseal] at h
    cases h
  | some auraSeal =>
    rw [hseal] at h
    exact ⟨auraSeal, rfl, h⟩

theorem AcceptedAura.credit_any (hlaw : PreMergeLaw checks.isPreMerge) (hsigns : SignsAny crypto)
    (h : AcceptedAura checks crypto chainSpec header parent) (beneficiary : Address)
    (hash : B256) :
    ∃ auraSeal, AcceptedAura checks crypto chainSpec
        ⟨header.header.creditedTo beneficiary auraSeal, hash⟩ parent ∧
      recoverSealAuthor crypto (header.header.creditedTo beneficiary auraSeal) =
        recoverSealAuthor crypto header.header := by
  obtain ⟨signer, hsigned, hproposer⟩ := h.signed
  obtain ⟨auraSeal, -, hrecovered⟩ := recoverSealAuthor_ok hsigned
  obtain ⟨otherSeal, hother⟩ := hsigns _ _ _ hrecovered
    (computeSealHash crypto (header.header.creditedTo beneficiary auraSeal))
  have hsame : recoverSealAuthor crypto (header.header.creditedTo beneficiary otherSeal) =
      .ok signer := hother
  exact ⟨otherSeal, h.creditedTo hlaw hsame hproposer hash, hsame.trans hsigned.symm⟩

/-- The signer is the beneficiary in every header accepted on a parent only if none is. -/
theorem signer_eq_beneficiary_iff (hlaw : PreMergeLaw checks.isPreMerge)
    (hsigns : SignsAny crypto) (parent : SealedHeader) :
    ((∀ header, AcceptedAura checks crypto chainSpec header parent →
        recoverSealAuthor crypto header.header = .ok header.header.beneficiary) ↔
      ∀ header, ¬ AcceptedAura checks crypto chainSpec header parent) ∧
    (∀ header, AcceptedAura checks crypto chainSpec header parent → ∀ beneficiary hash,
      ∃ auraSeal, AcceptedAura checks crypto chainSpec
          ⟨header.header.creditedTo beneficiary auraSeal, hash⟩ parent ∧
        recoverSealAuthor crypto (header.header.creditedTo beneficiary auraSeal) =
          recoverSealAuthor crypto header.header) ∧
    (∀ header, AcceptedAura checks crypto chainSpec header parent → ∀ c validators,
      chainSpec.auraConfig = some c →
      c.validators.tryGetListValidators (header.header.number - 1) = some validators →
        (recoverSealAuthor crypto header.header = .ok header.header.beneficiary ↔
          ValidatorSet.expectedProposer header.header.step validators =
            some header.header.beneficiary)) := by
  refine ⟨⟨?_, ?_⟩, ?_, ?_⟩
  · intro hall header haccepted
    have hown := hall header haccepted
    -- credit the block to an address that is not its signer
    obtain ⟨auraSeal, hcredited, hsame⟩ := haccepted.credit_any hlaw hsigns
      (header.header.beneficiary + 1) header.hash
    have hother := (hsame.symm.trans (hall _ hcredited)).symm.trans hown
    have hbeneficiary : header.header.beneficiary + 1 = header.header.beneficiary :=
      Except.ok.inj hother
    exact absurd hbeneficiary (by simp)
  · intro hnone header haccepted
    exact absurd haccepted (hnone header)
  · intro header haccepted beneficiary hash
    exact haccepted.credit_any hlaw hsigns beneficiary hash
  · intro header haccepted c validators hconfig hactive
    obtain ⟨signer, hsigned, hproposer⟩ := haccepted.signed
    rw [hsigned, hproposer c validators hconfig hactive, Except.ok.injEq, Option.some.injEq]

def sealedVote : SealedHeader := referenceSealed referenceKeccak 2#160 11 10 11

def borrowedSeal : BitVec 520 :=
  openSeal 2#160
    (computeSealHash (openCrypto referenceKeccak) (sealedVote.header.creditedTo 1#160 0))

def borrowedVote : SealedHeader where
  header := sealedVote.header.creditedTo 1#160 borrowedSeal
  hash := 12#256

theorem borrowedVote_signed :
    recoverSealAuthor (openCrypto referenceKeccak) borrowedVote.header = .ok 2#160 :=
  recoverSealAuthor_sealedBy (sealedVote.header.creditedTo 1#160 0) referenceKeccak 2#160

theorem borrowedVote_accepted :
    AcceptedAura referenceChecks (openCrypto referenceKeccak)
      (referenceSpec [] (listFrom [1#160, 2#160])) borrowedVote
      (referenceSealed referenceKeccak 1#160 10 9 10) := by
  have hexpected : ValidatorSet.expectedProposer 11 [1#160, 2#160] = some 2#160 := rfl
  have haccepted : AcceptedAura referenceChecks (openCrypto referenceKeccak)
      (referenceSpec [] (listFrom [1#160, 2#160])) sealedVote
      (referenceSealed referenceKeccak 1#160 10 9 10) :=
    referenceSealed_acceptedAura rfl rfl (by decide) (by decide) (listFrom_proposer hexpected)
  refine haccepted.creditedTo referenceChecks_preMerge borrowedVote_signed ?_ _
  intro c validators hconfig hfound
  rw [← Option.some.inj hconfig] at hfound
  exact listFrom_proposer hexpected validators hfound

/-- Validator 2 seals it, validator 1 is counted. -/
theorem signer_not_beneficiary :
    AcceptedAura referenceChecks (openCrypto referenceKeccak)
        (referenceSpec [] (listFrom [1#160, 2#160])) borrowedVote
        (referenceSealed referenceKeccak 1#160 10 9 10) ∧
      recoverSealAuthor (openCrypto referenceKeccak) borrowedVote.header = .ok 2#160 ∧
      borrowedVote.header.beneficiary = 1#160 :=
  ⟨borrowedVote_accepted, borrowedVote_signed, rfl⟩

theorem signer_eq_beneficiary_iff_borrowedVote :
    PreMergeLaw referenceChecks.isPreMerge ∧ SignsAny (openCrypto referenceKeccak) ∧
      ((∀ header, AcceptedAura referenceChecks (openCrypto referenceKeccak)
          (referenceSpec [] (listFrom [1#160, 2#160])) header
            (referenceSealed referenceKeccak 1#160 10 9 10) →
          recoverSealAuthor (openCrypto referenceKeccak) header.header =
            .ok header.header.beneficiary) ↔
        ∀ header, ¬ AcceptedAura referenceChecks (openCrypto referenceKeccak)
          (referenceSpec [] (listFrom [1#160, 2#160])) header
            (referenceSealed referenceKeccak 1#160 10 9 10)) :=
  ⟨referenceChecks_preMerge, openCrypto_signsAny referenceKeccak,
    (signer_eq_beneficiary_iff referenceChecks_preMerge (openCrypto_signsAny referenceKeccak)
      _).1⟩

end Beneficiary

def GnosisBlock.resealed (block : GnosisBlock) (auraSeal : BitVec 520) : GnosisBlock :=
  { block with header := block.header.creditedTo block.header.beneficiary auraSeal }

section Import
variable {δ ε : Type} (checks : HeaderChecks) (crypto : SealCrypto) (source : EnvSource)
  (config : GnosisEvmConfig) (ext : Externals δ ε) (c : AuraConfig) (parent : SealedHeader)
  (s : ExecState δ)

structure PosdaoImport (block : GnosisBlock) (hash : B256) : Prop where
  aura : config.chainSpec.auraConfig = some c
  posdao : c.posdaoTransition < block.header.number
  contract : ∃ contract, c.validators.contractAddressAt block.header.number = some contract
  accepted : AcceptedAura checks crypto config.chainSpec ⟨block.header, hash⟩ parent
  executes : ∃ result t, importBlock source config ext block s = .ok result t

def SealedInTurn (validators : List Address) (block : GnosisBlock) : Prop :=
  ∃ signer, recoverSealAuthor crypto block.header = .ok signer ∧
    ValidatorSet.expectedProposer block.header.step validators = some signer

end Import

section Proposer
variable {δ ε : Type} {checks : HeaderChecks} {crypto : SealCrypto} {source : EnvSource}
  {config : GnosisEvmConfig} {ext : Externals δ ε} {c : AuraConfig} {parent : SealedHeader}
  {s : ExecState δ} {block : GnosisBlock} {hash : B256}

theorem evmEnv_creditedTo {header : GnosisHeader} {auraSeal : BitVec 520}
    (hpre : source.isPreMerge header = true)
    (hcredited : source.isPreMerge (header.creditedTo header.beneficiary auraSeal) = true)
    (chainSpec : GnosisChainSpec) :
    evmEnv source chainSpec (header.creditedTo header.beneficiary auraSeal) =
      evmEnv source chainSpec header := by
  have hspec : gnosisRevmSpec source chainSpec (header.creditedTo header.beneficiary auraSeal) =
      gnosisRevmSpec source chainSpec header := by
    unfold gnosisRevmSpec
    rw [hpre, hcredited]
    rfl
  unfold evmEnv headerCfgEnv headerBlockEnv
  rw [hspec, hpre, hcredited]
  rfl

/-- No step of an import reads the seal. -/
theorem importBlock_resealed {auraSeal : BitVec 520}
    (hpre : source.isPreMerge block.header = true)
    (hresealed : source.isPreMerge (block.resealed auraSeal).header = true) :
    importBlock source config ext (block.resealed auraSeal) s =
      importBlock source config ext block s := by
  have hexecutor : executorFor source config (block.resealed auraSeal) =
      executorFor source config block := by
    funext ctx
    unfold executorFor
    rw [show evmEnv source config.chainSpec (block.resealed auraSeal).header =
      evmEnv source config.chainSpec block.header from evmEnv_creditedTo hpre hresealed _]
  unfold importBlock
  rw [hexecutor]
  rfl

theorem PosdaoImport.resealed (hlaw : PreMergeLaw checks.isPreMerge)
    (hsource : PreMergeLaw source.isPreMerge)
    (h : PosdaoImport checks crypto source config ext c parent s block hash)
    (hlist : c.validators.tryGetListValidators (block.header.number - 1) = none)
    {auraSeal : BitVec 520} {signer : Address}
    (hsigned : recoverSealAuthor crypto (block.resealed auraSeal).header = .ok signer)
    (otherHash : B256) :
    PosdaoImport checks crypto source config ext c parent s (block.resealed auraSeal)
      otherHash := by
  have hpre : source.isPreMerge block.header = true := by
    rw [hsource, ← hlaw]
    exact h.accepted.preMerge
  have hresealed : source.isPreMerge (block.resealed auraSeal).header = true := by
    have hstep : (block.resealed auraSeal).header.auraStep.isSome = true := h.accepted.stepIsSome
    rw [hsource, hstep]
    rfl
  refine ⟨h.aura, h.posdao, h.contract, ?_, ?_⟩
  · refine h.accepted.creditedTo hlaw hsigned ?_ otherHash
    intro c' validators hconfig hactive
    rw [h.aura, Option.some.injEq] at hconfig
    subst hconfig
    rw [hlist] at hactive
    cases hactive
  · rw [importBlock_resealed hpre hresealed]
    exact h.executes

theorem recoverSealAuthor_resealed (block : GnosisBlock) (auraSeal : BitVec 520) :
    recoverSealAuthor crypto (block.resealed auraSeal).header =
      recoverSeal crypto auraSeal (computeSealHash crypto block.header) :=
  congrArg (recoverSeal crypto auraSeal) (computeSealHash_congr crypto
    ⟨rfl, rfl, rfl, rfl, rfl, rfl, rfl, rfl, rfl, rfl, rfl, rfl, rfl, rfl⟩)

theorem SealedInTurn.unique {validators : List Address} {seal₁ seal₂ : BitVec 520}
    {signer₁ signer₂ : Address} (h₁ : SealedInTurn crypto validators (block.resealed seal₁))
    (hsigned₁ : recoverSealAuthor crypto (block.resealed seal₁).header = .ok signer₁)
    (hsigned₂ : recoverSealAuthor crypto (block.resealed seal₂).header = .ok signer₂)
    (h₂ : SealedInTurn crypto validators (block.resealed seal₂)) : signer₁ = signer₂ := by
  obtain ⟨found₁, hfound₁, hturn₁⟩ := h₁
  obtain ⟨found₂, hfound₂, hturn₂⟩ := h₂
  have hsame₁ : found₁ = signer₁ := Except.ok.inj (hfound₁.symm.trans hsigned₁)
  have hsame₂ : found₂ = signer₂ := Except.ok.inj (hfound₂.symm.trans hsigned₂)
  have hturn : some found₁ = some found₂ := hturn₁.symm.trans hturn₂
  rw [← hsame₁, ← hsame₂]
  exact Option.some.inj hturn

/-- Over all seals of one block, a block that passes and executes is sealed in turn only if the
set at its parent is a list with the same proposer. -/
theorem sealedInTurn_iff (hlaw : PreMergeLaw checks.isPreMerge)
    (hsource : PreMergeLaw source.isPreMerge) (htwo : TwoSigners crypto) (block : GnosisBlock)
    (validators : List Address) :
    (∀ auraSeal hash,
        PosdaoImport checks crypto source config ext c parent s (block.resealed auraSeal) hash →
          SealedInTurn crypto validators (block.resealed auraSeal)) ↔
      (∀ auraSeal hash, ¬ PosdaoImport checks crypto source config ext c parent s
          (block.resealed auraSeal) hash) ∨
        ∃ active, c.validators.tryGetListValidators (block.header.number - 1) = some active ∧
          ValidatorSet.expectedProposer block.header.step active =
            ValidatorSet.expectedProposer block.header.step validators := by
  constructor
  · intro hall
    by_cases hnone : ∀ auraSeal hash, ¬ PosdaoImport checks crypto source config ext c parent s
        (block.resealed auraSeal) hash
    · exact .inl hnone
    · obtain ⟨auraSeal, hnone⟩ := not_forall.mp hnone
      obtain ⟨hash, hnone⟩ := not_forall.mp hnone
      have himport := not_not.mp hnone
      obtain ⟨signer, hsigned, hturn⟩ := hall auraSeal hash himport
      cases hlist : c.validators.tryGetListValidators (block.header.number - 1) with
      | some active =>
        obtain ⟨found, hfound, hproposer⟩ := himport.accepted.signed
        have hactive := hproposer c active himport.aura hlist
        obtain rfl : found = signer := Except.ok.inj (hfound.symm.trans hsigned)
        exact .inr ⟨active, rfl, hactive.trans hturn.symm⟩
      | none =>
        obtain ⟨seal₁, seal₂, signer₁, signer₂, hne, hsigned₁, hsigned₂⟩ :=
          htwo (computeSealHash crypto block.header)
        rw [← recoverSealAuthor_resealed] at hsigned₁ hsigned₂
        -- both seals pass and execute, so both signers would be the one proposer
        have hturn₁ := hall seal₁ hash (himport.resealed hlaw hsource hlist hsigned₁ hash)
        have hturn₂ := hall seal₂ hash (himport.resealed hlaw hsource hlist hsigned₂ hash)
        exact absurd (hturn₁.unique hsigned₁ hsigned₂ hturn₂) hne
  · rintro (hnone | ⟨active, hlist, hsame⟩) auraSeal hash himport
    · exact absurd himport (hnone auraSeal hash)
    · obtain ⟨signer, hsigned, hproposer⟩ := himport.accepted.signed
      have hactive := hproposer c active himport.aura hlist
      exact ⟨signer, hsigned, hsame.symm.trans hactive⟩

def sealSource : EnvSource := { referenceSource with isPreMerge := referenceChecks.isPreMerge }

theorem sealSource_preMerge : PreMergeLaw sealSource.isPreMerge := fun _ => rfl

def askingParent : SealedHeader := referenceSealed referenceKeccak 1#160 4 9 10

def outOfTurn : GnosisBlock := ⟨(referenceSealed referenceKeccak 2#160 5 10 11).header, [], none⟩

def askedState : ExecState Unit :=
  final (importBlock sealSource posdaoNode (nodeExternals answeringTransact)
    ⟨askingParent.header, [], none⟩
    { db := (), stateHook := none, rollingFinality := RollingFinality.new [], receipts := [],
      gasUsed := 0, blobGasUsed := 0 })

theorem outOfTurn_import :
    PosdaoImport referenceChecks (openCrypto referenceKeccak) sealSource posdaoNode
      (nodeExternals answeringTransact) (contractFrom 1 9#160 0) askingParent askedState outOfTurn
        5#256 := by
  have hactive : (contractFrom 1 9#160 0).validators.tryGetListValidators 4 = none := by decide
  obtain ⟨result, t, hrun, -⟩ := exists_ok
    (r := importBlock sealSource posdaoNode (nodeExternals answeringTransact) outOfTurn askedState)
    (by decide +kernel)
  refine ⟨rfl, by decide, ⟨9#160, by decide⟩, ?_, ⟨result, t, hrun⟩⟩
  refine referenceSealed_acceptedAura rfl rfl (by decide) (by decide) ?_
  intro validators hfound
  rw [hactive] at hfound
  cases hfound

/-- Validator 2 seals the block in the turn of validator 4, the only one the contract returned. -/
theorem sealedInTurn_unchecked :
    PosdaoImport referenceChecks (openCrypto referenceKeccak) sealSource posdaoNode
        (nodeExternals answeringTransact) (contractFrom 1 9#160 0) askingParent askedState
          outOfTurn 5#256 ∧
      askedState.rollingFinality.validators = [4#160] ∧
      askedState.rollingFinality.validatorsSealed = true ∧
      recoverSealAuthor (openCrypto referenceKeccak) outOfTurn.header = .ok 2#160 ∧
      ValidatorSet.expectedProposer outOfTurn.header.step [4#160] = some 4#160 :=
  ⟨outOfTurn_import, by decide +kernel, by decide +kernel, recoverSealAuthor_sealedBy _ _ _, rfl⟩

theorem outOfTurn_resealed : ∃ auraSeal, outOfTurn.resealed auraSeal = outOfTurn := by
  obtain ⟨auraSeal, hseal, -⟩ := recoverSealAuthor_ok
    (recoverSealAuthor_sealedBy { referenceHeader 5 10 11 with parentHash := 4#256 }
      referenceKeccak 2#160)
  refine ⟨auraSeal, ?_⟩
  unfold GnosisBlock.resealed GnosisHeader.creditedTo
  rw [← hseal]
  rfl

theorem sealedInTurn_iff_outOfTurn :
    PreMergeLaw referenceChecks.isPreMerge ∧ PreMergeLaw sealSource.isPreMerge ∧
      TwoSigners (openCrypto referenceKeccak) ∧
      ¬ ∀ auraSeal hash, PosdaoImport referenceChecks (openCrypto referenceKeccak) sealSource
          posdaoNode (nodeExternals answeringTransact) (contractFrom 1 9#160 0) askingParent
            askedState (outOfTurn.resealed auraSeal) hash →
          SealedInTurn (openCrypto referenceKeccak) [4#160] (outOfTurn.resealed auraSeal) := by
  have htwo := openCrypto_twoSigners referenceKeccak
  refine ⟨referenceChecks_preMerge, sealSource_preMerge, htwo, ?_⟩
  rw [sealedInTurn_iff referenceChecks_preMerge sealSource_preMerge htwo outOfTurn [4#160]]
  have hactive : (contractFrom 1 9#160 0).validators.tryGetListValidators
      (outOfTurn.header.number - 1) = none := by
    decide
  rintro (hnone | ⟨active, hlist, -⟩)
  · obtain ⟨auraSeal, hsame⟩ := outOfTurn_resealed
    have himport := hnone auraSeal 5#256
    rw [hsame] at himport
    exact himport outOfTurn_import
  · rw [hactive] at hlist
    cases hlist

end Proposer

end RethGnosis
