import RethGnosis.Aura.Consensus

set_option autoImplicit false

/-!
# What the seal binds

The seal hash leaves out the step and everything after the base fee. The difficulty
pins the step, and before Shanghai, by timestamp, no header has a later field. A
pre-merge header with a later timestamp may carry such fields, and the seal says
nothing about them.
-/
namespace RethGnosis

/-- A pre-merge header as it is decoded: an optional trailing field is present only if all
earlier ones are. -/
structure WireHeader (header : GnosisHeader) : Prop where
  inRange : header.InRange
  mixHash : header.mixHash = none
  nonce : header.nonce = none
  withdrawalsRoot : header.withdrawalsRoot.isSome → header.baseFeePerGas.isSome
  blobGasUsed : header.blobGasUsed.isSome → header.withdrawalsRoot.isSome
  excessBlobGas : header.excessBlobGas.isSome → header.blobGasUsed.isSome
  parentBeaconBlockRoot : header.parentBeaconBlockRoot.isSome → header.excessBlobGas.isSome
  requestsHash : header.requestsHash.isSome → header.parentBeaconBlockRoot.isSome
  blockAccessListHash : header.blockAccessListHash.isSome → header.requestsHash.isSome
  slotNumber : header.slotNumber.isSome → header.blockAccessListHash.isSome

structure NothingUncovered (header : GnosisHeader) : Prop where
  mixHash : header.mixHash = none
  nonce : header.nonce = none
  withdrawalsRoot : header.withdrawalsRoot = none
  blobGasUsed : header.blobGasUsed = none
  excessBlobGas : header.excessBlobGas = none
  parentBeaconBlockRoot : header.parentBeaconBlockRoot = none
  requestsHash : header.requestsHash = none
  blockAccessListHash : header.blockAccessListHash = none
  slotNumber : header.slotNumber = none

def SameExceptSeal (h₁ h₂ : GnosisHeader) : Prop := { h₁ with auraSeal := h₂.auraSeal } = h₂

def Collide (crypto : SealCrypto) (h₁ h₂ : GnosisHeader) : Prop :=
  sealPreimage h₁ ≠ sealPreimage h₂ ∧
    crypto.keccak256 (sealPreimage h₁) = crypto.keccak256 (sealPreimage h₂)

section Arrives
variable (checks : HeaderChecks) (crypto : SealCrypto) (chainSpec : GnosisChainSpec)
  (parent : SealedHeader)

structure Arrives (header : GnosisHeader) : Prop where
  wire : WireHeader header
  accepted : ∃ hash, AcceptedAura checks crypto chainSpec ⟨header, hash⟩ parent

end Arrives

section Facts
variable {checks : HeaderChecks} {crypto : SealCrypto} {chainSpec : GnosisChainSpec}
  {parent : SealedHeader} {header h₁ h₂ : GnosisHeader}

theorem none_of_earlier {α β : Type} {field : Option α} {earlier : Option β}
    (h : field.isSome → earlier.isSome) (hnone : earlier = none) : field = none := by
  cases field with
  | none => rfl
  | some a =>
    rw [hnone] at h
    cases h rfl

theorem WireHeader.nothingUncovered (h : WireHeader header)
    (hnone : header.withdrawalsRoot = none) :
    NothingUncovered header := by
  have hblobGasUsed := none_of_earlier h.blobGasUsed hnone
  have hexcessBlobGas := none_of_earlier h.excessBlobGas hblobGasUsed
  have hbeaconRoot := none_of_earlier h.parentBeaconBlockRoot hexcessBlobGas
  have hrequestsHash := none_of_earlier h.requestsHash hbeaconRoot
  have haccessList := none_of_earlier h.blockAccessListHash hrequestsHash
  have hslotNumber := none_of_earlier h.slotNumber haccessList
  exact ⟨h.mixHash, h.nonce, hnone, hblobGasUsed, hexcessBlobGas, hbeaconRoot, hrequestsHash,
    haccessList, hslotNumber⟩

theorem sameExceptSeal_of_covered (h : SameSealedFields h₁ h₂) (hstep : h₁.auraStep = h₂.auraStep)
    (hcovered₁ : NothingUncovered h₁) (hcovered₂ : NothingUncovered h₂) :
    SameExceptSeal h₁ h₂ := by
  obtain ⟨hparent, hommers, hbeneficiary, hstate, htransactions, hreceipts, hbloom, hdifficulty,
    hnumber, hgasLimit, hgasUsed, htimestamp, hextra, hfee⟩ := h
  obtain ⟨hmix₁, hnonce₁, hwithdrawals₁, hblob₁, hexcess₁, hbeacon₁, hrequests₁, haccess₁,
    hslot₁⟩ := hcovered₁
  obtain ⟨hmix₂, hnonce₂, hwithdrawals₂, hblob₂, hexcess₂, hbeacon₂, hrequests₂, haccess₂,
    hslot₂⟩ := hcovered₂
  unfold SameExceptSeal
  cases h₁
  cases h₂
  simp only at *
  simp only [*]

theorem step_of_difficulty {parentStep step₁ step₂ : ℕ} (h₁ : parentStep < step₁)
    (h₂ : parentStep < step₂) (hmax₁ : step₁ < 2 ^ 64) (hmax₂ : step₂ < 2 ^ 64)
    (h : calculateAuraDifficulty parentStep step₁ = calculateAuraDifficulty parentStep step₂) :
    step₁ = step₂ := by
  rw [calculateAuraDifficulty_eq h₁ hmax₁, calculateAuraDifficulty_eq h₂ hmax₂] at h
  omega

theorem Arrives.child (h : Arrives checks crypto chainSpec parent header) :
    AuraHeader checks chainSpec header ∧ ∃ parentStep step,
      AuraStep header parent.header parentStep step := by
  obtain ⟨hash, haccepted⟩ := h.accepted
  obtain ⟨-, -, hheader, c, -, parentStep, step, signer, hchild⟩ := acceptedAura_iff.mp haccepted
  exact ⟨hheader, parentStep, step, hchild.steps⟩

theorem Arrives.sameStep (harrives₁ : Arrives checks crypto chainSpec parent h₁)
    (harrives₂ : Arrives checks crypto chainSpec parent h₂)
    (hdifficulty : h₁.difficulty = h₂.difficulty) : h₁.auraStep = h₂.auraStep := by
  obtain ⟨-, parentStep₁, step₁, hsteps₁⟩ := harrives₁.child
  obtain ⟨-, parentStep₂, step₂, hsteps₂⟩ := harrives₂.child
  obtain rfl : parentStep₁ = parentStep₂ :=
    Option.some.inj (hsteps₁.previous.symm.trans hsteps₂.previous)
  rw [hsteps₁.difficulty, hsteps₂.difficulty] at hdifficulty
  rw [hsteps₁.current, hsteps₂.current, step_of_difficulty hsteps₁.increases hsteps₂.increases
    hsteps₁.fits hsteps₂.fits hdifficulty]

/-- Without Shanghai, or without a base fee, every field of the header is hashed. -/
theorem Arrives.nothingUncovered (h : Arrives checks crypto chainSpec parent header)
    (huncovered : chainSpec.isShanghaiActiveAtTimestamp header.timestamp = false ∨
      header.baseFeePerGas = none) : NothingUncovered header := by
  refine h.wire.nothingUncovered ?_
  rcases huncovered with hshanghai | hfee
  · exact h.child.1.withdrawalsRoot hshanghai
  · exact none_of_earlier h.wire.withdrawalsRoot hfee

def GnosisHeader.withWithdrawalsRoot (header : GnosisHeader) (root : B256) : GnosisHeader :=
  { header with withdrawalsRoot := some root }

theorem sameSealedFields_withWithdrawalsRoot (header : GnosisHeader) (root : B256) :
    SameSealedFields (header.withWithdrawalsRoot root) header :=
  ⟨rfl, rfl, rfl, rfl, rfl, rfl, rfl, rfl, rfl, rfl, rfl, rfl, rfl, rfl⟩

theorem GnosisHeader.InRange.withWithdrawalsRoot (h : header.InRange) (root : B256) :
    (header.withWithdrawalsRoot root).InRange where
  difficulty := h.difficulty
  number := h.number
  gasLimit := h.gasLimit
  gasUsed := h.gasUsed
  timestamp := h.timestamp
  extraData := h.extraData
  auraStep := h.auraStep
  baseFeePerGas := h.baseFeePerGas
  blobGasUsed := h.blobGasUsed
  excessBlobGas := h.excessBlobGas
  slotNumber := h.slotNumber

theorem Arrives.withWithdrawalsRoot (hlaw : PreMergeLaw checks.isPreMerge)
    (h : Arrives checks crypto chainSpec parent header)
    (hshanghai : chainSpec.isShanghaiActiveAtTimestamp header.timestamp = true)
    (hfee : header.baseFeePerGas.isSome) (root : B256) :
    Arrives checks crypto chainSpec parent (header.withWithdrawalsRoot root) := by
  obtain ⟨hwire, hash, haccepted⟩ := h
  obtain ⟨hpre, hparis, hheader, c, hconfig, parentStep, step, signer, hchild⟩ :=
    acceptedAura_iff.mp haccepted
  refine ⟨?_, hash, acceptedAura_iff.mpr ⟨?_, hparis, ?_, c, hconfig, parentStep, step, signer,
    ?_⟩⟩
  · refine ⟨hwire.inRange.withWithdrawalsRoot root, hwire.mixHash, hwire.nonce, fun _ => hfee,
      fun _ => rfl, ?_, ?_, ?_, ?_, ?_⟩
    · exact hwire.excessBlobGas
    · exact hwire.parentBeaconBlockRoot
    · exact hwire.requestsHash
    · exact hwire.blockAccessListHash
    · exact hwire.slotNumber
  · rw [hlaw] at hpre ⊢
    exact hpre
  · refine ⟨hheader.ommersHash, hheader.extraData, hheader.gas, ?_, hheader.blobFields⟩
    intro hinactive
    exact absurd (hshanghai.symm.trans hinactive) (by decide)
  · refine ⟨hchild.hashNumber, hchild.timestamp, hchild.baseFee, hchild.steps.congr rfl rfl, ?_,
      hchild.proposer⟩
    have hsigned := hchild.signed
    unfold recoverSealAuthor at hsigned ⊢
    rw [computeSealHash_congr crypto (sameSealedFields_withWithdrawalsRoot header root)]
    exact hsigned

/-- The seal of a header binds all its fields exactly if Shanghai is not active at its timestamp
or it has no base fee. -/
theorem seal_binds_iff (hlaw : PreMergeLaw checks.isPreMerge)
    (h₁ : GnosisHeader) (harrives₁ : Arrives checks crypto chainSpec parent h₁) :
    (∀ h₂, Arrives checks crypto chainSpec parent h₂ → ¬ Collide crypto h₁ h₂ →
        computeSealHash crypto h₁ = computeSealHash crypto h₂ → SameExceptSeal h₁ h₂) ↔
      chainSpec.isShanghaiActiveAtTimestamp h₁.timestamp = false ∨ h₁.baseFeePerGas = none := by
  constructor
  · intro hbinds
    by_contra hopen
    obtain ⟨hactive, hfee⟩ := not_or.mp hopen
    have hshanghai := Bool.eq_true_of_not_eq_false hactive
    have hsome := Option.isSome_iff_ne_none.mpr hfee
    -- a root other than the header's own, under the same seal
    obtain ⟨root, hroot⟩ : ∃ root, h₁.withdrawalsRoot ≠ some root := by
      cases h₁.withdrawalsRoot with
      | none => exact ⟨0, by simp⟩
      | some found => exact ⟨found + 1, by simp⟩
    have hfields := sameSealedFields_withWithdrawalsRoot h₁ root
    have hsame := hbinds _ (harrives₁.withWithdrawalsRoot hlaw hshanghai hsome root)
      (fun hcollide => hcollide.1 (sealPreimage_congr hfields).symm)
      (computeSealHash_congr crypto hfields).symm
    exact hroot (congrArg GnosisHeader.withdrawalsRoot hsame)
  · intro huncovered h₂ harrives₂ hcollide hhash
    have hpreimage : sealPreimage h₁ = sealPreimage h₂ := by
      by_contra hne
      exact hcollide ⟨hne, hhash⟩
    have hsame := sealPreimage_inj harrives₁.wire.inRange harrives₂.wire.inRange hpreimage
    refine sameExceptSeal_of_covered hsame
      (harrives₁.sameStep harrives₂ hsame.difficulty) (harrives₁.nothingUncovered huncovered)
      (harrives₂.nothingUncovered ?_)
    rw [← hsame.timestamp, ← hsame.baseFeePerGas]
    exact huncovered

def shanghaiSpec : GnosisChainSpec :=
  referenceSpec [(.ethereum .Shanghai, .timestamp 50)] (listFrom [1#160, 2#160])

def lateHeader : GnosisHeader := (referenceSealed referenceKeccak 2#160 11 10 11).header

theorem lateHeader_arrives :
    Arrives referenceChecks (openCrypto referenceKeccak) shanghaiSpec
      (referenceSealed referenceKeccak 1#160 10 9 10) lateHeader := by
  have hdifficulty : calculateAuraDifficulty 10 11 < 2 ^ 256 := by decide
  refine ⟨?_, 11#256, referenceSealed_acceptedAura rfl rfl (by decide) (by decide)
    (listFrom_proposer rfl)⟩
  refine ⟨⟨hdifficulty, ?_, ?_, ?_, ?_, ?_, ?_, ?_, nofun, nofun, nofun⟩, rfl, rfl, nofun, nofun,
    nofun, nofun, nofun, nofun, nofun⟩
  · exact (by decide : 11 < 2 ^ 64)
  · exact (by decide : 10000000 < 2 ^ 64)
  · exact (by decide : 0 < 2 ^ 64)
  · exact (by decide : 55 < 2 ^ 64)
  · exact (by decide : 0 < 2 ^ 63)
  · intro step hstep
    rw [← Option.some.inj hstep]
    decide
  · intro fee hfee
    rw [← Option.some.inj hfee]
    decide

/-- A withdrawals root is added to a sealed header, and both pass under the one seal. -/
theorem seal_omits_withdrawalsRoot :
    Arrives referenceChecks (openCrypto referenceKeccak) shanghaiSpec
        (referenceSealed referenceKeccak 1#160 10 9 10) lateHeader ∧
      Arrives referenceChecks (openCrypto referenceKeccak) shanghaiSpec
        (referenceSealed referenceKeccak 1#160 10 9 10) (lateHeader.withWithdrawalsRoot 7#256) ∧
      computeSealHash (openCrypto referenceKeccak) lateHeader =
        computeSealHash (openCrypto referenceKeccak) (lateHeader.withWithdrawalsRoot 7#256) ∧
      ¬ Collide (openCrypto referenceKeccak) lateHeader (lateHeader.withWithdrawalsRoot 7#256) ∧
      ¬ SameExceptSeal lateHeader (lateHeader.withWithdrawalsRoot 7#256) := by
  have hfields := sameSealedFields_withWithdrawalsRoot lateHeader 7#256
  refine ⟨lateHeader_arrives, lateHeader_arrives.withWithdrawalsRoot referenceChecks_preMerge rfl
    rfl 7#256, (computeSealHash_congr _ hfields).symm,
    fun hcollide => hcollide.1 (sealPreimage_congr hfields).symm, ?_⟩
  intro hsame
  have hroot : lateHeader.withdrawalsRoot = some 7#256 :=
    congrArg GnosisHeader.withdrawalsRoot hsame
  cases hroot

theorem seal_binds_iff_lateHeader :
    PreMergeLaw referenceChecks.isPreMerge ∧
      Arrives referenceChecks (openCrypto referenceKeccak) shanghaiSpec
        (referenceSealed referenceKeccak 1#160 10 9 10) lateHeader ∧
      ((∀ h₂, Arrives referenceChecks (openCrypto referenceKeccak) shanghaiSpec
          (referenceSealed referenceKeccak 1#160 10 9 10) h₂ →
          ¬ Collide (openCrypto referenceKeccak) lateHeader h₂ →
          computeSealHash (openCrypto referenceKeccak) lateHeader =
            computeSealHash (openCrypto referenceKeccak) h₂ → SameExceptSeal lateHeader h₂) ↔
        shanghaiSpec.isShanghaiActiveAtTimestamp lateHeader.timestamp = false ∨
          lateHeader.baseFeePerGas = none) :=
  ⟨referenceChecks_preMerge, lateHeader_arrives,
    seal_binds_iff referenceChecks_preMerge lateHeader lateHeader_arrives⟩

end Facts

end RethGnosis
