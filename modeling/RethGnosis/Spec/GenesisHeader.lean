import RethGnosis.Aura.Consensus
import RethGnosis.Block.Build
import RethGnosis.Spec.ForkId

set_option autoImplicit false

/-!
# The form of the genesis header

`From<Genesis>` gives the header the AuRa form by comparing difficulties, and the spec its
merge block by the chain id. The consensus checks take the phase from both.
-/
namespace RethGnosis

/-- A genesis file; what only `make_genesis_header` reads of it is left to that function. -/
structure GenesisFile extends Genesis where
  difficulty : U256
  number : Option ℕ

structure GenesisSource where
  makeGenesisHeader : GenesisFile → List (Hardfork × ForkCondition) → Header
  intoGnosis : Header → GnosisHeader
  hashSlow : GnosisHeader → B256
  ethHashSlow : Header → B256

/-- The header has the number of the file, 0 by default; the conversion keeps it and the hash, and
sets no AuRa field. -/
structure GenesisLaws (source : GenesisSource) : Prop where
  number : ∀ file hardforks, (source.makeGenesisHeader file hardforks).number = file.number.getD 0
  keepsNumber : ∀ header, (source.intoGnosis header).number = header.number
  keepsHash : ∀ header, source.hashSlow (source.intoGnosis header) = source.ethHashSlow header
  auraStep : ∀ header, (source.intoGnosis header).auraStep = none
  auraSeal : ∀ header, (source.intoGnosis header).auraSeal = none

section Genesis
variable (source : GenesisSource) (file : GenesisFile)

def GenesisFile.chainSpec : GnosisChainSpec := GnosisChainSpec.ofGenesis file.toGenesis

def isParisActiveAtGenesis : Bool :=
  match file.terminalTotalDifficulty with
  | some ttd => ttd ≤ file.difficulty
  | none => false

def innerGenesisHeader : Header := source.makeGenesisHeader file file.chainSpec.hardforks

/-- By default the header is post-merge; before Paris it is converted to the pre-merge form. -/
def genesisHeader : GnosisHeader :=
  let header := source.intoGnosis (source.makeGenesisHeader file file.chainSpec.hardforks)
  if !isParisActiveAtGenesis file then
    { header with
      mixHash := none
      nonce := none
      auraSeal := some 0
      auraStep := some (0 : ℕ) }
  else header

def genesisHash : B256 := source.hashSlow (genesisHeader source file)

def innerGenesisHash : B256 := source.ethHashSlow (innerGenesisHeader source file)

def mergeBlock : ℕ := (knownMergeBlock file.toGenesis).getD 0

end Genesis

section Phase
variable {source : GenesisSource} {checks : HeaderChecks} {file : GenesisFile}

theorem lookup_configuredForks {fork : Hardfork} (condition : ℕ → ForkCondition)
    {opts : List (Hardfork × Option ℕ)} (h : fork ∉ opts.map Prod.fst) :
    (configuredForks condition opts).lookup fork = none := by
  rw [List.lookup_eq_none_iff]
  intro entry hentry
  obtain ⟨opt, hopt, hsome⟩ := List.mem_filterMap.mp hentry
  obtain ⟨activation, -, rfl⟩ := Option.map_eq_some_iff.mp hsome
  have hne : fork ≠ opt.1 := fun heq => h (heq ▸ List.mem_map_of_mem hopt)
  simpa using hne

theorem fork_paris : file.chainSpec.fork (.ethereum .Paris) =
    ((parisHardfork file.toGenesis).lookup (.ethereum .Paris)).getD .never := by
  have hblocks : (blockHardforks file.toGenesis).lookup (.ethereum .Paris) = none := by
    unfold blockHardforks
    split
    · exact lookup_configuredForks _ (by simp [mainnetHardforkOpts])
    · exact lookup_configuredForks _ (by simp [chiadoHardforkOpts])
  have htimes : (configuredForks .timestamp (timeHardforkOpts file.toGenesis)).lookup
      (.ethereum .Paris) = none := lookup_configuredForks _ (by simp [timeHardforkOpts])
  unfold GnosisChainSpec.fork GenesisFile.chainSpec GnosisChainSpec.ofGenesis
  dsimp only
  rw [List.lookup_append, List.lookup_append, hblocks, htimes, Option.or_none, Option.none_or]

theorem isParisActive_none (h : file.terminalTotalDifficulty = none) (number : ℕ) :
    file.chainSpec.isParisActiveAtBlock number = false := by
  rw [GnosisChainSpec.isParisActiveAtBlock, fork_paris, parisHardfork, h]
  rfl

theorem isParisActive_some {ttd : U256} (h : file.terminalTotalDifficulty = some ttd)
    (number : ℕ) :
    file.chainSpec.isParisActiveAtBlock number = decide (mergeBlock file ≤ number) := by
  rw [GnosisChainSpec.isParisActiveAtBlock, fork_paris, parisHardfork, h]
  rfl

theorem genesisHeader_number (hlaws : GenesisLaws source) :
    (genesisHeader source file).number = file.number.getD 0 := by
  have hnumber :
      (source.intoGnosis (source.makeGenesisHeader file file.chainSpec.hardforks)).number =
        file.number.getD 0 := by
    rw [hlaws.keepsNumber, hlaws.number]
  unfold genesisHeader
  split
  · exact hnumber
  · exact hnumber

theorem isPreMerge_genesisHeader (hlaws : GenesisLaws source)
    (hpre : PreMergeLaw checks.isPreMerge) :
    checks.isPreMerge (genesisHeader source file) = !isParisActiveAtGenesis file := by
  rw [hpre]
  unfold genesisHeader
  cases isParisActiveAtGenesis file with
  | false => rfl
  | true =>
    rw [if_neg (by decide), hlaws.auraStep, hlaws.auraSeal]
    rfl

/-- The difficulties put the genesis block before the merge exactly if the merge block does, read
at block 0 and at the number of the header. -/
def PhaseCondition (file : GenesisFile) : Prop :=
  ∀ ttd, file.terminalTotalDifficulty = some ttd →
    (file.difficulty < ttd ↔ 0 < mergeBlock file) ∧
      (file.difficulty < ttd ↔ file.number.getD 0 < mergeBlock file)

variable (source checks file) in
/-- The header has the AuRa form exactly if the spec is before Paris at block 0, and the consensus
accepts its phase. -/
def PhaseAgrees : Prop :=
  (checks.isPreMerge (genesisHeader source file) = true ↔
    file.chainSpec.isParisActiveAtBlock 0 = false) ∧
  ∃ auraBlock, isAuraBlock checks file.chainSpec (genesisHeader source file) = .ok auraBlock

theorem phaseAgrees_iff (hlaws : GenesisLaws source) (hpre : PreMergeLaw checks.isPreMerge) :
    PhaseAgrees source checks file ↔ PhaseCondition file := by
  unfold PhaseAgrees PhaseCondition
  simp only [isAuraBlock_ok, isPreMerge_genesisHeader hlaws hpre, genesisHeader_number hlaws]
  cases httd : file.terminalTotalDifficulty with
  | none =>
    have hform : isParisActiveAtGenesis file = false := by
      rw [isParisActiveAtGenesis, httd]
    simp [isParisActive_none httd, hform]
  | some ttd =>
    have hform : isParisActiveAtGenesis file = decide (ttd ≤ file.difficulty) := by
      rw [isParisActiveAtGenesis, httd]
    simp only [isParisActive_some httd, hform, Option.some.injEq, forall_eq']
    refine and_congr ?_ ?_
    · simp only [Bool.not_eq_eq_eq_not, Bool.not_true, decide_eq_false_iff_not, not_le]
    · have hagree : ∀ b p : Bool, (∃ a : Bool, (!b) = a ∧ p = !a) ↔ b = p := by decide
      rw [hagree, decide_eq_decide, ← not_le, ← not_le, not_iff_not]

end Phase

section Reference

def referenceGenesis : GenesisSource where
  makeGenesisHeader := fun file _ =>
    { assembledHeader referenceBuilder (cancunAssembler 2000) (firstCancunInput 2000) with
      number := file.number.getD 0
      timestamp := file.timestamp
      difficulty := file.difficulty }
  intoGnosis := referenceBuilder.intoGnosis
  hashSlow := fun header =>
    BitVec.ofNat 256 (2 * header.timestamp + if header.auraSeal.isSome then 1 else 0)
  ethHashSlow := fun header => BitVec.ofNat 256 (2 * header.timestamp + 0)

theorem referenceGenesis_laws : GenesisLaws referenceGenesis where
  number _ _ := rfl
  keepsNumber _ := rfl
  keepsHash _ := rfl
  auraStep _ := rfl
  auraSeal _ := rfl

def mergeOnly (chainId : ℕ) (terminalTotalDifficulty difficulty : U256) : GenesisFile where
  chainId := chainId
  timestamp := 0
  homesteadBlock := none
  daoForkBlock := none
  eip150Block := none
  eip155Block := none
  byzantiumBlock := none
  constantinopleBlock := none
  petersburgBlock := none
  istanbulBlock := none
  berlinBlock := none
  londonBlock := none
  mergeNetsplitBlock := none
  terminalTotalDifficulty := some terminalTotalDifficulty
  shanghaiTime := none
  cancunTime := none
  pragueTime := none
  osakaTime := none
  depositContractAddress := none
  extraFields := ⟨∅⟩
  balancerHardforkConfig := none
  auraConfig := none
  difficulty := difficulty
  number := none

/-- Below the terminal difficulty on a chain without a known merge block the header has the AuRa
form under Paris; above it on Gnosis it is post-merge before Paris. Both are rejected. -/
theorem mergeOnly_rejected :
    (referenceChecks.isPreMerge (genesisHeader referenceGenesis (mergeOnly 10209 100 1)) = true ∧
      (mergeOnly 10209 100 1).chainSpec.isParisActiveAtBlock 0 = true ∧
      ¬ PhaseAgrees referenceGenesis referenceChecks (mergeOnly 10209 100 1)) ∧
    referenceChecks.isPreMerge (genesisHeader referenceGenesis (mergeOnly 100 0 1)) = false ∧
      (mergeOnly 100 0 1).chainSpec.isParisActiveAtBlock 0 = false ∧
      ¬ PhaseAgrees referenceGenesis referenceChecks (mergeOnly 100 0 1) := by
  have hunknown : (mergeOnly 10209 100 1).chainSpec.isParisActiveAtBlock 0 = true := by
    decide +kernel
  have haura : referenceChecks.isPreMerge (genesisHeader referenceGenesis (mergeOnly 10209 100 1)) =
      true := by decide +kernel
  have hgnosis : (mergeOnly 100 0 1).chainSpec.isParisActiveAtBlock 0 = false := by decide +kernel
  have hmerged : referenceChecks.isPreMerge (genesisHeader referenceGenesis (mergeOnly 100 0 1)) =
      false := by decide +kernel
  refine ⟨⟨haura, hunknown, fun h => ?_⟩, hmerged, hgnosis, fun h => ?_⟩
  · exact Bool.false_ne_true ((h.1.mp haura).symm.trans hunknown)
  · exact Bool.false_ne_true (hmerged.symm.trans (h.1.mpr hgnosis))

theorem phaseAgrees_iff_mergeOnly :
    PhaseAgrees referenceGenesis referenceChecks (mergeOnly 10209 0 1) ↔
      PhaseCondition (mergeOnly 10209 0 1) :=
  phaseAgrees_iff referenceGenesis_laws referenceChecks_preMerge

end Reference

end RethGnosis
