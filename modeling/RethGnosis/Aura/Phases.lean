import Mathlib.Data.List.TakeWhile
import RethGnosis.Aura.ChainWeight

set_option autoImplicit false

/-!
# The two phases of an accepted chain

Consensus reads the phase of each header off its number and rejects a header shaped
for the other phase, so a chain it accepts is AuRa up to the block of the merge and
never AuRa again. The blocks after the merge carry no weight: between chains that
passed it, the last AuRa step decides.
-/
namespace RethGnosis

structure BeaconLaw (checks : HeaderChecks) : Prop where
  difficulty : ∀ (chainSpec : GnosisChainSpec) (header : SealedHeader),
    chainSpec.isParisActiveAtBlock header.header.number = true →
      checks.innerValidateHeader chainSpec header = .ok () → header.header.difficulty = 0
  hashNumber : ∀ (chainSpec : GnosisChainSpec) (header parent : SealedHeader),
    checks.innerValidateHeaderAgainstParent chainSpec header parent = .ok () →
      header.header.number = parent.header.number + 1 ∧ header.header.parentHash = parent.hash

section Phase
variable (checks : HeaderChecks) (crypto : SealCrypto) (chainSpec : GnosisChainSpec)

structure Accepted (parent header : SealedHeader) : Prop where
  validHeader : validateHeader checks chainSpec header = .ok ()
  validChild : validateHeaderAgainstParent checks crypto chainSpec header parent = .ok ()

def auraPhase (headers : List SealedHeader) : List SealedHeader :=
  headers.takeWhile (fun h => checks.isPreMerge h.header)

def beaconPhase (headers : List SealedHeader) : List SealedHeader :=
  headers.dropWhile (fun h => checks.isPreMerge h.header)

end Phase

theorem GnosisChainSpec.isParisActiveAtBlock_mono {chainSpec : GnosisChainSpec} {m n : ℕ}
    (hle : m ≤ n) (hactive : chainSpec.isParisActiveAtBlock m = true) :
    chainSpec.isParisActiveAtBlock n = true := by
  unfold isParisActiveAtBlock at hactive ⊢
  cases hfork : chainSpec.fork (.ethereum .Paris) with
  | block number =>
    rw [hfork] at hactive
    exact decide_eq_true ((of_decide_eq_true hactive).trans hle)
  | ttd activationBlockNumber totalDifficulty forkBlock =>
    rw [hfork] at hactive
    exact decide_eq_true ((of_decide_eq_true hactive).trans hle)
  | timestamp time =>
    rw [hfork] at hactive
    cases hactive
  | never =>
    rw [hfork] at hactive
    cases hactive

section Step
variable {checks : HeaderChecks} {crypto : SealCrypto} {chainSpec : GnosisChainSpec}
  {parent header : SealedHeader}

theorem Accepted.phase (h : Accepted checks crypto chainSpec parent header) :
    chainSpec.isParisActiveAtBlock header.header.number = !checks.isPreMerge header.header := by
  obtain ⟨auraBlock, haura, -⟩ := except_bind_ok.mp h.validHeader
  obtain ⟨hphase, hparis⟩ := isAuraBlock_ok.mp haura
  rw [hphase, hparis]

theorem Accepted.aura (h : Accepted checks crypto chainSpec parent header)
    (hpre : checks.isPreMerge header.header = true) :
    ∃ c, chainSpec.auraConfig = some c ∧ Accepts checks crypto chainSpec c parent header := by
  have haccepted : AcceptedAura checks crypto chainSpec header parent :=
    ⟨h.validHeader, h.validChild, hpre⟩
  obtain ⟨-, -, -, c, hconfig, hchild⟩ := acceptedAura_iff.mp haccepted
  exact ⟨c, hconfig, validateAuraHeaderAgainstParent_ok.mpr hchild⟩

theorem Accepted.beacon (h : Accepted checks crypto chainSpec parent header)
    (hpost : checks.isPreMerge header.header = false) :
    checks.innerValidateHeader chainSpec header = .ok () ∧
      checks.innerValidateHeaderAgainstParent chainSpec header parent = .ok () := by
  have haura : isAuraBlock checks chainSpec header.header = .ok false := by
    refine isAuraBlock_ok.mpr ⟨hpost, ?_⟩
    rw [h.phase, hpost]
  have hheader := h.validHeader
  have hchild := h.validChild
  unfold validateHeader at hheader
  unfold validateHeaderAgainstParent at hchild
  rw [haura] at hheader hchild
  exact ⟨hheader, hchild⟩

theorem Accepted.number (hlaw : HashNumberLaw checks) (hbeacon : BeaconLaw checks)
    (h : Accepted checks crypto chainSpec parent header) :
    header.header.number = parent.header.number + 1 := by
  cases hpre : checks.isPreMerge header.header with
  | true =>
    obtain ⟨c, -, haccepts⟩ := h.aura hpre
    obtain ⟨_, _, _, hchild⟩ := validateAuraHeaderAgainstParent_ok.mp haccepts
    exact (hlaw _ _ _ hchild.hashNumber).1
  | false => exact (hbeacon.hashNumber _ _ _ (h.beacon hpre).2).1

theorem Accepted.weight_beacon (hbeacon : BeaconLaw checks)
    (h : Accepted checks crypto chainSpec parent header)
    (hpost : checks.isPreMerge header.header = false) : header.weight = 0 := by
  refine hbeacon.difficulty chainSpec header ?_ (h.beacon hpost).1
  rw [h.phase, hpost]
  rfl

end Step

section Chain
variable {checks : HeaderChecks} {crypto : SealCrypto} {chainSpec : GnosisChainSpec}
  {h₀ : SealedHeader} {hs ks : List SealedHeader}

theorem accepted_numbers (hlaw : HashNumberLaw checks) (hbeacon : BeaconLaw checks)
    (h : (h₀ :: hs).IsChain (Accepted checks crypto chainSpec)) :
    hs.map (fun a => a.header.number) = List.range' (h₀.header.number + 1) hs.length := by
  induction hs generalizing h₀ with
  | nil => rfl
  | cons next rest ih =>
    rw [List.isChain_cons_cons] at h
    have hnumber := h.1.number hlaw hbeacon
    rw [List.map_cons, List.length_cons, List.range'_succ, ih h.2, hnumber]

theorem accepted_beacon (hlaw : HashNumberLaw checks) (hbeacon : BeaconLaw checks)
    (h : (h₀ :: hs).IsChain (Accepted checks crypto chainSpec))
    (hactive : chainSpec.isParisActiveAtBlock (h₀.header.number + 1) = true) :
    ∀ header ∈ hs, checks.isPreMerge header.header = false := by
  induction hs generalizing h₀ with
  | nil => exact List.forall_mem_nil _
  | cons next rest ih =>
    rw [List.isChain_cons_cons] at h
    have hnumber := h.1.number hlaw hbeacon
    have hphase := h.1.phase
    rw [hnumber, hactive] at hphase
    refine List.forall_mem_cons.mpr ⟨by simpa using hphase, ih h.2 ?_⟩
    rw [hnumber]
    exact GnosisChainSpec.isParisActiveAtBlock_mono (Nat.le_succ _) hactive

theorem auraPhase_cons_of_pre {next : SealedHeader} {rest : List SealedHeader}
    (hpre : checks.isPreMerge next.header = true) :
    auraPhase checks (next :: rest) = next :: auraPhase checks rest :=
  List.takeWhile_cons_of_pos hpre

theorem auraPhase_cons_of_post {next : SealedHeader} {rest : List SealedHeader}
    (hpost : checks.isPreMerge next.header = false) : auraPhase checks (next :: rest) = [] :=
  List.takeWhile_cons_of_neg (by rw [hpost]; exact Bool.false_ne_true)

theorem beaconPhase_cons_of_pre {next : SealedHeader} {rest : List SealedHeader}
    (hpre : checks.isPreMerge next.header = true) :
    beaconPhase checks (next :: rest) = beaconPhase checks rest :=
  List.dropWhile_cons_of_pos hpre

theorem beaconPhase_cons_of_post {next : SealedHeader} {rest : List SealedHeader}
    (hpost : checks.isPreMerge next.header = false) :
    beaconPhase checks (next :: rest) = next :: rest :=
  List.dropWhile_cons_of_neg (by rw [hpost]; exact Bool.false_ne_true)

theorem auraPhase_append_beaconPhase (headers : List SealedHeader) :
    auraPhase checks headers ++ beaconPhase checks headers = headers :=
  List.takeWhile_append_dropWhile

theorem beaconPhase_post (hlaw : HashNumberLaw checks) (hbeacon : BeaconLaw checks)
    (h : (h₀ :: hs).IsChain (Accepted checks crypto chainSpec)) :
    ∀ header ∈ beaconPhase checks hs, checks.isPreMerge header.header = false := by
  induction hs generalizing h₀ with
  | nil => exact List.forall_mem_nil _
  | cons next rest ih =>
    rw [List.isChain_cons_cons] at h
    cases hpre : checks.isPreMerge next.header with
    | true =>
      rw [beaconPhase_cons_of_pre hpre]
      exact ih h.2
    | false =>
      rw [beaconPhase_cons_of_post hpre]
      refine List.forall_mem_cons.mpr ⟨hpre, accepted_beacon hlaw hbeacon h.2 ?_⟩
      refine GnosisChainSpec.isParisActiveAtBlock_mono (Nat.le_succ _) ?_
      rw [h.1.phase, hpre]
      rfl

theorem auraPhase_accepts {c : AuraConfig} (hconfig : chainSpec.auraConfig = some c)
    (h : (h₀ :: hs).IsChain (Accepted checks crypto chainSpec)) :
    (h₀ :: auraPhase checks hs).IsChain (Accepts checks crypto chainSpec c) := by
  induction hs generalizing h₀ with
  | nil => exact List.isChain_singleton _
  | cons next rest ih =>
    rw [List.isChain_cons_cons] at h
    cases hpre : checks.isPreMerge next.header with
    | true =>
      obtain ⟨c', hconfig', haccepts⟩ := h.1.aura hpre
      obtain rfl : c' = c := Option.some.inj (hconfig'.symm.trans hconfig)
      rw [auraPhase_cons_of_pre hpre]
      exact List.isChain_cons_cons.mpr ⟨haccepts, ih h.2⟩
    | false =>
      rw [auraPhase_cons_of_post hpre]
      exact List.isChain_singleton _

theorem auraPhase_of_no_config (hconfig : chainSpec.auraConfig = none)
    (h : (h₀ :: hs).IsChain (Accepted checks crypto chainSpec)) : auraPhase checks hs = [] := by
  cases hs with
  | nil => rfl
  | cons next rest =>
    rw [List.isChain_cons_cons] at h
    cases hpre : checks.isPreMerge next.header with
    | true =>
      obtain ⟨c, hsome, -⟩ := h.1.aura hpre
      rw [hconfig] at hsome
      cases hsome
    | false => exact auraPhase_cons_of_post hpre

theorem auraPhase_nextStep (h : (h₀ :: hs).IsChain (Accepted checks crypto chainSpec)) :
    (h₀ :: auraPhase checks hs).IsChain NextStep := by
  cases hconfig : chainSpec.auraConfig with
  | none =>
    rw [auraPhase_of_no_config hconfig h]
    exact List.isChain_singleton _
  | some c => exact (auraPhase_accepts hconfig h).imp (fun _ _ haccepts => haccepts.nextStep)

theorem totalDifficulty_auraPhase (hlaw : HashNumberLaw checks) (hbeacon : BeaconLaw checks)
    (h : (h₀ :: hs).IsChain (Accepted checks crypto chainSpec)) :
    totalDifficulty hs = totalDifficulty (auraPhase checks hs) := by
  induction hs generalizing h₀ with
  | nil => rfl
  | cons next rest ih =>
    rw [List.isChain_cons_cons] at h
    cases hpre : checks.isPreMerge next.header with
    | true => rw [auraPhase_cons_of_pre hpre, totalDifficulty_cons, totalDifficulty_cons, ih h.2]
    | false =>
      have hrest : auraPhase checks rest = [] := by
        have hpost := accepted_beacon hlaw hbeacon h.2
          (GnosisChainSpec.isParisActiveAtBlock_mono (Nat.le_succ _) (by rw [h.1.phase, hpre]; rfl))
        cases rest with
        | nil => rfl
        | cons second others => exact auraPhase_cons_of_post (hpost second (List.mem_cons_self ..))
      rw [auraPhase_cons_of_post hpre, totalDifficulty_cons, ih h.2, hrest,
        h.1.weight_beacon hbeacon hpre]
      rfl

theorem auraPhase_length (hlaw : HashNumberLaw checks) (hbeacon : BeaconLaw checks)
    (h : (h₀ :: hs).IsChain (Accepted checks crypto chainSpec)) :
    (auraPhase checks hs).length =
      ((List.range' (h₀.header.number + 1) hs.length).takeWhile
        (fun n => !chainSpec.isParisActiveAtBlock n)).length := by
  induction hs generalizing h₀ with
  | nil => rfl
  | cons next rest ih =>
    rw [List.isChain_cons_cons] at h
    have hnumber := h.1.number hlaw hbeacon
    have hphase := h.1.phase
    rw [hnumber] at hphase
    rw [List.length_cons, List.range'_succ]
    cases hpre : checks.isPreMerge next.header with
    | true =>
      rw [hpre] at hphase
      rw [auraPhase_cons_of_pre hpre, List.takeWhile_cons_of_pos (by rw [hphase]; rfl),
        List.length_cons, List.length_cons, ih h.2, hnumber]
    | false =>
      rw [hpre] at hphase
      rw [auraPhase_cons_of_post hpre, List.takeWhile_cons_of_neg (by rw [hphase]; decide)]
      rfl

theorem auraPhase_length_lt (hne : beaconPhase checks hs ≠ []) :
    (auraPhase checks hs).length < hs.length := by
  have happend : (auraPhase checks hs ++ beaconPhase checks hs).length = hs.length :=
    congrArg List.length (auraPhase_append_beaconPhase hs)
  have hpos := List.length_pos_iff.mpr hne
  rw [List.length_append] at happend
  omega

theorem auraPhase_length_eq (hlaw : HashNumberLaw checks) (hbeacon : BeaconLaw checks)
    (hhs : (h₀ :: hs).IsChain (Accepted checks crypto chainSpec))
    (hks : (h₀ :: ks).IsChain (Accepted checks crypto chainSpec))
    (hle : hs.length ≤ ks.length) (hne : beaconPhase checks hs ≠ []) :
    (auraPhase checks hs).length = (auraPhase checks ks).length := by
  have hproper := auraPhase_length_lt hne
  rw [auraPhase_length hlaw hbeacon hhs] at hproper ⊢
  rw [auraPhase_length hlaw hbeacon hks]
  have hsplit : List.range' (h₀.header.number + 1) ks.length =
      List.range' (h₀.header.number + 1) hs.length ++
        List.range' (h₀.header.number + 1 + hs.length) (ks.length - hs.length) := by
    rw [List.range'_append_1, Nat.add_sub_cancel' hle]
  rw [hsplit, List.takeWhile_append, if_neg]
  rw [List.length_range']
  omega

theorem auraPhase_phase (h : (h₀ :: hs).IsChain (Accepted checks crypto chainSpec))
    {header : SealedHeader} (hmem : header ∈ auraPhase checks hs) :
    checks.isPreMerge header.header = true ∧
      chainSpec.isParisActiveAtBlock header.header.number = false := by
  have hpre : checks.isPreMerge header.header = true :=
    List.mem_takeWhile_imp (p := fun a : SealedHeader => checks.isPreMerge a.header) hmem
  have hsplit : auraPhase checks hs ++ beaconPhase checks hs = hs := auraPhase_append_beaconPhase hs
  have hin : header ∈ hs := by
    rw [← hsplit]
    exact List.mem_append_left _ hmem
  obtain ⟨parent, haccepted⟩ := exists_previous h hin
  refine ⟨hpre, ?_⟩
  rw [haccepted.phase]
  simpa using hpre

theorem beaconPhase_phase (hlaw : HashNumberLaw checks) (hbeacon : BeaconLaw checks)
    (h : (h₀ :: hs).IsChain (Accepted checks crypto chainSpec)) {header : SealedHeader}
    (hmem : header ∈ beaconPhase checks hs) :
    checks.isPreMerge header.header = false ∧
      chainSpec.isParisActiveAtBlock header.header.number = true := by
  have hpost := beaconPhase_post hlaw hbeacon h header hmem
  have hsplit : auraPhase checks hs ++ beaconPhase checks hs = hs := auraPhase_append_beaconPhase hs
  have hin : header ∈ hs := by
    rw [← hsplit]
    exact List.mem_append_right _ hmem
  obtain ⟨parent, haccepted⟩ := exists_previous h hin
  refine ⟨hpost, ?_⟩
  rw [haccepted.phase]
  simpa using hpost

theorem accepted_phases (hlaw : HashNumberLaw checks) (hbeacon : BeaconLaw checks)
    (h : (h₀ :: hs).IsChain (Accepted checks crypto chainSpec)) :
    hs.map (fun a => a.header.number) = List.range' (h₀.header.number + 1) hs.length ∧
      auraPhase checks hs ++ beaconPhase checks hs = hs ∧
      (∀ header ∈ auraPhase checks hs, checks.isPreMerge header.header = true ∧
        chainSpec.isParisActiveAtBlock header.header.number = false) ∧
      (∀ header ∈ beaconPhase checks hs, checks.isPreMerge header.header = false ∧
        chainSpec.isParisActiveAtBlock header.header.number = true) ∧
      (auraPhase checks hs ≠ [] → ∃ c, chainSpec.auraConfig = some c ∧
        (h₀ :: auraPhase checks hs).IsChain (Accepts checks crypto chainSpec c)) ∧
      totalDifficulty hs + (chainTip h₀ (auraPhase checks hs)).header.step =
        (auraPhase checks hs).length * unitWeight + h₀.header.step ∧
      ∀ ks, (h₀ :: ks).IsChain (Accepted checks crypto chainSpec) →
        ((auraPhase checks hs).length < (auraPhase checks ks).length →
          totalDifficulty hs < totalDifficulty ks) ∧
        (beaconPhase checks hs ≠ [] → beaconPhase checks ks ≠ [] →
          (totalDifficulty hs < totalDifficulty ks ↔
            (chainTip h₀ (auraPhase checks ks)).header.step <
              (chainTip h₀ (auraPhase checks hs)).header.step)) := by
  have hsteps := auraPhase_nextStep h
  have hweight := totalDifficulty_auraPhase hlaw hbeacon h
  refine ⟨accepted_numbers hlaw hbeacon h, auraPhase_append_beaconPhase hs,
    fun _ => auraPhase_phase h, fun _ => beaconPhase_phase hlaw hbeacon h, ?_, ?_, ?_⟩
  · intro hne
    cases hconfig : chainSpec.auraConfig with
    | none => exact absurd (auraPhase_of_no_config hconfig h) hne
    | some c => exact ⟨c, rfl, auraPhase_accepts hconfig h⟩
  · rw [hweight]
    exact totalDifficulty_add_step hsteps
  · intro ks hks
    have hksSteps := auraPhase_nextStep hks
    rw [hweight, totalDifficulty_auraPhase hlaw hbeacon hks]
    refine ⟨longer_outweighs hsteps hksSteps, ?_⟩
    intro hhsNe hksNe
    refine sameLength_outweighs hsteps hksSteps ?_
    rcases Nat.le_total hs.length ks.length with hle | hle
    · exact auraPhase_length_eq hlaw hbeacon h hks hle hhsNe
    · exact (auraPhase_length_eq hlaw hbeacon hks h hle hksNe).symm

end Chain

section Reference

def mergeChecks : HeaderChecks :=
  { referenceChecks with
    innerValidateHeader := fun chainSpec header =>
      rejectIf (chainSpec.isParisActiveAtBlock header.header.number &&
        header.header.difficulty != 0) (.upstream "TheMergeDifficultyIsNotZero")
    innerValidateHeaderAgainstParent := fun _ header parent => do
      rejectIf (header.header.number != parent.header.number + 1)
        (.upstream "ParentBlockNumberMismatch")
      rejectIf (header.header.parentHash != parent.hash) (.upstream "ParentHashMismatch") }

theorem mergeChecks_hashNumber : HashNumberLaw mergeChecks := referenceChecks_hashNumber

theorem mergeChecks_beacon : BeaconLaw mergeChecks where
  difficulty := by
    intro chainSpec header hactive h
    have hzero := rejectIf_ok.mp h
    rw [hactive] at hzero
    simpa using hzero
  hashNumber := by
    intro chainSpec header parent h
    obtain ⟨⟨⟩, hnumber, hhash⟩ := except_bind_ok.mp h
    exact ⟨by simpa using rejectIf_ok.mp hnumber, by simpa using rejectIf_ok.mp hhash⟩

def mergeSpec : GnosisChainSpec :=
  { referenceSpec [(.ethereum .Paris, .block 13)] (listFrom [1#160, 2#160]) with
    depositContract := some 11#160 }

def beaconHeader (number : ℕ) : SealedHeader where
  header := { (default : GnosisHeader) with
    number := number
    parentHash := BitVec.ofNat 256 (number - 1)
    difficulty := 0 }
  hash := BitVec.ofNat 256 number

def mergedChain : List SealedHeader :=
  [ referenceSealed referenceKeccak 2#160 11 10 11,
    referenceSealed referenceKeccak 1#160 12 11 12, beaconHeader 13, beaconHeader 14 ]

theorem mergeSpec_aura {signer parentSigner : Address}
    {number grandparentStep parentStep step : ℕ}
    (hparis : mergeSpec.isParisActiveAtBlock (number + 1) = false) (hsteps : parentStep < step)
    (hfits : step < 2 ^ 64)
    (hproposer : ValidatorSet.expectedProposer step [1#160, 2#160] = some signer) :
    Accepted mergeChecks (openCrypto referenceKeccak) mergeSpec
      (referenceSealed referenceKeccak parentSigner number grandparentStep parentStep)
      (referenceSealed referenceKeccak signer (number + 1) parentStep step) := by
  have hreference := @referenceSealed_acceptedAura mergeSpec _ referenceKeccak signer parentSigner
    number grandparentStep parentStep step rfl hparis hsteps hfits
    (listFrom_proposer (n := number) hproposer)
  obtain ⟨hpre, -, hheader, c, hconfig, _, _, _, hchild⟩ := acceptedAura_iff.mp hreference
  have haccepted : AcceptedAura mergeChecks (openCrypto referenceKeccak) mergeSpec
      (referenceSealed referenceKeccak signer (number + 1) parentStep step)
      (referenceSealed referenceKeccak parentSigner number grandparentStep parentStep) :=
    acceptedAura_iff.mpr ⟨hpre, hparis, ⟨hheader.ommersHash, hheader.extraData, hheader.gas,
        hheader.withdrawalsRoot, hheader.blobFields⟩, c, hconfig, _, _, _,
      ⟨hchild.hashNumber, hchild.timestamp, hchild.baseFee, hchild.steps, hchild.signed,
        hchild.proposer⟩⟩
  exact ⟨haccepted.validHeader, haccepted.validChild⟩

theorem mergeSpec_beacon {parent : SealedHeader} {number : ℕ}
    (hparis : mergeSpec.isParisActiveAtBlock number = true)
    (hnumber : number = parent.header.number + 1)
    (hhash : parent.hash = BitVec.ofNat 256 (number - 1)) :
    Accepted mergeChecks (openCrypto referenceKeccak) mergeSpec parent (beaconHeader number) := by
  have haura : isAuraBlock mergeChecks mergeSpec (beaconHeader number).header = .ok false :=
    isAuraBlock_ok.mpr ⟨rfl, hparis⟩
  refine ⟨except_bind_ok.mpr ⟨false, haura, rejectIf_ok.mpr ?_⟩,
    except_bind_ok.mpr ⟨false, haura, except_bind_ok.mpr ⟨(), rejectIf_ok.mpr ?_,
      rejectIf_ok.mpr ?_⟩⟩⟩
  · exact Bool.and_false _
  · rw [hnumber]
    exact bne_self_eq_false _
  · rw [hhash]
    exact bne_self_eq_false _

theorem mergedChain_accepted :
    (turnsRoot :: mergedChain).IsChain
      (Accepted mergeChecks (openCrypto referenceKeccak) mergeSpec) := by
  refine List.isChain_cons_cons.mpr ⟨?_, List.isChain_cons_cons.mpr ⟨?_,
    List.isChain_cons_cons.mpr ⟨?_, List.isChain_cons_cons.mpr ⟨?_, List.isChain_singleton _⟩⟩⟩⟩
  · exact mergeSpec_aura (by decide) (by decide) (by decide) rfl
  · exact mergeSpec_aura (by decide) (by decide) (by decide) rfl
  · exact mergeSpec_beacon (by decide) rfl rfl
  · exact mergeSpec_beacon (by decide) rfl rfl

/-- Four accepted blocks, of which the two AuRa ones weigh. -/
theorem accepted_phases_merged :
    HashNumberLaw mergeChecks ∧ BeaconLaw mergeChecks ∧
      (turnsRoot :: mergedChain).IsChain
        (Accepted mergeChecks (openCrypto referenceKeccak) mergeSpec) ∧
      auraPhase mergeChecks mergedChain ++ beaconPhase mergeChecks mergedChain = mergedChain ∧
      totalDifficulty mergedChain + 12 = 2 * unitWeight + 10 := by
  have hphases := accepted_phases mergeChecks_hashNumber mergeChecks_beacon mergedChain_accepted
  exact ⟨mergeChecks_hashNumber, mergeChecks_beacon, mergedChain_accepted, hphases.2.1,
    hphases.2.2.2.2.2.1⟩

end Reference

end RethGnosis
