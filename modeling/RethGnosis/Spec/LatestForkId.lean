import RethGnosis.Library.Crc32
import RethGnosis.Library.Rlp
import RethGnosis.Spec.GenesisHeader

set_option autoImplicit false

/-!
# The latest fork id

`latest_fork_id` asks the inner spec, which starts from the hash of the Ethereum header,
`fork_id` starts from the hash of the Gnosis header. Past every fork both fold the same
activations.
-/
namespace RethGnosis

/-- `ChainSpec::latest_fork_id` of the genesis hash, the genesis timestamp and the forks. -/
abbrev InnerLatest (H : Type) := B256 → ℕ → List (Hardfork × ForkCondition) → ForkId H

section Fold
variable (genesisTimestamp : ℕ) (hardforks : List (Hardfork × ForkCondition)) (head : Head)

def allForks : List ForkFilterKey :=
  (Activations.dropRepeats 0 (blockActivations hardforks)).map .block ++
    (Activations.dropRepeats ((blockActivations hardforks).getLastD 0)
      (timeActivations genesisTimestamp hardforks)).map .time

structure PastEveryFork : Prop where
  blocks : ∀ block ∈ blockActivations hardforks, block ≤ head.number
  times : ∀ time ∈ timeActivations genesisTimestamp hardforks, time ≤ head.timestamp

variable {genesisTimestamp hardforks head}

theorem PastEveryFork.takeWhile_blocks (h : PastEveryFork genesisTimestamp hardforks head) :
    (blockActivations hardforks).takeWhile (blockPassed head) = blockActivations hardforks := by
  rw [List.takeWhile_eq_self_iff]
  intro block hblock
  exact decide_eq_true (h.blocks block hblock)

theorem PastEveryFork.takeWhile_times (h : PastEveryFork genesisTimestamp hardforks head) :
    (timeActivations genesisTimestamp hardforks).takeWhile (timePassed head) =
      timeActivations genesisTimestamp hardforks := by
  rw [List.takeWhile_eq_self_iff]
  intro time htime
  exact decide_eq_true (h.times time htime)

theorem PastEveryFork.blockStop_eq (h : PastEveryFork genesisTimestamp hardforks head) :
    blockStop hardforks head = none := by
  rw [blockStop, List.head?_eq_none_iff, List.dropWhile_eq_nil_iff]
  intro block hblock
  exact decide_eq_true (h.blocks block hblock)

theorem PastEveryFork.timeStop_eq (h : PastEveryFork genesisTimestamp hardforks head) :
    timeStop genesisTimestamp hardforks head = none := by
  rw [timeStop, List.head?_eq_none_iff, List.dropWhile_eq_nil_iff]
  intro time htime
  exact decide_eq_true (h.times time htime)

theorem PastEveryFork.walkForks_eq {H : Type} (h : PastEveryFork genesisTimestamp hardforks head)
    (add : H → ForkFilterKey → H) (start : H) :
    walkForks add start genesisTimestamp hardforks head =
      ⟨(allForks genesisTimestamp hardforks).foldl add start, 0⟩ := by
  rw [RethGnosis.walkForks_eq, walkedKeys, walkedNext, walkedBlocks, walkedTimes, h.blockStop_eq,
    h.timeStop_eq, h.takeWhile_blocks, h.takeWhile_times]
  rfl

end Fold

section Latest
variable {H : Type} (source : GenesisSource) (forkHash : ForkHash H) (latest : InnerLatest H)
  (file : GenesisFile) (head : Head)

def FoldsAllForks : Prop :=
  ∀ genesisHash genesisTimestamp hardforks, latest genesisHash genesisTimestamp hardforks =
    ForkId.checksum forkHash genesisHash ⟨allForks genesisTimestamp hardforks, 0⟩

def ForkHash.Cancels : Prop := ∀ n, Function.Injective (fun hash => forkHash.addAssign hash n)

/-- `self.inner.latest_fork_id()` -/
def latestForkId : ForkId H :=
  latest (innerGenesisHash source file) file.timestamp file.chainSpec.hardforks

def forkId : ForkId H :=
  file.chainSpec.forkId forkHash (genesisHash source file) file.timestamp head

variable {source forkHash latest file head}

theorem forkId_past (h : PastEveryFork file.timestamp file.chainSpec.hardforks head) :
    forkId source forkHash file head =
      ForkId.checksum forkHash (genesisHash source file)
        ⟨allForks file.timestamp file.chainSpec.hardforks, 0⟩ := by
  rw [forkId, GnosisChainSpec.forkId, h.walkForks_eq, ForkId.checksum, List.foldl_map]

theorem ForkHash.Cancels.foldl_inj (h : forkHash.Cancels) (activations : List ℕ) {a b : H} :
    activations.foldl forkHash.addAssign a = activations.foldl forkHash.addAssign b ↔ a = b := by
  induction activations generalizing a b with
  | nil => rfl
  | cons n rest ih =>
    rw [List.foldl_cons, List.foldl_cons, ih]
    exact (h n).eq_iff

theorem genesisHash_postMerge (hlaws : GenesisLaws source)
    (h : isParisActiveAtGenesis file = true) :
    genesisHash source file = innerGenesisHash source file := by
  unfold genesisHash innerGenesisHash genesisHeader
  rw [h, if_neg (by decide), hlaws.keepsHash]
  rfl

/-- Past every fork the two ids are equal exactly if the genesis header is in the post-merge form,
or the two genesis hashes have the same checksum. -/
theorem latestForkId_eq_iff (hlaws : GenesisLaws source) (hlatest : FoldsAllForks forkHash latest)
    (hcancels : forkHash.Cancels)
    (hpast : PastEveryFork file.timestamp file.chainSpec.hardforks head) :
    latestForkId source latest file = forkId source forkHash file head ↔
      (∃ ttd, file.terminalTotalDifficulty = some ttd ∧ ttd ≤ file.difficulty) ∨
        forkHash.ofGenesisHash (innerGenesisHash source file) =
          forkHash.ofGenesisHash (genesisHash source file) := by
  have hsame : latestForkId source latest file = forkId source forkHash file head ↔
      forkHash.ofGenesisHash (innerGenesisHash source file) =
        forkHash.ofGenesisHash (genesisHash source file) := by
    rw [latestForkId, hlatest, forkId_past hpast, ForkId.checksum, ForkId.checksum,
      ForkId.mk.injEq, hcancels.foldl_inj]
    exact and_iff_left rfl
  rw [hsame, iff_or_self]
  rintro ⟨ttd, httd, hle⟩
  have hform : isParisActiveAtGenesis file = true := by
    rw [isParisActiveAtGenesis, httd]
    exact decide_eq_true hle
  rw [genesisHash_postMerge hlaws hform]

end Latest

section Crc

/-- The checksum of EIP-2124: CRC-32 of the genesis hash and the applied activations. -/
def crcForkHash : ForkHash (BitVec 32) where
  ofGenesisHash := fun genesisHash => Crc32.checksum (Rlp.fixedBytes 32 genesisHash.toNat)
  addAssign := fun hash n => Crc32.update hash (Rlp.fixedBytes 8 n)

theorem crcForkHash_cancels : crcForkHash.Cancels :=
  fun n => Crc32.update_injective (Rlp.fixedBytes 8 n)

def referenceLatest : InnerLatest (BitVec 32) := fun genesisHash genesisTimestamp hardforks =>
  ForkId.checksum crcForkHash genesisHash ⟨allForks genesisTimestamp hardforks, 0⟩

theorem referenceLatest_folds : FoldsAllForks crcForkHash referenceLatest := fun _ _ _ => rfl

/-- Gnosis itself: its genesis difficulty is below the terminal one, so the header is in the AuRa
form and the two ids differ. -/
theorem latestForkId_gnosis :
    latestForkId referenceGenesis referenceLatest
        (mergeOnly 100 8626000000000000000000058750000000000000000000 0x20000) ≠
      forkId referenceGenesis crcForkHash
        (mergeOnly 100 8626000000000000000000058750000000000000000000 0x20000)
        ⟨10000000, 0⟩ := by
  decide +kernel

theorem latestForkId_eq_iff_gnosis :
    latestForkId referenceGenesis referenceLatest (mergeOnly 100 0 1) =
        forkId referenceGenesis crcForkHash (mergeOnly 100 0 1) ⟨10000000, 0⟩ ↔
      (∃ ttd, (mergeOnly 100 0 1).terminalTotalDifficulty = some ttd ∧
          ttd ≤ (mergeOnly 100 0 1).difficulty) ∨
        crcForkHash.ofGenesisHash (innerGenesisHash referenceGenesis (mergeOnly 100 0 1)) =
          crcForkHash.ofGenesisHash (genesisHash referenceGenesis (mergeOnly 100 0 1)) :=
  latestForkId_eq_iff referenceGenesis_laws referenceLatest_folds crcForkHash_cancels
    ⟨by decide +kernel, by decide +kernel⟩

end Crc

end RethGnosis
