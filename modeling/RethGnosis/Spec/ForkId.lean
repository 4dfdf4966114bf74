import Mathlib.Algebra.Order.Ring.Nat
import Mathlib.Data.List.TakeWhile
import RethGnosis.Library.Activations
import RethGnosis.Spec.ChainSpec

set_option autoImplicit false

/-!
# Fork ids

The hardfork list that `From<Genesis>` builds, and the two fork ids computed from it:
`fork_id` walks the list once, in its order, and `fork_filter` hands its keys to a
filter that sorts them. The walk finds the id of EIP-6122 exactly if the activations
stand in order as far as the head has come.
-/
namespace RethGnosis

/-- What `From<Genesis>` reads; the Balancer and `aura` sections as their parsers return them. -/
structure Genesis where
  chainId : ℕ
  timestamp : ℕ
  homesteadBlock : Option ℕ
  daoForkBlock : Option ℕ
  eip150Block : Option ℕ
  eip155Block : Option ℕ
  byzantiumBlock : Option ℕ
  constantinopleBlock : Option ℕ
  petersburgBlock : Option ℕ
  istanbulBlock : Option ℕ
  berlinBlock : Option ℕ
  londonBlock : Option ℕ
  mergeNetsplitBlock : Option ℕ
  terminalTotalDifficulty : Option U256
  shanghaiTime : Option ℕ
  cancunTime : Option ℕ
  pragueTime : Option ℕ
  osakaTime : Option ℕ
  depositContractAddress : Option Address
  extraFields : GenesisConfig
  balancerHardforkConfig : Option BalancerHardforkConfig
  auraConfig : Option AuraConfig

inductive Chain where
  | Gnosis | Chiado
deriving DecidableEq

def Chain.fromChainId (chainId : ℕ) : Option Chain :=
  if chainId = 100 then some .Gnosis else if chainId = 10200 then some .Chiado else none

section Hardforks
variable (genesis : Genesis)

def mainnetHardforkOpts : List (Hardfork × Option ℕ) :=
  [ (.ethereum .Homestead, genesis.homesteadBlock),
    (.ethereum .Dao, genesis.daoForkBlock),
    (.ethereum .Tangerine, genesis.eip150Block),
    (.ethereum .SpuriousDragon, genesis.eip155Block),
    (.ethereum .Byzantium, genesis.byzantiumBlock),
    (.ethereum .Constantinople, genesis.constantinopleBlock),
    (.ethereum .Petersburg, genesis.petersburgBlock),
    (.ethereum .Istanbul, genesis.istanbulBlock),
    (.gnosis .POSDAOActivation, some 9186425),
    (.ethereum .Berlin, genesis.berlinBlock),
    (.ethereum .London, genesis.londonBlock) ]

def chiadoHardforkOpts : List (Hardfork × Option ℕ) :=
  [ (.ethereum .Homestead, genesis.homesteadBlock),
    (.ethereum .Tangerine, genesis.eip150Block),
    (.ethereum .SpuriousDragon, genesis.eip155Block),
    (.ethereum .Byzantium, genesis.byzantiumBlock),
    (.ethereum .Constantinople, genesis.constantinopleBlock),
    (.ethereum .Petersburg, genesis.petersburgBlock),
    (.ethereum .Istanbul, genesis.istanbulBlock),
    (.ethereum .Berlin, genesis.berlinBlock),
    (.ethereum .London, genesis.londonBlock) ]

def timeHardforkOpts : List (Hardfork × Option ℕ) :=
  [ (.ethereum .Shanghai, genesis.shanghaiTime),
    (.ethereum .Cancun, genesis.cancunTime),
    (.ethereum .Prague, genesis.pragueTime),
    (.gnosis .BalancerFork,
      genesis.balancerHardforkConfig.map BalancerHardforkConfig.activationTime),
    (.ethereum .Osaka, genesis.osakaTime) ]

def configuredForks (condition : ℕ → ForkCondition) (opts : List (Hardfork × Option ℕ)) :
    List (Hardfork × ForkCondition) :=
  opts.filterMap (fun entry => entry.2.map (fun activation => (entry.1, condition activation)))

def blockHardforks : List (Hardfork × ForkCondition) :=
  match Chain.fromChainId genesis.chainId with
  | some .Gnosis => configuredForks .block (mainnetHardforkOpts genesis)
  | _ => configuredForks .block (chiadoHardforkOpts genesis)

def knownMergeBlock : Option ℕ :=
  match Chain.fromChainId genesis.chainId with
  | some .Gnosis => some 25349537
  | some .Chiado => some 680930
  | none => genesis.mergeNetsplitBlock

def parisHardfork : List (Hardfork × ForkCondition) :=
  match genesis.terminalTotalDifficulty with
  | some ttd => [(.ethereum .Paris, .ttd ((knownMergeBlock genesis).getD 0) ttd none)]
  | none => []

/-- `GnosisChainSpec::from(genesis)` -/
def GnosisChainSpec.ofGenesis : GnosisChainSpec where
  chainId := genesis.chainId
  genesis := genesis.extraFields
  hardforks := blockHardforks genesis ++ parisHardfork genesis ++
    configuredForks .timestamp (timeHardforkOpts genesis)
  depositContract := genesis.depositContractAddress
  balancerHardforkConfig := genesis.balancerHardforkConfig
  auraConfig := genesis.auraConfig

end Hardforks

structure Head where
  number : ℕ
  timestamp : ℕ

structure ForkId (H : Type) where
  hash : H
  next : ℕ
deriving DecidableEq

inductive ForkFilterKey where
  | block (number : ℕ)
  | time (timestamp : ℕ)
deriving DecidableEq

def ForkFilterKey.toU64 : ForkFilterKey → ℕ
  | block number => number
  | time timestamp => timestamp

structure ForkHash (H : Type) where
  ofGenesisHash : B256 → H
  addAssign : H → ℕ → H

def blockActivation : ForkCondition → Option ℕ
  | .block number => some number
  | .ttd _ _ (some number) => some number
  | _ => none

def timeActivation (genesisTimestamp : ℕ) : ForkCondition → Option ℕ
  | .timestamp time => if genesisTimestamp < time then some time else none
  | _ => none

section Walk
variable {H : Type} (add : H → ForkFilterKey → H) (key : ℕ → ForkFilterKey) (passed : ℕ → Bool)

/-- One loop of `fork_id`: the hash, the last activation applied, and the activation at which it
returns. -/
def applyForks : List ℕ → H → ℕ → H × ℕ × Option ℕ
  | [], hash, currentApplied => (hash, currentApplied, none)
  | activation :: rest, hash, currentApplied =>
    if passed activation then
      if activation ≠ currentApplied then applyForks rest (add hash (key activation)) activation
      else applyForks rest hash currentApplied
    else (hash, currentApplied, some activation)

end Walk

section ForkId
variable {H : Type} (add : H → ForkFilterKey → H) (start : H) (genesisTimestamp : ℕ)
  (hardforks : List (Hardfork × ForkCondition)) (head : Head)

def blockActivations : List ℕ := hardforks.filterMap (fun fork => blockActivation fork.2)

def timeActivations : List ℕ :=
  hardforks.filterMap (fun fork => timeActivation genesisTimestamp fork.2)

/-- The two loops; `add` is given which of the two an activation comes from. -/
def walkForks : ForkId H :=
  match applyForks add .block (fun block => block ≤ head.number) (blockActivations hardforks)
    start 0 with
  | (hash, _, some block) => ⟨hash, block⟩
  | (hash, currentApplied, none) =>
    match applyForks add .time (fun time => time ≤ head.timestamp)
      (timeActivations genesisTimestamp hardforks) hash currentApplied with
    | (hash, _, some timestamp) => ⟨hash, timestamp⟩
    | (hash, _, none) => ⟨hash, 0⟩

end ForkId

section ChainSpec
variable {H : Type} (forkHash : ForkHash H) (genesisHash : B256) (genesisTimestamp : ℕ)
  (chainSpec : GnosisChainSpec) (head : Head)

def GnosisChainSpec.forkId : ForkId H :=
  walkForks (fun hash key => forkHash.addAssign hash key.toU64) (forkHash.ofGenesisHash genesisHash)
    genesisTimestamp chainSpec.hardforks head

/-- The activations that `fork_id` adds to the hash, in order, and the one it announces. -/
def GnosisChainSpec.foldedForks : ForkId (List ForkFilterKey) :=
  walkForks (fun keys key => keys ++ [key]) [] genesisTimestamp chainSpec.hardforks head

def forkFilterKey : ForkCondition → Option ForkFilterKey
  | .block number => some (.block number)
  | .ttd _ _ (some number) => some (.block number)
  | .timestamp time => some (.time time)
  | _ => none

/-- `ForkFilter::new(head, genesis_hash, genesis_timestamp, forks)`, then `current()`. -/
abbrev CurrentOfFilter (H : Type) := Head → B256 → ℕ → List ForkFilterKey → ForkId H

def GnosisChainSpec.forkFilterCurrent (filter : CurrentOfFilter H) : ForkId H :=
  filter head genesisHash genesisTimestamp
    (chainSpec.hardforks.filterMap (fun fork => forkFilterKey fork.2))

end ChainSpec

section Eip6122
variable (passed : ℕ → Bool) (activations : List ℕ)

def passedActivations : List ℕ :=
  activations.filter (fun activation => activation ≠ 0 && passed activation)

def pendingActivations : List ℕ := activations.filter (fun activation => !passed activation)

end Eip6122

def blockKey : ForkFilterKey → Option ℕ
  | .block number => some number
  | .time _ => none

def timeKey (genesisTimestamp : ℕ) : ForkFilterKey → Option ℕ
  | .block _ => none
  | .time timestamp => if genesisTimestamp < timestamp then some timestamp else none

/-- The id of EIP-6122 for a set of keys: the passed blocks, then the passed timestamps, each in
ascending order and once, and the first activation that is not passed, blocks before timestamps. -/
def eip6122 (genesisTimestamp : ℕ) (keys : List ForkFilterKey) (head : Head) :
    ForkId (List ForkFilterKey) :=
  let blockPassed := fun block => decide (block ≤ head.number)
  let timePassed := fun time => decide (time ≤ head.timestamp)
  let blocks := keys.filterMap blockKey
  let times := keys.filterMap (timeKey genesisTimestamp)
  { hash := (Activations.ascending (passedActivations blockPassed blocks)).map .block ++
      (Activations.ascending (passedActivations timePassed times)).map .time
    next := (Activations.ascending (pendingActivations blockPassed blocks) ++
      Activations.ascending (pendingActivations timePassed times)).headD 0 }

def ForkId.checksum {H : Type} (forkHash : ForkHash H) (genesisHash : B256)
    (folded : ForkId (List ForkFilterKey)) : ForkId H where
  hash := (folded.hash.map ForkFilterKey.toU64).foldl forkHash.addAssign
    (forkHash.ofGenesisHash genesisHash)
  next := folded.next

/-- The filter computes the id of EIP-6122 from the keys it is given. -/
def FilterLaw {H : Type} (forkHash : ForkHash H) (filter : CurrentOfFilter H) : Prop :=
  ∀ head genesisHash genesisTimestamp keys, filter head genesisHash genesisTimestamp keys =
    (eip6122 genesisTimestamp keys head).checksum forkHash genesisHash

/-- The activations stand in order as far as they are passed: from the first one that is not
`applied` already they ascend, they contain every passed activation, and the one at which the walk
stops is the least that is not passed. -/
structure InOrder (passed : ℕ → Bool) (applied : ℕ) (activations : List ℕ) : Prop where
  ascending : (Activations.fresh applied (activations.takeWhile passed)).IsChain (· ≤ ·)
  complete : ∀ activation ∈ activations, activation ≠ 0 → passed activation = true →
    activation ∈ Activations.fresh applied (activations.takeWhile passed)
  least : ∀ next, (activations.dropWhile passed).head? = some next →
    ∀ activation ∈ activations, passed activation = false → next ≤ activation

section Walk
variable {H : Type} (add : H → ForkFilterKey → H) (start : H) (genesisTimestamp : ℕ)
  (hardforks : List (Hardfork × ForkCondition)) (head : Head)

theorem applyForks_eq (key : ℕ → ForkFilterKey) (passed : ℕ → Bool) (activations : List ℕ)
    (hash : H) (applied : ℕ) :
    applyForks add key passed activations hash applied =
      (((Activations.dropRepeats applied (activations.takeWhile passed)).map key).foldl add hash,
        (activations.takeWhile passed).getLastD applied,
        (activations.dropWhile passed).head?) := by
  induction activations generalizing hash applied with
  | nil => rfl
  | cons activation rest ih =>
    rw [applyForks]
    cases hpassed : passed activation with
    | false =>
      simp only [Bool.false_eq_true, ↓reduceIte, List.takeWhile_cons, List.dropWhile_cons, hpassed]
      rfl
    | true =>
      simp only [↓reduceIte, List.takeWhile_cons, List.dropWhile_cons, hpassed,
        Activations.dropRepeats, List.getLastD_cons]
      by_cases hsame : activation = applied
      · simp only [hsame, ne_eq, not_true_eq_false, ↓reduceIte]
        exact ih hash applied
      · simp only [hsame, ne_eq, not_false_eq_true, ↓reduceIte, List.map_cons, List.foldl_cons]
        exact ih (add hash (key activation)) activation

def blockPassed : ℕ → Bool := fun block => block ≤ head.number

def timePassed : ℕ → Bool := fun time => time ≤ head.timestamp

def blockStop : Option ℕ := ((blockActivations hardforks).dropWhile (blockPassed head)).head?

def timeStop : Option ℕ :=
  ((timeActivations genesisTimestamp hardforks).dropWhile (timePassed head)).head?

def walkedBlocks : List ℕ :=
  Activations.dropRepeats 0 ((blockActivations hardforks).takeWhile (blockPassed head))

def walkedTimes : List ℕ :=
  Activations.dropRepeats
    (((blockActivations hardforks).takeWhile (blockPassed head)).getLastD 0)
    ((timeActivations genesisTimestamp hardforks).takeWhile (timePassed head))

def walkedKeys : List ForkFilterKey :=
  (walkedBlocks hardforks head).map .block ++
    if (blockStop hardforks head).isSome then []
    else (walkedTimes genesisTimestamp hardforks head).map .time

def walkedNext : ℕ :=
  ((blockStop hardforks head).or (timeStop genesisTimestamp hardforks head)).getD 0

theorem walkForks_eq :
    walkForks add start genesisTimestamp hardforks head =
      ⟨(walkedKeys genesisTimestamp hardforks head).foldl add start,
        walkedNext genesisTimestamp hardforks head⟩ := by
  unfold walkForks walkedKeys walkedNext
  simp only [applyForks_eq]
  cases hstop : blockStop hardforks head with
  | some block =>
    unfold blockStop blockPassed at hstop
    rw [hstop]
    simp only [Option.isSome_some, ↓reduceIte, List.append_nil, Option.some_or, Option.getD_some]
    rfl
  | none =>
    unfold blockStop blockPassed at hstop
    rw [hstop]
    simp only [Option.isSome_none, Bool.false_eq_true, ↓reduceIte, List.foldl_append,
      Option.none_or]
    cases hnext : timeStop genesisTimestamp hardforks head with
    | some time =>
      unfold timeStop timePassed at hnext
      rw [hnext]
      rfl
    | none =>
      unfold timeStop timePassed at hnext
      rw [hnext]
      rfl

end Walk

section Order
variable {passed : ℕ → Bool} {applied : ℕ} {activations : List ℕ}

theorem mem_passedActivations {activation : ℕ} :
    activation ∈ passedActivations passed activations ↔
      activation ∈ activations ∧ activation ≠ 0 ∧ passed activation = true := by
  simp [passedActivations]

theorem mem_pendingActivations {activation : ℕ} :
    activation ∈ pendingActivations passed activations ↔
      activation ∈ activations ∧ passed activation = false := by
  simp [pendingActivations]

theorem ne_zero_of_fresh {l : List ℕ} (h : (Activations.fresh 0 l).IsChain (· ≤ ·)) {a : ℕ}
    (ha : a ∈ Activations.fresh 0 l) : a ≠ 0 := by
  rcases Activations.fresh_cases 0 l with hnil | ⟨first, rest, hfresh, hne⟩
  · rw [hnil] at ha
    cases ha
  · rw [hfresh] at h ha
    have hsorted := List.pairwise_cons.mp (List.isChain_iff_pairwise.mp h)
    rcases List.mem_cons.mp ha with rfl | hrest
    · exact hne
    · have hle := hsorted.1 a hrest
      omega

theorem mem_of_fresh {l : List ℕ} {a : ℕ} (h : a ∈ Activations.fresh applied l) : a ∈ l :=
  (List.dropWhile_sublist _).mem h

/-- The walk applies the passed activations in ascending order exactly if they ascend from the
first new one on and all of them are among those walked. -/
theorem walked_eq_ascending_iff (hzero : applied = 0 ∨ 0 ∉ activations) :
    Activations.dropRepeats applied (activations.takeWhile passed) =
        Activations.ascending (passedActivations passed activations) ↔
      (Activations.fresh applied (activations.takeWhile passed)).IsChain (· ≤ ·) ∧
        ∀ activation ∈ activations, activation ≠ 0 → passed activation = true →
          activation ∈ Activations.fresh applied (activations.takeWhile passed) := by
  rw [Activations.dropRepeats_eq_ascending]
  refine and_congr_right (fun hchain => ⟨?_, ?_⟩)
  · intro hmem activation hactivation hne hpassed
    exact (hmem activation).mp (mem_passedActivations.mpr ⟨hactivation, hne, hpassed⟩)
  · intro hcomplete activation
    rw [mem_passedActivations]
    constructor
    · rintro ⟨hactivation, hne, hpassed⟩
      exact hcomplete activation hactivation hne hpassed
    · intro hfresh
      have hwalked := mem_of_fresh hfresh
      have hlisted := (List.takeWhile_sublist passed).mem hwalked
      refine ⟨hlisted, ?_, List.mem_takeWhile_imp hwalked⟩
      rcases hzero with rfl | hnone
      · exact ne_zero_of_fresh hchain hfresh
      · exact fun h => hnone (h ▸ hlisted)

theorem stop_isNone_iff :
    (activations.dropWhile passed).head? = none ↔ pendingActivations passed activations = [] := by
  rw [List.head?_eq_none_iff, List.dropWhile_eq_nil_iff, List.eq_nil_iff_forall_not_mem]
  simp only [mem_pendingActivations, not_and, Bool.not_eq_false]

theorem stop_mem {next : ℕ} (h : (activations.dropWhile passed).head? = some next) :
    next ∈ pendingActivations passed activations := by
  have hne : activations.dropWhile passed ≠ [] := by
    intro hnil
    rw [hnil] at h
    cases h
  have hhead : (activations.dropWhile passed).head hne = next :=
    Option.some.inj ((List.head?_eq_some_head hne).symm.trans h)
  have hnot := List.head_dropWhile_not passed hne
  have hmem := (List.dropWhile_sublist passed).mem (List.head_mem hne)
  rw [hhead] at hnot hmem
  exact mem_pendingActivations.mpr ⟨hmem, hnot⟩

theorem stop_eq_least_iff :
    ((activations.dropWhile passed).head? =
        (Activations.ascending (pendingActivations passed activations)).head?) ↔
      ∀ next, (activations.dropWhile passed).head? = some next →
        ∀ activation ∈ activations, passed activation = false → next ≤ activation := by
  cases hstop : (activations.dropWhile passed).head? with
  | none =>
    have hnil : Activations.ascending (pendingActivations passed activations) = [] :=
      Activations.ascending_eq_nil.mpr (stop_isNone_iff.mp hstop)
    rw [hnil]
    simp
  | some next =>
    have hmem := stop_mem hstop
    rw [eq_comm, Activations.head?_ascending]
    simp only [mem_pendingActivations, Option.some.injEq, forall_eq']
    constructor
    · rintro ⟨-, hleast⟩ activation hactivation hpending
      exact hleast activation ⟨hactivation, hpending⟩
    · intro hleast
      exact ⟨mem_pendingActivations.mp hmem, fun activation h => hleast activation h.1 h.2⟩

theorem inOrder_iff (hzero : applied = 0 ∨ 0 ∉ activations) :
    InOrder passed applied activations ↔
      Activations.dropRepeats applied (activations.takeWhile passed) =
          Activations.ascending (passedActivations passed activations) ∧
        (activations.dropWhile passed).head? =
          (Activations.ascending (pendingActivations passed activations)).head? := by
  rw [walked_eq_ascending_iff hzero, stop_eq_least_iff]
  constructor
  · rintro ⟨hascending, hcomplete, hleast⟩
    exact ⟨⟨hascending, hcomplete⟩, hleast⟩
  · rintro ⟨⟨hascending, hcomplete⟩, hleast⟩
    exact ⟨hascending, hcomplete, hleast⟩

end Order

section Agreement
variable (genesisTimestamp : ℕ) (hardforks : List (Hardfork × ForkCondition)) (head : Head)

/-- As far as the head has come, the activations stand in order in the hardfork list. -/
structure ForksInOrder : Prop where
  blocks : InOrder (blockPassed head) 0 (blockActivations hardforks)
  times_after_blocks : (∃ block ∈ blockActivations hardforks, head.number < block) →
    ∀ time ∈ timeActivations genesisTimestamp hardforks, head.timestamp < time
  times : (∀ block ∈ blockActivations hardforks, block ≤ head.number) →
    InOrder (timePassed head) ((blockActivations hardforks).getLastD 0)
      (timeActivations genesisTimestamp hardforks)

def filterKeys : List ForkFilterKey := hardforks.filterMap (fun fork => forkFilterKey fork.2)

theorem filterKeys_blocks :
    (filterKeys hardforks).filterMap blockKey = blockActivations hardforks := by
  unfold filterKeys blockActivations
  rw [List.filterMap_filterMap]
  refine List.filterMap_congr (fun fork _ => ?_)
  match fork.2 with
  | .block _ | .ttd _ _ (some _) | .ttd _ _ none | .timestamp _ | .never => rfl

theorem filterKeys_times :
    (filterKeys hardforks).filterMap (timeKey genesisTimestamp) =
      timeActivations genesisTimestamp hardforks := by
  unfold filterKeys timeActivations
  rw [List.filterMap_filterMap]
  refine List.filterMap_congr (fun fork _ => ?_)
  match fork.2 with
  | .block _ | .ttd _ _ (some _) | .ttd _ _ none | .timestamp _ | .never => rfl

def passedBlocks : List ℕ :=
  Activations.ascending (passedActivations (blockPassed head) (blockActivations hardforks))

def passedTimes : List ℕ :=
  Activations.ascending
    (passedActivations (timePassed head) (timeActivations genesisTimestamp hardforks))

def pendingBlocks : List ℕ :=
  Activations.ascending (pendingActivations (blockPassed head) (blockActivations hardforks))

def pendingTimes : List ℕ :=
  Activations.ascending
    (pendingActivations (timePassed head) (timeActivations genesisTimestamp hardforks))

theorem eip6122_filterKeys :
    eip6122 genesisTimestamp (filterKeys hardforks) head =
      { hash := (passedBlocks hardforks head).map .block ++
          (passedTimes genesisTimestamp hardforks head).map .time
        next := (pendingBlocks hardforks head ++
          pendingTimes genesisTimestamp hardforks head).headD 0 } := by
  unfold eip6122
  rw [filterKeys_blocks, filterKeys_times]
  rfl

theorem keys_eq_iff {blocks blocks' times times' : List ℕ} :
    blocks.map ForkFilterKey.block ++ times.map .time =
        blocks'.map ForkFilterKey.block ++ times'.map .time ↔
      blocks = blocks' ∧ times = times' := by
  have hblocks : ∀ blocks times : List ℕ,
      (blocks.map ForkFilterKey.block ++ times.map ForkFilterKey.time).filterMap blockKey =
        blocks := by
    intro blocks times
    rw [List.filterMap_append, List.filterMap_map, List.filterMap_map]
    simp [Function.comp_def, blockKey]
  constructor
  · intro h
    have hsame := congrArg (List.filterMap blockKey) h
    rw [hblocks, hblocks] at hsame
    subst hsame
    have htimes := List.append_cancel_left h
    exact ⟨rfl, List.map_injective_iff.mpr (fun _ _ => ForkFilterKey.time.inj) htimes⟩
  · rintro ⟨rfl, rfl⟩
    rfl

theorem zero_notMem_timeActivations : 0 ∉ timeActivations genesisTimestamp hardforks := by
  unfold timeActivations
  rw [List.mem_filterMap]
  rintro ⟨fork, -, h⟩
  match hcondition : fork.2, h with
  | .timestamp time, h =>
    change (if genesisTimestamp < time then some time else none) = some 0 at h
    split_ifs at h with hlt
    have hzero := Option.some.inj h
    omega

theorem getD_eq_headD_iff {stop : Option ℕ} {l : List ℕ} (h : stop = none ↔ l = []) :
    stop.getD 0 = l.headD 0 ↔ stop = l.head? := by
  cases stop with
  | none =>
    rw [h.mp rfl]
    simp
  | some next =>
    cases l with
    | nil => exact absurd (h.mpr rfl) (by simp)
    | cons first rest => simp

theorem blockStop_eq_none_iff :
    blockStop hardforks head = none ↔ pendingBlocks hardforks head = [] := by
  rw [blockStop, stop_isNone_iff, pendingBlocks, Activations.ascending_eq_nil]

theorem timeStop_eq_none_iff :
    timeStop genesisTimestamp hardforks head = none ↔
      pendingTimes genesisTimestamp hardforks head = [] := by
  rw [timeStop, stop_isNone_iff, pendingTimes, Activations.ascending_eq_nil]

theorem inOrder_blocks_iff :
    InOrder (blockPassed head) 0 (blockActivations hardforks) ↔
      walkedBlocks hardforks head = passedBlocks hardforks head ∧
        blockStop hardforks head = (pendingBlocks hardforks head).head? :=
  inOrder_iff (.inl rfl)

theorem inOrder_times_iff
    (hall : ∀ block ∈ blockActivations hardforks, blockPassed head block = true) :
    InOrder (timePassed head) ((blockActivations hardforks).getLastD 0)
        (timeActivations genesisTimestamp hardforks) ↔
      walkedTimes genesisTimestamp hardforks head = passedTimes genesisTimestamp hardforks head ∧
        timeStop genesisTimestamp hardforks head =
          (pendingTimes genesisTimestamp hardforks head).head? := by
  unfold walkedTimes
  rw [List.takeWhile_eq_self_iff.mpr hall]
  exact inOrder_iff (.inr (zero_notMem_timeActivations genesisTimestamp hardforks))

/-- The walk returned at a block: what it found is right if the blocks are in order and no
timestamp is passed. -/
theorem foldedForks_eq_iff_of_blockStop {block : ℕ}
    (hstop : blockStop hardforks head = some block) :
    (⟨walkedKeys genesisTimestamp hardforks head, walkedNext genesisTimestamp hardforks head⟩ :
        ForkId (List ForkFilterKey)) = eip6122 genesisTimestamp (filterKeys hardforks) head ↔
      InOrder (blockPassed head) 0 (blockActivations hardforks) ∧
        passedTimes genesisTimestamp hardforks head = [] := by
  have hpending : pendingBlocks hardforks head ≠ [] := by
    rw [Ne, ← blockStop_eq_none_iff, hstop]
    simp
  have hhead : (pendingBlocks hardforks head ++
      pendingTimes genesisTimestamp hardforks head).head? = (pendingBlocks hardforks head).head? :=
    List.head?_append_of_ne_nil _ hpending
  have hnext : block = (pendingBlocks hardforks head ++
      pendingTimes genesisTimestamp hardforks head).headD 0 ↔
        some block = (pendingBlocks hardforks head).head? := by
    rw [← hhead]
    refine @getD_eq_headD_iff (some block) _ ⟨fun hnone => ?_, fun hnil => ?_⟩
    · cases hnone
    · exact absurd (List.append_eq_nil_iff.mp hnil).1 hpending
  have hnoTimes : ([] : List ForkFilterKey) = ([] : List ℕ).map ForkFilterKey.time := rfl
  rw [eip6122_filterKeys, ForkId.mk.injEq, inOrder_blocks_iff]
  unfold walkedKeys walkedNext
  rw [hstop]
  simp only [Option.isSome_some, ↓reduceIte, Option.some_or, Option.getD_some]
  rw [hnext, hnoTimes, keys_eq_iff, @eq_comm _ ([] : List ℕ)]
  exact and_right_comm

/-- The walk passed every block: what it found is right if the blocks, and after them the
timestamps, are in order. -/
theorem foldedForks_eq_iff_of_allBlocks (hstop : blockStop hardforks head = none) :
    (⟨walkedKeys genesisTimestamp hardforks head, walkedNext genesisTimestamp hardforks head⟩ :
        ForkId (List ForkFilterKey)) = eip6122 genesisTimestamp (filterKeys hardforks) head ↔
      InOrder (blockPassed head) 0 (blockActivations hardforks) ∧
        InOrder (timePassed head) ((blockActivations hardforks).getLastD 0)
          (timeActivations genesisTimestamp hardforks) := by
  have hall : ∀ block ∈ blockActivations hardforks, blockPassed head block = true :=
    List.dropWhile_eq_nil_iff.mp (List.head?_eq_none_iff.mp hstop)
  have hpending : pendingBlocks hardforks head = [] :=
    (blockStop_eq_none_iff hardforks head).mp hstop
  have hnext : (timeStop genesisTimestamp hardforks head).getD 0 =
      (pendingTimes genesisTimestamp hardforks head).headD 0 ↔
        timeStop genesisTimestamp hardforks head =
          (pendingTimes genesisTimestamp hardforks head).head? :=
    getD_eq_headD_iff (timeStop_eq_none_iff genesisTimestamp hardforks head)
  rw [eip6122_filterKeys, ForkId.mk.injEq, inOrder_blocks_iff,
    inOrder_times_iff genesisTimestamp hardforks head hall]
  unfold walkedKeys walkedNext
  rw [hstop, hpending]
  simp only [Option.isSome_none, Bool.false_eq_true, ↓reduceIte, Option.none_or, List.nil_append,
    List.head?_nil, and_true]
  rw [keys_eq_iff, hnext]
  exact and_assoc

theorem passedTimes_eq_nil_iff :
    passedTimes genesisTimestamp hardforks head = [] ↔
      ∀ time ∈ timeActivations genesisTimestamp hardforks, head.timestamp < time := by
  rw [passedTimes, Activations.ascending_eq_nil, List.eq_nil_iff_forall_not_mem]
  simp only [mem_passedActivations, timePassed, decide_eq_true_eq, not_and, not_le]
  constructor
  · intro h time htime
    refine h time htime (fun hzero => ?_)
    exact zero_notMem_timeActivations genesisTimestamp hardforks (hzero ▸ htime)
  · exact fun h time htime _ => h time htime

theorem foldedForks_eq_iff :
    (⟨walkedKeys genesisTimestamp hardforks head, walkedNext genesisTimestamp hardforks head⟩ :
        ForkId (List ForkFilterKey)) = eip6122 genesisTimestamp (filterKeys hardforks) head ↔
      ForksInOrder genesisTimestamp hardforks head := by
  cases hstop : blockStop hardforks head with
  | some block =>
    rw [foldedForks_eq_iff_of_blockStop genesisTimestamp hardforks head hstop]
    obtain ⟨hblock, hpending⟩ := mem_pendingActivations.mp (stop_mem hstop)
    have hlt : head.number < block := Nat.not_le.mp (of_decide_eq_false hpending)
    rw [passedTimes_eq_nil_iff]
    constructor
    · rintro ⟨hblocks, htimes⟩
      exact ⟨hblocks, fun _ => htimes, fun hall => absurd (hall block hblock) (Nat.not_le.mpr hlt)⟩
    · rintro ⟨hblocks, htimes, -⟩
      exact ⟨hblocks, htimes ⟨block, hblock, hlt⟩⟩
  | none =>
    rw [foldedForks_eq_iff_of_allBlocks genesisTimestamp hardforks head hstop]
    have hall : ∀ block ∈ blockActivations hardforks, block ≤ head.number := by
      intro block hblock
      have hnil := List.dropWhile_eq_nil_iff.mp (List.head?_eq_none_iff.mp hstop)
      exact of_decide_eq_true (hnil block hblock)
    constructor
    · rintro ⟨hblocks, htimes⟩
      refine ⟨hblocks, ?_, fun _ => htimes⟩
      rintro ⟨block, hblock, hlt⟩
      exact absurd (hall block hblock) (Nat.not_le.mpr hlt)
    · rintro ⟨hblocks, -, htimes⟩
      exact ⟨hblocks, htimes hall⟩

end Agreement

section Genesis
variable {H : Type} (forkHash : ForkHash H) (filter : CurrentOfFilter H) (genesis : Genesis)
  (genesisHash : B256) (head : Head)

theorem foldl_snoc (keys start : List ForkFilterKey) :
    keys.foldl (fun keys key => keys ++ [key]) start = start ++ keys := by
  induction keys generalizing start with
  | nil => rw [List.foldl_nil, List.append_nil]
  | cons key rest ih => rw [List.foldl_cons, ih, List.append_assoc, List.singleton_append]

theorem GnosisChainSpec.forkId_eq_checksum (chainSpec : GnosisChainSpec) (genesisTimestamp : ℕ) :
    chainSpec.forkId forkHash genesisHash genesisTimestamp head =
      (chainSpec.foldedForks genesisTimestamp head).checksum forkHash genesisHash := by
  unfold GnosisChainSpec.forkId GnosisChainSpec.foldedForks
  rw [walkForks_eq, walkForks_eq, foldl_snoc, List.nil_append, ForkId.checksum, List.foldl_map]

def Genesis.eip6122 : ForkId (List ForkFilterKey) :=
  RethGnosis.eip6122 genesis.timestamp (filterKeys (GnosisChainSpec.ofGenesis genesis).hardforks)
    head

structure RightForkIds : Prop where
  folded : (GnosisChainSpec.ofGenesis genesis).foldedForks genesis.timestamp head =
    genesis.eip6122 head
  forkId : (GnosisChainSpec.ofGenesis genesis).forkId forkHash genesisHash genesis.timestamp head =
    (genesis.eip6122 head).checksum forkHash genesisHash
  sameAsFilter :
    (GnosisChainSpec.ofGenesis genesis).forkId forkHash genesisHash genesis.timestamp head =
      (GnosisChainSpec.ofGenesis genesis).forkFilterCurrent genesisHash genesis.timestamp head
        filter

theorem rightForkIds_iff (hfilter : FilterLaw forkHash filter) :
    RightForkIds forkHash filter genesis genesisHash head ↔
      ForksInOrder genesis.timestamp (GnosisChainSpec.ofGenesis genesis).hardforks head := by
  have hfolded : (GnosisChainSpec.ofGenesis genesis).foldedForks genesis.timestamp head =
      ⟨walkedKeys genesis.timestamp (GnosisChainSpec.ofGenesis genesis).hardforks head,
        walkedNext genesis.timestamp (GnosisChainSpec.ofGenesis genesis).hardforks head⟩ := by
    unfold GnosisChainSpec.foldedForks
    rw [walkForks_eq, foldl_snoc, List.nil_append]
  rw [← foldedForks_eq_iff, ← hfolded]
  constructor
  · exact RightForkIds.folded
  · intro hsame
    have hforkId := GnosisChainSpec.forkId_eq_checksum forkHash genesisHash head
      (GnosisChainSpec.ofGenesis genesis) genesis.timestamp
    rw [hsame] at hforkId
    exact ⟨hsame, hforkId, hforkId.trans (hfilter _ _ _ _).symm⟩

/-- A Chiado genesis with Shanghai at 10, Osaka at 50 and the Balancer fork at 60. -/
def lateBalancer : Genesis where
  chainId := 10200
  timestamp := 0
  homesteadBlock := some 0
  daoForkBlock := none
  eip150Block := some 0
  eip155Block := some 0
  byzantiumBlock := some 0
  constantinopleBlock := some 0
  petersburgBlock := some 0
  istanbulBlock := some 0
  berlinBlock := some 0
  londonBlock := some 0
  mergeNetsplitBlock := none
  terminalTotalDifficulty := some 100
  shanghaiTime := some 10
  cancunTime := none
  pragueTime := none
  osakaTime := some 50
  depositContractAddress := none
  extraFields := ⟨∅⟩
  balancerHardforkConfig := some ⟨60, []⟩
  auraConfig := none

/-- At time 55 `fork_id` has not seen Osaka, which stands behind the Balancer fork. -/
theorem lateBalancer_skipsOsaka :
    (GnosisChainSpec.ofGenesis lateBalancer).foldedForks lateBalancer.timestamp ⟨1000, 55⟩ =
        ⟨[.time 10], 60⟩ ∧
      lateBalancer.eip6122 ⟨1000, 55⟩ = ⟨[.time 10, .time 50], 60⟩ := by
  constructor
  · decide
  · decide +kernel

def referenceForkHash : ForkHash ℕ where
  ofGenesisHash := fun genesisHash => genesisHash.toNat % 2 ^ 32
  addAssign := fun hash n => (hash * 31 + n) % 2 ^ 32

def referenceFilter : CurrentOfFilter ℕ := fun head genesisHash genesisTimestamp keys =>
  (eip6122 genesisTimestamp keys head).checksum referenceForkHash genesisHash

theorem referenceFilter_law : FilterLaw referenceForkHash referenceFilter := fun _ _ _ _ => rfl

theorem rightForkIds_iff_lateBalancer :
    FilterLaw referenceForkHash referenceFilter ∧
      (RightForkIds referenceForkHash referenceFilter lateBalancer 7#256 ⟨1000, 55⟩ ↔
        ForksInOrder lateBalancer.timestamp (GnosisChainSpec.ofGenesis lateBalancer).hardforks
          ⟨1000, 55⟩) :=
  ⟨referenceFilter_law, rightForkIds_iff referenceForkHash referenceFilter lateBalancer 7#256
    ⟨1000, 55⟩ referenceFilter_law⟩

end Genesis

end RethGnosis
