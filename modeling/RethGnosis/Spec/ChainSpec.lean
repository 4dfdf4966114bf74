import RethGnosis.Aura.Validators

set_option autoImplicit false

/-!
# Chain specifications and fork activations

The fork table of `GnosisChainSpec`, with the conditions under which a fork is
active at a block or at a timestamp. A fork that the table does not list is never
active.
-/
namespace RethGnosis

inductive EthereumHardfork where
  | Frontier | Homestead | Dao | Tangerine | SpuriousDragon | Byzantium | Constantinople
  | Petersburg | Istanbul | MuirGlacier | Berlin | London | ArrowGlacier | GrayGlacier | Paris
  | Shanghai | Cancun | Prague | Osaka
deriving DecidableEq

inductive GnosisHardfork where
  | POSDAOActivation | BalancerFork
deriving DecidableEq

inductive Hardfork where
  | ethereum (fork : EthereumHardfork)
  | gnosis (fork : GnosisHardfork)
deriving DecidableEq

inductive ForkCondition where
  | block (number : ℕ)
  | ttd (activationBlockNumber : ℕ) (totalDifficulty : U256) (forkBlock : Option ℕ)
  | timestamp (time : ℕ)
  | never
deriving DecidableEq

namespace ForkCondition

def activeAtBlock (condition : ForkCondition) (currentBlock : ℕ) : Bool :=
  match condition with
  | block number => number ≤ currentBlock
  | ttd activationBlockNumber _ _ => activationBlockNumber ≤ currentBlock
  | timestamp _ => false
  | never => false

def activeAtTimestamp (condition : ForkCondition) (current : ℕ) : Bool :=
  match condition with
  | timestamp time => time ≤ current
  | block _ => false
  | ttd _ _ _ => false
  | never => false

end ForkCondition

structure BalancerHardforkConfig where
  activationTime : ℕ
  config : List (Address × Option Bytes × B256)
deriving DecidableEq

/-- The genesis part of the specification that `GnosisEvmConfig::new` reads: each extra field
with the address it parses to, if it does. -/
structure GenesisConfig where
  extraFields : BTreeMap String (Option Address)

structure GnosisChainSpec where
  chainId : ℕ
  genesis : GenesisConfig
  hardforks : List (Hardfork × ForkCondition)
  depositContract : Option Address
  balancerHardforkConfig : Option BalancerHardforkConfig
  auraConfig : Option AuraConfig

namespace GnosisChainSpec
variable (chainSpec : GnosisChainSpec)

def fork (fork : Hardfork) : ForkCondition :=
  (chainSpec.hardforks.lookup fork).getD .never

def depositContractAddress : Option Address := chainSpec.depositContract

section Block
variable (blockNumber : ℕ)

def isBerlinActiveAtBlock : Bool :=
  (chainSpec.fork (.ethereum .Berlin)).activeAtBlock blockNumber

def isLondonActiveAtBlock : Bool :=
  (chainSpec.fork (.ethereum .London)).activeAtBlock blockNumber

def isParisActiveAtBlock : Bool :=
  (chainSpec.fork (.ethereum .Paris)).activeAtBlock blockNumber

end Block

section Timestamp
variable (timestamp : ℕ)

def isShanghaiActiveAtTimestamp : Bool :=
  (chainSpec.fork (.ethereum .Shanghai)).activeAtTimestamp timestamp

def isCancunActiveAtTimestamp : Bool :=
  (chainSpec.fork (.ethereum .Cancun)).activeAtTimestamp timestamp

def isPragueActiveAtTimestamp : Bool :=
  (chainSpec.fork (.ethereum .Prague)).activeAtTimestamp timestamp

def isOsakaActiveAtTimestamp : Bool :=
  (chainSpec.fork (.ethereum .Osaka)).activeAtTimestamp timestamp

def isBalancerHardforkActiveAtTimestamp : Bool :=
  (chainSpec.fork (.gnosis .BalancerFork)).activeAtTimestamp timestamp

end Timestamp

end GnosisChainSpec

end RethGnosis
