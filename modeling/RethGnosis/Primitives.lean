import RethGnosis.Library.Histogram

set_option autoImplicit false

/-!
# Primitive types

Fixed-width integers that are only stored, copied and compared are natural
numbers; where the code's arithmetic saturates, wraps or is checked, the
definition that uses it says so. Addresses are ordered as their big-endian bytes.
-/
namespace RethGnosis

abbrev Address := BitVec 160

instance : Std.TransOrd Address := inferInstanceAs (Std.TransOrd (BitVec 160))

instance : Std.LawfulEqOrd Address := inferInstanceAs (Std.LawfulEqOrd (BitVec 160))

abbrev B256 := BitVec 256

abbrev U256 := ℕ

abbrev Bytes := List UInt8

def u256Max : ℕ := 2 ^ 256 - 1

def saturatingAdd (a b : U256) : U256 := min (a + b) u256Max

/-- `alloy_eips::eip4788::SYSTEM_ADDRESS` -/
def SYSTEM_ADDRESS : Address := 0xfffffffffffffffffffffffffffffffffffffffe#160

def KECCAK_EMPTY : B256 := 0xc5d2460186f7233c927e7db2dcc703c0e500b653ca82273b7bfad8045d85a470#256

structure Log where
  address : Address
  topics : List B256
  data : Bytes
deriving DecidableEq

structure Receipt where
  txType : ℕ
  success : Bool
  cumulativeGasUsed : ℕ
  logs : List Log
deriving DecidableEq

/-- Pre-merge headers carry `auraStep` and `auraSeal` in place of `mixHash` and `nonce`. -/
structure GnosisHeader where
  parentHash : B256
  ommersHash : B256
  beneficiary : Address
  stateRoot : B256
  transactionsRoot : B256
  receiptsRoot : B256
  logsBloom : BitVec 2048
  difficulty : U256
  number : ℕ
  gasLimit : ℕ
  gasUsed : ℕ
  timestamp : ℕ
  extraData : Bytes
  mixHash : Option B256
  nonce : Option (BitVec 64)
  auraStep : Option U256
  auraSeal : Option (BitVec 520)
  baseFeePerGas : Option ℕ
  withdrawalsRoot : Option B256
  blobGasUsed : Option ℕ
  excessBlobGas : Option ℕ
  parentBeaconBlockRoot : Option B256
  requestsHash : Option B256
  blockAccessListHash : Option B256
  slotNumber : Option ℕ
deriving DecidableEq, Inhabited

end RethGnosis
