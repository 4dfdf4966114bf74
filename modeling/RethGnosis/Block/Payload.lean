import RethGnosis.Evm.Cfg

set_option autoImplicit false

/-!
# The transaction loop of a payload

`default_ethereum_payload` takes transactions from the pool as long as they fit. The pool's
iterator, its blobs, the cancellation mark and the block builder are one world that the
loop calls into.
-/
namespace RethGnosis

/-- What the loop reads of a consensus transaction. `blobVersionedHashes` is there for EIP-4844
transactions only. -/
structure ConsensusTransaction where
  hash : B256
  length : ℕ
  blobVersionedHashes : Option (List B256)
  effectiveTipPerGas : ℕ → Option (BitVec 128)

structure PoolTransaction where
  gasLimit : ℕ
  toConsensus : ConsensusTransaction

inductive BlobTransactionSidecarVariant (α β : Type) where
  | Eip4844 (sidecar : α)
  | Eip7594 (sidecar : β)
deriving DecidableEq

def BlobTransactionSidecarVariant.isEip7594 {α β : Type} :
    BlobTransactionSidecarVariant α β → Bool
  | .Eip4844 _ => false
  | .Eip7594 _ => true

def BlobTransactionSidecarVariant.isEip4844 {α β : Type} :
    BlobTransactionSidecarVariant α β → Bool
  | .Eip4844 _ => true
  | .Eip7594 _ => false

inductive Eip4844PoolTransactionError where
  | missingEip4844BlobSidecar
  | unexpectedEip4844SidecarAfterOsaka
  | unexpectedEip7594SidecarBeforeOsaka
  | tooManyEip4844Blobs (blobs permitted : ℕ)
deriving DecidableEq

inductive InvalidTransactionError where
  | txTypeNotSupported
deriving DecidableEq

inductive InvalidPoolTransactionError where
  | exceedsGasLimit (gasLimit blockGasLimit : ℕ)
  | oversizedData (size limit : ℕ)
  | eip4844 (error : Eip4844PoolTransactionError)
  | consensus (error : InvalidTransactionError)
deriving DecidableEq

inductive PayloadExecutionError (ε : Type) where
  | invalidTx (isNonceTooLow : Bool)
  | other (e : ε)

structure PayloadSource (ω ε γ α β : Type) where
  next : ω → Option (PoolTransaction × ω)
  markInvalid : PoolTransaction → InvalidPoolTransactionError → ω → ω
  skipBlobs : ω → ω
  isCancelled : ω → Bool
  getBlob : ω → B256 → Except ε (Option (BlobTransactionSidecarVariant α β))
  executeTransaction : ConsensusTransaction → ω → Except (PayloadExecutionError ε) ℕ × ω
  emptySidecars : γ
  pushSidecarVariant : γ → BlobTransactionSidecarVariant α β → γ

/-- What is fixed before the loop. `withdrawalsLength` is the encoded length of the withdrawals, if
there are any. -/
structure PayloadEnv where
  blockGasLimit : ℕ
  baseFee : ℕ
  maxBlobsPerBlock : Option ℕ
  blobParams : Option BlobParams
  isOsaka : Bool
  withdrawalsLength : Option ℕ
  maxRlpBlockSize : ℕ

def PayloadEnv.protocolMaxBlobCount (env : PayloadEnv) : ℕ :=
  (env.blobParams.map BlobParams.maxBlobCount).getD 0

def PayloadEnv.maxBlobCount (env : PayloadEnv) : ℕ :=
  (env.maxBlobsPerBlock.map (fun userLimit =>
    max (min userLimit env.protocolMaxBlobCount) 1)).getD env.protocolMaxBlobCount

def PayloadEnv.withdrawalsRlpLength (env : PayloadEnv) : ℕ := env.withdrawalsLength.getD 0

structure Inclusion (α β : Type) where
  poolTx : PoolTransaction
  gasUsed : ℕ
  sidecar : Option (BlobTransactionSidecarVariant α β)

/-- The accumulators of the loop; `included` is kept by the builder. -/
structure PayloadState (ω γ α β : Type) where
  world : ω
  cumulativeGasUsed : ℕ
  totalFees : U256
  blobSidecars : γ
  blockBlobCount : ℕ
  blockTransactionsRlpLength : ℕ
  included : List (Inclusion α β)

inductive PayloadExit (ε : Type) where
  | cancelled
  | error (e : ε)
  | panic (message : String)

/-- One iteration: `continue`, the end of the iterator, or a return. -/
inductive LoopStep (σ ρ : Type) where
  | next (s : σ)
  | done (s : σ)
  | returned (r : ρ)

section Loop
variable {ω ε γ α β : Type} (source : PayloadSource ω ε γ α β) (env : PayloadEnv)

def initialPayloadState (world : ω) : PayloadState ω γ α β where
  world := world
  cumulativeGasUsed := 0
  totalFees := 0
  blobSidecars := source.emptySidecars
  blockBlobCount := 0
  blockTransactionsRlpLength := 0
  included := []

/-- The block labelled `'sidecar`. -/
def sidecarFor (w : ω) (hash : B256) :
    Except ε (Except Eip4844PoolTransactionError (BlobTransactionSidecarVariant α β)) :=
  match source.getBlob w hash with
  | .error e => .error e
  | .ok none => .ok (.error .missingEip4844BlobSidecar)
  | .ok (some sidecar) =>
    if env.isOsaka then
      if sidecar.isEip7594 then .ok (.ok sidecar)
      else .ok (.error .unexpectedEip4844SidecarAfterOsaka)
    else if sidecar.isEip4844 then .ok (.ok sidecar)
    else .ok (.error .unexpectedEip7594SidecarBeforeOsaka)

def blobTxSidecar (blockBlobCount : ℕ) (w : ω) (tx : ConsensusTransaction) :
    Except ε (Except Eip4844PoolTransactionError (Option (BlobTransactionSidecarVariant α β))) :=
  match tx.blobVersionedHashes with
  | none => .ok (.ok none)
  | some hashes =>
    if env.maxBlobCount < (blockBlobCount + hashes.length) % 2 ^ 64 then
      .ok (.error (.tooManyEip4844Blobs ((blockBlobCount + hashes.length) % 2 ^ 64)
        env.maxBlobCount))
    else
      match sidecarFor source env w tx.hash with
      | .error e => .error e
      | .ok (.error error) => .ok (.error error)
      | .ok (.ok sidecar) => .ok (.ok (some sidecar))

variable (s : PayloadState ω γ α β)

/-- 1Kb of overhead for the block header. -/
def estimatedBlockSizeWithTx (tx : ConsensusTransaction) : ℕ :=
  (s.blockTransactionsRlpLength + tx.length + env.withdrawalsRlpLength + 1024) % 2 ^ 64

def blobCountWithTx (tx : ConsensusTransaction) : ℕ :=
  match tx.blobVersionedHashes with
  | none => s.blockBlobCount
  | some hashes => (s.blockBlobCount + hashes.length) % 2 ^ 64

def worldAfterBlobs (w : ω) (tx : ConsensusTransaction) : ω :=
  if tx.blobVersionedHashes.isSome ∧ blobCountWithTx s tx = env.maxBlobCount then source.skipBlobs w
  else w

def pushSidecar (sidecar : Option (BlobTransactionSidecarVariant α β)) : γ :=
  match sidecar with
  | none => s.blobSidecars
  | some sidecar => source.pushSidecarVariant s.blobSidecars sidecar

def includeTransaction (w : ω) (poolTx : PoolTransaction)
    (sidecar : Option (BlobTransactionSidecarVariant α β)) (gasUsed minerFee : ℕ) :
    PayloadState ω γ α β where
  world := worldAfterBlobs source env s w poolTx.toConsensus
  cumulativeGasUsed := (s.cumulativeGasUsed + gasUsed) % 2 ^ 64
  totalFees := (s.totalFees + minerFee * gasUsed) % 2 ^ 256
  blobSidecars := pushSidecar source s sidecar
  blockBlobCount := blobCountWithTx s poolTx.toConsensus
  blockTransactionsRlpLength :=
    (s.blockTransactionsRlpLength + poolTx.toConsensus.length) % 2 ^ 64
  included := s.included ++ [⟨poolTx, gasUsed, sidecar⟩]

def skipTransaction (w : ω) : PayloadState ω γ α β := { s with world := w }

def executeStep (w : ω) (poolTx : PoolTransaction)
    (sidecar : Option (BlobTransactionSidecarVariant α β)) :
    LoopStep (PayloadState ω γ α β) (PayloadExit ε) :=
  match source.executeTransaction poolTx.toConsensus w with
  | (.error (.invalidTx isNonceTooLow), w) =>
    if isNonceTooLow then .next (skipTransaction s w)
    else .next (skipTransaction s
      (source.markInvalid poolTx (.consensus .txTypeNotSupported) w))
  | (.error (.other e), _) => .returned (.error e)
  | (.ok gasUsed, w) =>
    match poolTx.toConsensus.effectiveTipPerGas env.baseFee with
    | none => .returned (.panic "fee is always valid; execution succeeded")
    | some minerFee =>
      .next (includeTransaction source env s w poolTx sidecar gasUsed minerFee.toNat)

def offerStep (w : ω) (poolTx : PoolTransaction) :
    LoopStep (PayloadState ω γ α β) (PayloadExit ε) :=
  if env.blockGasLimit < (s.cumulativeGasUsed + poolTx.gasLimit) % 2 ^ 64 then
    .next (skipTransaction s
      (source.markInvalid poolTx (.exceedsGasLimit poolTx.gasLimit env.blockGasLimit) w))
  else if source.isCancelled w then
    .returned .cancelled
  else if env.isOsaka ∧
      env.maxRlpBlockSize < estimatedBlockSizeWithTx env s poolTx.toConsensus then
    .next (skipTransaction s (source.markInvalid poolTx
      (.oversizedData (estimatedBlockSizeWithTx env s poolTx.toConsensus) env.maxRlpBlockSize) w))
  else
    match blobTxSidecar source env s.blockBlobCount w poolTx.toConsensus with
    | .error e => .returned (.error e)
    | .ok (.error error) => .next (skipTransaction s (source.markInvalid poolTx (.eip4844 error) w))
    | .ok (.ok sidecar) => executeStep source env s w poolTx sidecar

def payloadStep : LoopStep (PayloadState ω γ α β) (PayloadExit ε) :=
  match source.next s.world with
  | none => .done s
  | some (poolTx, w) => offerStep source env s w poolTx

def LoopHead (world : ω) : PayloadState ω γ α β → Prop :=
  Relation.ReflTransGen (fun s t => payloadStep source env s = .next t)
    (initialPayloadState source world)

end Loop

end RethGnosis
