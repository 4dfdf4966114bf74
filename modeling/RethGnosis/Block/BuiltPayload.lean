import RethGnosis.Block.ChainImport
import RethGnosis.Block.PayloadLimits

set_option autoImplicit false

/-!
# The built payload and its envelopes

`payload.rs` behind the transaction loop: whether the payload is better, the block, the size
check, and the answers of `engine_getPayload`. The sidecars of one payload are all of the
kind of its fork, so the conversions of that fork do not fail.
-/
namespace RethGnosis

structure GnosisBuiltPayload (α β : Type) where
  id : ℕ
  block : SealedBlock
  fees : U256
  sidecars : BlobSidecars α β
  requests : Option Requests

structure PayloadFinish (ω ε α β : Type) where
  isBetterPayload : Option (GnosisBuiltPayload α β) → U256 → Bool
  finish : ω → Except ε (Requests × SealedBlock)
  rlpLength : SealedBlock → ℕ

inductive BuildOutcome (α β : Type) where
  | better (payload : GnosisBuiltPayload α β)
  | aborted (fees : U256)
  | cancelled

inductive PayloadBuilderError (ε : Type) where
  | evm (e : ε)
  | finish (e : ε)
  | blockTooLarge (rlpLength maxRlpLength : ℕ)
  | panic (message : String)

section Finish
variable {ω ε α β : Type} (source : PayloadSource ω ε (BlobSidecars α β) α β) (env : PayloadEnv)
  (fin : PayloadFinish ω ε α β) (payloadId : ℕ) (chainSpec : GnosisChainSpec) (timestamp : ℕ)
  (bestPayload : Option (GnosisBuiltPayload α β))

def finishPayload (s : PayloadState ω (BlobSidecars α β) α β) :
    Except (PayloadBuilderError ε) (BuildOutcome α β) :=
  if !fin.isBetterPayload bestPayload s.totalFees then .ok (.aborted s.totalFees)
  else
    match fin.finish s.world with
    | .error e => .error (.finish e)
    | .ok (requests, sealedBlock) =>
      if env.isOsaka ∧ env.maxRlpBlockSize < fin.rlpLength sealedBlock then
        .error (.blockTooLarge (fin.rlpLength sealedBlock) env.maxRlpBlockSize)
      else
        .ok (.better
          { id := payloadId
            block := sealedBlock
            fees := s.totalFees
            sidecars := s.blobSidecars
            requests :=
              if chainSpec.isPragueActiveAtTimestamp timestamp then some requests else none })

def PayloadExit.outcome : PayloadExit ε → Except (PayloadBuilderError ε) (BuildOutcome α β)
  | .cancelled => .ok .cancelled
  | .error e => .error (.evm e)
  | .panic message => .error (.panic message)

/-- What `default_ethereum_payload` returns from the world after the pre-execution changes. -/
inductive Builds (world : ω) : Except (PayloadBuilderError ε) (BuildOutcome α β) → Prop where
  | returned {s : PayloadState ω (BlobSidecars α β) α β} {r : PayloadExit ε}
      (head : LoopHead source env world s) (step : payloadStep source env s = .returned r) :
      Builds world r.outcome
  | finished {s t : PayloadState ω (BlobSidecars α β) α β} (head : LoopHead source env world s)
      (step : payloadStep source env s = .done t) :
      Builds world (finishPayload env fin payloadId chainSpec timestamp bestPayload t)

end Finish

section Envelopes

inductive BuiltPayloadConversionError where
  | unexpectedEip4844Sidecars
  | unexpectedEip7594Sidecars
deriving DecidableEq

/-- `from_block_unchecked` of the V3 payload, and the bundles of sidecars. -/
structure EnvelopeSource (α β P₃ B₁ B₂ : Type) where
  payloadV3 : B256 → GnosisBlock → P₃
  emptyBundleV1 : B₁
  blobsBundleV1 : List α → B₁
  emptyBundleV2 : B₂
  blobsBundleV2 : List β → B₂

structure ExecutionPayloadEnvelopeV3 (P₃ B₁ : Type) where
  executionPayload : P₃
  blockValue : U256
  blobsBundle : B₁
  shouldOverrideBuilder : Bool

structure ExecutionPayloadEnvelopeV4 (P₃ B₁ : Type) where
  envelopeInner : ExecutionPayloadEnvelopeV3 P₃ B₁
  executionRequests : Requests

structure ExecutionPayloadEnvelopeV5 (P₃ B₂ : Type) where
  executionPayload : P₃
  blockValue : U256
  blobsBundle : B₂
  shouldOverrideBuilder : Bool
  executionRequests : Requests

variable {α β P₃ B₁ B₂ : Type} (convert : EnvelopeSource α β P₃ B₁ B₂)
  (payload : GnosisBuiltPayload α β)

def bundleIntoV1 : BlobSidecars α β → Except BuiltPayloadConversionError B₁
  | .Empty => .ok convert.emptyBundleV1
  | .Eip4844 sidecars => .ok (convert.blobsBundleV1 sidecars)
  | .Eip7594 _ => .error .unexpectedEip7594Sidecars

def bundleIntoV2 : BlobSidecars α β → Except BuiltPayloadConversionError B₂
  | .Empty => .ok convert.emptyBundleV2
  | .Eip7594 sidecars => .ok (convert.blobsBundleV2 sidecars)
  | .Eip4844 _ => .error .unexpectedEip4844Sidecars

def tryIntoV3 : Except BuiltPayloadConversionError (ExecutionPayloadEnvelopeV3 P₃ B₁) := do
  let blobsBundle ← bundleIntoV1 convert payload.sidecars
  return {
    executionPayload := convert.payloadV3 payload.block.hash payload.block.block
    blockValue := payload.fees
    shouldOverrideBuilder := false
    blobsBundle := blobsBundle }

def tryIntoV4 : Except BuiltPayloadConversionError (ExecutionPayloadEnvelopeV4 P₃ B₁) := do
  let executionRequests := payload.requests.getD []
  let envelopeInner ← tryIntoV3 convert payload
  return {
    executionRequests := executionRequests
    envelopeInner := envelopeInner }

def tryIntoV5 : Except BuiltPayloadConversionError (ExecutionPayloadEnvelopeV5 P₃ B₂) := do
  let blobsBundle ← bundleIntoV2 convert payload.sidecars
  return {
    executionPayload := convert.payloadV3 payload.block.hash payload.block.block
    blockValue := payload.fees
    shouldOverrideBuilder := false
    blobsBundle := blobsBundle
    executionRequests := payload.requests.getD [] }

end Envelopes

/-! ### Sidecars of one kind -/

section Sidecars
variable {ω ε α β : Type}

def BlobTransactionSidecarVariant.asEip4844 : BlobTransactionSidecarVariant α β → Option α
  | .Eip4844 sidecar => some sidecar
  | .Eip7594 _ => none

def BlobTransactionSidecarVariant.asEip7594 : BlobTransactionSidecarVariant α β → Option β
  | .Eip4844 _ => none
  | .Eip7594 sidecar => some sidecar

structure CollectsSidecars (source : PayloadSource ω ε (BlobSidecars α β) α β) : Prop where
  empty : source.emptySidecars = .Empty
  push : source.pushSidecarVariant = BlobSidecars.pushSidecarVariant

def ofKind (isOsaka : Bool) (sidecars : List (BlobTransactionSidecarVariant α β)) :
    BlobSidecars α β :=
  if isOsaka then .Eip7594 (sidecars.filterMap BlobTransactionSidecarVariant.asEip7594)
  else .Eip4844 (sidecars.filterMap BlobTransactionSidecarVariant.asEip4844)

def collected (isOsaka : Bool) (sidecars : List (BlobTransactionSidecarVariant α β)) :
    BlobSidecars α β :=
  if sidecars = [] then .Empty else ofKind isOsaka sidecars

theorem push_ofKind {isOsaka : Bool} {sidecar : BlobTransactionSidecarVariant α β}
    (hkind : sidecar.isEip7594 = isOsaka) (earlier : List (BlobTransactionSidecarVariant α β)) :
    (ofKind isOsaka earlier).pushSidecarVariant sidecar =
      ofKind isOsaka (earlier ++ [sidecar]) := by
  subst hkind
  unfold ofKind
  rw [List.filterMap_append, List.filterMap_append]
  cases sidecar <;> rfl

theorem push_empty (sidecar : BlobTransactionSidecarVariant α β) :
    BlobSidecars.pushSidecarVariant .Empty sidecar = ofKind sidecar.isEip7594 [sidecar] := by
  cases sidecar <;> rfl

theorem foldl_push_ofKind {isOsaka : Bool} {sidecars : List (BlobTransactionSidecarVariant α β)}
    (hkind : ∀ sidecar ∈ sidecars, sidecar.isEip7594 = isOsaka)
    (earlier : List (BlobTransactionSidecarVariant α β)) :
    sidecars.foldl BlobSidecars.pushSidecarVariant (ofKind isOsaka earlier) =
      ofKind isOsaka (earlier ++ sidecars) := by
  induction sidecars generalizing earlier with
  | nil => rw [List.append_nil, List.foldl_nil]
  | cons sidecar rest ih =>
    obtain ⟨hfirst, hrest⟩ := List.forall_mem_cons.mp hkind
    rw [List.foldl_cons, push_ofKind hfirst, ih hrest, List.append_assoc, List.singleton_append]

theorem pushAll_eq_collected {source : PayloadSource ω ε (BlobSidecars α β) α β}
    (collects : CollectsSidecars source) {isOsaka : Bool}
    {sidecars : List (BlobTransactionSidecarVariant α β)}
    (hkind : ∀ sidecar ∈ sidecars, sidecar.isEip7594 = isOsaka) :
    pushAll source sidecars = collected isOsaka sidecars := by
  unfold pushAll collected
  rw [collects.empty, collects.push]
  cases sidecars with
  | nil => rfl
  | cons sidecar rest =>
    obtain ⟨hfirst, hrest⟩ := List.forall_mem_cons.mp hkind
    rw [if_neg (List.cons_ne_nil _ _), List.foldl_cons, push_empty, hfirst,
      foldl_push_ofKind hrest, List.singleton_append]

variable {source : PayloadSource ω ε (BlobSidecars α β) α β} {env : PayloadEnv}
  {s : PayloadState ω (BlobSidecars α β) α β}

theorem PayloadInv.collected (inv : PayloadInv source env s) (collects : CollectsSidecars source) :
    s.blobSidecars = collected env.isOsaka (s.included.filterMap Inclusion.sidecar) := by
  rw [inv.sidecars]
  refine pushAll_eq_collected collects ?_
  intro sidecar hsidecar
  obtain ⟨i, hi, hfound⟩ := List.mem_filterMap.mp hsidecar
  exact (inv.own i hi).kind sidecar hfound

def NoBlobs (included : List (Inclusion α β)) : Prop :=
  ∀ i ∈ included, i.poolTx.toConsensus.blobVersionedHashes = none

theorem PayloadInv.noBlobs_iff (inv : PayloadInv source env s) :
    s.included.filterMap Inclusion.sidecar = [] ↔ NoBlobs s.included := by
  have hown : ∀ i ∈ s.included, (i.sidecar = none ↔
      i.poolTx.toConsensus.blobVersionedHashes = none) := by
    intro i hi
    have hsome := (inv.own i hi).isSome
    cases hsidecar : i.sidecar <;>
      cases hhashes : i.poolTx.toConsensus.blobVersionedHashes <;>
      simp [hsidecar, hhashes] at hsome ⊢
  rw [List.filterMap_eq_nil_iff]
  exact forall₂_congr hown

end Sidecars

section Better
variable {ω ε α β P₃ B₁ B₂ : Type} {source : PayloadSource ω ε (BlobSidecars α β) α β}
  {env : PayloadEnv} {fin : PayloadFinish ω ε α β} {payloadId : ℕ}
  {chainSpec : GnosisChainSpec} {timestamp : ℕ} {bestPayload : Option (GnosisBuiltPayload α β)}
  {payload : GnosisBuiltPayload α β}
  {s t : PayloadState ω (BlobSidecars α β) α β}

theorem executeStep_ne_done {w : ω} {poolTx : PoolTransaction}
    {sidecar : Option (BlobTransactionSidecarVariant α β)} :
    executeStep source env s w poolTx sidecar ≠ .done t := by
  intro h
  unfold executeStep at h
  repeat' split at h
  all_goals cases h

theorem payloadStep_done (h : payloadStep source env s = .done t) :
    t = s ∧ source.next s.world = none := by
  unfold payloadStep at h
  cases hnext : source.next s.world with
  | none =>
    rw [hnext] at h
    exact ⟨(LoopStep.done.inj h).symm, rfl⟩
  | some offer =>
    obtain ⟨poolTx, w⟩ := offer
    rw [hnext] at h
    change offerStep source env s w poolTx = .done t at h
    unfold offerStep at h
    split_ifs at h
    split at h
    · cases h
    · cases h
    · exact absurd h executeStep_ne_done

structure FinishedAs (env : PayloadEnv) (fin : PayloadFinish ω ε α β)
    (chainSpec : GnosisChainSpec) (timestamp : ℕ) (bestPayload : Option (GnosisBuiltPayload α β))
    (s : PayloadState ω (BlobSidecars α β) α β) (payload : GnosisBuiltPayload α β) : Prop where
  better : fin.isBetterPayload bestPayload payload.fees = true
  fees : payload.fees = s.totalFees
  sidecars : payload.sidecars = s.blobSidecars
  block : ∃ requests, fin.finish s.world = .ok (requests, payload.block) ∧
    payload.requests =
      if chainSpec.isPragueActiveAtTimestamp timestamp then some requests else none
  size : env.isOsaka = true → fin.rlpLength payload.block ≤ env.maxRlpBlockSize

theorem finishPayload_better
    (h : finishPayload env fin payloadId chainSpec timestamp bestPayload s =
      .ok (.better payload)) :
    FinishedAs env fin chainSpec timestamp bestPayload s payload := by
  unfold finishPayload at h
  cases hbetter : fin.isBetterPayload bestPayload s.totalFees with
  | false =>
    rw [hbetter] at h
    cases h
  | true =>
    rw [hbetter] at h
    cases hfinish : fin.finish s.world with
    | error e =>
      rw [hfinish] at h
      cases h
    | ok built =>
      obtain ⟨requests, sealedBlock⟩ := built
      rw [hfinish] at h
      dsimp only at h
      by_cases hsize : env.isOsaka ∧ env.maxRlpBlockSize < fin.rlpLength sealedBlock
      · rw [if_neg (by decide), if_pos hsize] at h
        cases h
      · rw [if_neg (by decide), if_neg hsize] at h
        cases h
        refine ⟨hbetter, rfl, rfl, ⟨requests, hfinish, rfl⟩, ?_⟩
        intro hosaka
        exact Nat.le_of_not_lt (fun hlt => hsize ⟨hosaka, hlt⟩)

theorem Builds.better {world : ω}
    {outcome : Except (PayloadBuilderError ε) (BuildOutcome α β)}
    (h : Builds source env fin payloadId chainSpec timestamp bestPayload world outcome)
    (hbetter : outcome = .ok (.better payload)) :
    ∃ s, LoopHead source env world s ∧ source.next s.world = none ∧
      FinishedAs env fin chainSpec timestamp bestPayload s payload := by
  cases h with
  | @returned s r head step => cases r <;> cases hbetter
  | @finished s t head step =>
    obtain ⟨rfl, hnext⟩ := payloadStep_done step
    exact ⟨t, head, hnext, finishPayload_better hbetter⟩

variable (convert : EnvelopeSource α β P₃ B₁ B₂)

def bundleV1Of (sidecars : List α) : B₁ :=
  if sidecars.isEmpty then convert.emptyBundleV1 else convert.blobsBundleV1 sidecars

def bundleV2Of (sidecars : List β) : B₂ :=
  if sidecars.isEmpty then convert.emptyBundleV2 else convert.blobsBundleV2 sidecars

theorem bundle_collected (isOsaka : Bool) {sidecars : List (BlobTransactionSidecarVariant α β)}
    (hkind : ∀ sidecar ∈ sidecars, sidecar.isEip7594 = isOsaka) :
    (isOsaka = false →
      bundleIntoV1 convert (collected isOsaka sidecars) = .ok (bundleV1Of convert
        (sidecars.filterMap BlobTransactionSidecarVariant.asEip4844)) ∧
      ((∃ bundle, bundleIntoV2 convert (collected isOsaka sidecars) = .ok bundle) ↔
        sidecars = [])) ∧
    (isOsaka = true →
      bundleIntoV2 convert (collected isOsaka sidecars) = .ok (bundleV2Of convert
        (sidecars.filterMap BlobTransactionSidecarVariant.asEip7594)) ∧
      ((∃ bundle, bundleIntoV1 convert (collected isOsaka sidecars) = .ok bundle) ↔
        sidecars = [])) := by
  cases sidecars with
  | nil =>
    refine ⟨fun _ => ⟨rfl, ?_⟩, fun _ => ⟨rfl, ?_⟩⟩
    · exact iff_of_true ⟨_, rfl⟩ rfl
    · exact iff_of_true ⟨_, rfl⟩ rfl
  | cons sidecar rest =>
    have hfirst := hkind sidecar (List.mem_cons_self ..)
    have hne : sidecar :: rest ≠ [] := List.cons_ne_nil _ _
    unfold collected
    rw [if_neg hne]
    refine ⟨?_, ?_⟩
    · rintro rfl
      cases sidecar with
      | Eip7594 sidecar => cases hfirst
      | Eip4844 sidecar =>
        refine ⟨rfl, iff_of_false ?_ hne⟩
        rintro ⟨bundle, h⟩
        cases h
    · rintro rfl
      cases sidecar with
      | Eip4844 sidecar => cases hfirst
      | Eip7594 sidecar =>
        refine ⟨rfl, iff_of_false ?_ hne⟩
        rintro ⟨bundle, h⟩
        cases h

theorem tryIntoV3_of_bundle {bundle : B₁} (h : bundleIntoV1 convert payload.sidecars = .ok bundle) :
    tryIntoV3 convert payload = .ok
      { executionPayload := convert.payloadV3 payload.block.hash payload.block.block
        blockValue := payload.fees
        shouldOverrideBuilder := false
        blobsBundle := bundle } := by
  unfold tryIntoV3
  rw [h]
  rfl

theorem tryIntoV4_of_bundle {bundle : B₁} (h : bundleIntoV1 convert payload.sidecars = .ok bundle) :
    tryIntoV4 convert payload = .ok
      { executionRequests := payload.requests.getD []
        envelopeInner :=
          { executionPayload := convert.payloadV3 payload.block.hash payload.block.block
            blockValue := payload.fees
            shouldOverrideBuilder := false
            blobsBundle := bundle } } := by
  unfold tryIntoV4
  rw [tryIntoV3_of_bundle convert h]
  rfl

theorem tryIntoV5_of_bundle {bundle : B₂} (h : bundleIntoV2 convert payload.sidecars = .ok bundle) :
    tryIntoV5 convert payload = .ok
      { executionPayload := convert.payloadV3 payload.block.hash payload.block.block
        blockValue := payload.fees
        shouldOverrideBuilder := false
        blobsBundle := bundle
        executionRequests := payload.requests.getD [] } := by
  unfold tryIntoV5
  rw [h]
  rfl

theorem tryInto_ok_iff :
    ((∃ envelope, tryIntoV3 convert payload = .ok envelope) ↔
      ∃ bundle, bundleIntoV1 convert payload.sidecars = .ok bundle) ∧
    ((∃ envelope, tryIntoV4 convert payload = .ok envelope) ↔
      ∃ bundle, bundleIntoV1 convert payload.sidecars = .ok bundle) ∧
    ((∃ envelope, tryIntoV5 convert payload = .ok envelope) ↔
      ∃ bundle, bundleIntoV2 convert payload.sidecars = .ok bundle) := by
  have hV3 : ∀ envelope, tryIntoV3 convert payload = .ok envelope →
      ∃ bundle, bundleIntoV1 convert payload.sidecars = .ok bundle := by
    intro envelope h
    obtain ⟨bundle, hbundle, -⟩ := except_bind_ok.mp h
    exact ⟨bundle, hbundle⟩
  refine ⟨⟨?_, ?_⟩, ⟨?_, ?_⟩, ⟨?_, ?_⟩⟩
  · rintro ⟨envelope, h⟩
    exact hV3 envelope h
  · rintro ⟨bundle, h⟩
    exact ⟨_, tryIntoV3_of_bundle convert h⟩
  · rintro ⟨envelope, h⟩
    obtain ⟨inner, hinner, -⟩ := except_bind_ok.mp h
    exact hV3 inner hinner
  · rintro ⟨bundle, h⟩
    exact ⟨_, tryIntoV4_of_bundle convert h⟩
  · rintro ⟨envelope, h⟩
    obtain ⟨bundle, hbundle, -⟩ := except_bind_ok.mp h
    exact ⟨bundle, hbundle⟩
  · rintro ⟨bundle, h⟩
    exact ⟨_, tryIntoV5_of_bundle convert h⟩

def sidecarsV1 (included : List (Inclusion α β)) : List α :=
  (included.filterMap Inclusion.sidecar).filterMap BlobTransactionSidecarVariant.asEip4844

def sidecarsV2 (included : List (Inclusion α β)) : List β :=
  (included.filterMap Inclusion.sidecar).filterMap BlobTransactionSidecarVariant.asEip7594

/-- The envelopes of the own fork carry the sidecars of all included blob transactions in order; the
ones of the other fork fail as soon as there is a blob transaction. -/
structure EnvelopesOf (isOsaka : Bool) (payload : GnosisBuiltPayload α β)
    (included : List (Inclusion α β)) : Prop where
  beforeOsaka : isOsaka = false →
    tryIntoV3 convert payload = .ok ⟨convert.payloadV3 payload.block.hash payload.block.block,
      payload.fees, bundleV1Of convert (sidecarsV1 included), false⟩ ∧
    tryIntoV4 convert payload = .ok ⟨⟨convert.payloadV3 payload.block.hash payload.block.block,
      payload.fees, bundleV1Of convert (sidecarsV1 included), false⟩, payload.requests.getD []⟩ ∧
    ((∃ envelope, tryIntoV5 convert payload = .ok envelope) ↔ NoBlobs included)
  osaka : isOsaka = true →
    tryIntoV5 convert payload = .ok ⟨convert.payloadV3 payload.block.hash payload.block.block,
      payload.fees, bundleV2Of convert (sidecarsV2 included), false, payload.requests.getD []⟩ ∧
    ((∃ envelope, tryIntoV3 convert payload = .ok envelope) ↔ NoBlobs included) ∧
    ((∃ envelope, tryIntoV4 convert payload = .ok envelope) ↔ NoBlobs included)

theorem PayloadInv.envelopes (inv : PayloadInv source env s) (collects : CollectsSidecars source)
    (hsidecars : payload.sidecars = s.blobSidecars) :
    EnvelopesOf convert env.isOsaka payload s.included := by
  have hkind : ∀ sidecar ∈ s.included.filterMap Inclusion.sidecar,
      sidecar.isEip7594 = env.isOsaka := by
    intro sidecar hsidecar
    obtain ⟨i, hi, hfound⟩ := List.mem_filterMap.mp hsidecar
    exact (inv.own i hi).kind sidecar hfound
  obtain ⟨hbefore, hosaka⟩ := bundle_collected convert env.isOsaka hkind
  rw [← inv.collected collects, ← hsidecars, inv.noBlobs_iff] at hbefore hosaka
  obtain ⟨hV3, hV4, hV5⟩ := @tryInto_ok_iff _ _ _ _ _ payload convert
  refine ⟨?_, ?_⟩
  · intro hfork
    obtain ⟨hbundle, hother⟩ := hbefore hfork
    exact ⟨tryIntoV3_of_bundle convert hbundle, tryIntoV4_of_bundle convert hbundle,
      hV5.trans hother⟩
  · intro hfork
    obtain ⟨hbundle, hother⟩ := hosaka hfork
    exact ⟨tryIntoV5_of_bundle convert hbundle, hV3.trans hother, hV4.trans hother⟩

theorem built_payload_envelopes (laws : PayloadLaws source env) (collects : CollectsSidecars source)
    {world : ω}
    (h : Builds source env fin payloadId chainSpec timestamp bestPayload world
      (.ok (.better payload))) :
    ∃ s, LoopHead source env world s ∧ source.next s.world = none ∧
      fin.isBetterPayload bestPayload payload.fees = true ∧
      payload.fees = includedTotal (fun i => i.tip env * i.gasUsed) s.included ∧
      (∃ requests, fin.finish s.world = .ok (requests, payload.block) ∧
        payload.requests =
          if chainSpec.isPragueActiveAtTimestamp timestamp then some requests else none) ∧
      (env.isOsaka = true → fin.rlpLength payload.block ≤ env.maxRlpBlockSize) ∧
      EnvelopesOf convert env.isOsaka payload s.included := by
  obtain ⟨s, hhead, hnext, hfinished⟩ := h.better rfl
  have inv := hhead.inv laws
  exact ⟨s, hhead, hnext, hfinished.better, hfinished.fees.trans inv.fees, hfinished.block,
    hfinished.size, inv.envelopes convert collects hfinished.sidecars⟩

end Better

section Examples

def transferFinish : PayloadFinish (List Bool) Unit Unit Unit where
  isBetterPayload := fun _ _ => true
  finish := fun _ => .ok ([], ⟨⟨default, [], none⟩, 0⟩)
  rlpLength := fun _ => 600

def countingEnvelopes : EnvelopeSource Unit Unit Unit ℕ ℕ where
  payloadV3 := fun _ _ => ()
  emptyBundleV1 := 0
  blobsBundleV1 := List.length
  emptyBundleV2 := 0
  blobsBundleV2 := List.length

theorem transferQueue_collects : CollectsSidecars transferQueue := ⟨rfl, rfl⟩

def transferPayload : GnosisBuiltPayload Unit Unit :=
  ⟨1, ⟨⟨default, [], none⟩, 0⟩, 168000, .Eip4844 [()], none⟩

theorem transferPayload_builds : Builds transferQueue cancunEnv transferFinish 1 mergeSpec 60 none
    [true, true, false] (.ok (.better transferPayload)) := by
  have hfirst : payloadStep transferQueue cancunEnv
      (initialPayloadState transferQueue [true, true, false]) = .next _ := rfl
  have hsecond : payloadStep transferQueue cancunEnv (includeTransaction transferQueue cancunEnv
      (initialPayloadState transferQueue [true, true, false]) [true, false] blobTransfer
      (some (.Eip4844 ())) 21000 3) = .next _ := rfl
  have hstart : LoopHead transferQueue cancunEnv [true, true, false] _ := Relation.ReflTransGen.refl
  have hhead := (hstart.next hfirst).next hsecond
  exact Builds.finished hhead rfl

/-- Of the queue a blob transfer and a plain one are included; the sidecar is in the V3 envelope. -/
theorem built_payload_envelopes_queue :
    PayloadLaws transferQueue cancunEnv ∧ CollectsSidecars transferQueue ∧
      Builds transferQueue cancunEnv transferFinish 1 mergeSpec 60 none [true, true, false]
        (.ok (.better transferPayload)) ∧
      ∃ s, LoopHead transferQueue cancunEnv [true, true, false] s ∧
        EnvelopesOf countingEnvelopes false transferPayload s.included := by
  obtain ⟨s, hhead, -, -, -, -, -, henvelopes⟩ := built_payload_envelopes countingEnvelopes
    transferQueue_laws transferQueue_collects transferPayload_builds
  exact ⟨transferQueue_laws, transferQueue_collects, transferPayload_builds, s, hhead, henvelopes⟩

end Examples

end RethGnosis
