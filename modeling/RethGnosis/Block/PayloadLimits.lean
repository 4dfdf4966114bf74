import RethGnosis.Block.Payload

set_option autoImplicit false

/-!
# The limits of a payload

What the accumulators of the loop say about the transactions in the builder, at the head of
every iteration.
-/
namespace RethGnosis

section Limits
variable {ω ε γ α β : Type} (source : PayloadSource ω ε γ α β) (env : PayloadEnv)
  (contents : γ → List (BlobTransactionSidecarVariant α β))

def Offered (poolTx : PoolTransaction) : Prop := ∃ w w', source.next w = some (poolTx, w')

/-- An execution uses at most the gas limit, and the `u64` and `usize` sums do not overflow. -/
structure PayloadLaws : Prop where
  gasUsed : ∀ poolTx, Offered source poolTx → ∀ w w' gasUsed,
    source.executeTransaction poolTx.toConsensus w = (.ok gasUsed, w') → gasUsed ≤ poolTx.gasLimit
  gasSum : ∀ poolTx, Offered source poolTx → env.blockGasLimit + poolTx.gasLimit < 2 ^ 64
  blobSum : ∀ poolTx, Offered source poolTx → ∀ hashes,
    poolTx.toConsensus.blobVersionedHashes = some hashes →
      env.maxBlobCount + hashes.length < 2 ^ 64
  sizeSum : ∀ poolTx, Offered source poolTx → env.maxRlpBlockSize +
    poolTx.toConsensus.length + env.withdrawalsRlpLength + 1024 < 2 ^ 64

def pushAll (sidecars : List (BlobTransactionSidecarVariant α β)) : γ :=
  sidecars.foldl source.pushSidecarVariant source.emptySidecars

def SidecarLaw : Prop := ∀ (kind : Bool) (sidecars : List (BlobTransactionSidecarVariant α β)),
  (∀ sidecar ∈ sidecars, sidecar.isEip7594 = kind) →
    contents (pushAll source sidecars) = sidecars

def Inclusion.blobCount (i : Inclusion α β) : ℕ :=
  (i.poolTx.toConsensus.blobVersionedHashes.map List.length).getD 0

def Inclusion.tip (i : Inclusion α β) : ℕ :=
  ((i.poolTx.toConsensus.effectiveTipPerGas env.baseFee).map BitVec.toNat).getD 0

def Inclusion.length (i : Inclusion α β) : ℕ := i.poolTx.toConsensus.length

def includedTotal (f : Inclusion α β → ℕ) (included : List (Inclusion α β)) : ℕ :=
  (included.map f).sum

/-- The sidecar of an included transaction: of the kind of the fork, as the pool had it, and there
for blob transactions only. -/
structure OwnSidecar (i : Inclusion α β) : Prop where
  isSome : i.sidecar.isSome = i.poolTx.toConsensus.blobVersionedHashes.isSome
  kind : ∀ sidecar, i.sidecar = some sidecar → sidecar.isEip7594 = env.isOsaka
  fetched : ∀ sidecar, i.sidecar = some sidecar →
    ∃ w, source.getBlob w i.poolTx.toConsensus.hash = .ok (some sidecar)

structure PayloadInv (s : PayloadState ω γ α β) : Prop where
  fits : ∀ before i after, s.included = before ++ i :: after →
    includedTotal Inclusion.gasUsed before + i.poolTx.gasLimit ≤ env.blockGasLimit
  gas : s.cumulativeGasUsed = includedTotal Inclusion.gasUsed s.included
  gasLimit : s.cumulativeGasUsed ≤ env.blockGasLimit
  blobs : s.blockBlobCount = includedTotal Inclusion.blobCount s.included
  blobLimit : s.blockBlobCount ≤ env.maxBlobCount
  own : ∀ i ∈ s.included, OwnSidecar source env i
  sidecars : s.blobSidecars = pushAll source (s.included.filterMap Inclusion.sidecar)
  fees : s.totalFees = includedTotal (fun i => i.tip env * i.gasUsed) s.included
  size : env.isOsaka = true →
    s.blockTransactionsRlpLength = includedTotal Inclusion.length s.included ∧
    (s.included ≠ [] ∨ env.withdrawalsRlpLength + 1024 ≤ env.maxRlpBlockSize →
      s.blockTransactionsRlpLength + env.withdrawalsRlpLength + 1024 ≤ env.maxRlpBlockSize)

structure Includes (s : PayloadState ω γ α β) (w : ω) (i : Inclusion α β)
    (minerFee : BitVec 128) : Prop where
  next : source.next s.world = some (i.poolTx, w)
  gas : ¬ env.blockGasLimit < (s.cumulativeGasUsed + i.poolTx.gasLimit) % 2 ^ 64
  size : env.isOsaka = true →
    ¬ env.maxRlpBlockSize < estimatedBlockSizeWithTx env s i.poolTx.toConsensus
  sidecar : blobTxSidecar source env s.blockBlobCount w i.poolTx.toConsensus = .ok (.ok i.sidecar)
  executed : ∃ w', source.executeTransaction i.poolTx.toConsensus w = (.ok i.gasUsed, w')
  tip : i.poolTx.toConsensus.effectiveTipPerGas env.baseFee = some minerFee

variable {source env contents} {s t : PayloadState ω γ α β}

theorem executeStep_next {w : ω} {poolTx : PoolTransaction}
    {sidecar : Option (BlobTransactionSidecarVariant α β)}
    (h : executeStep source env s w poolTx sidecar = .next t) :
    (∃ w', t = skipTransaction s w') ∨ ∃ w' gasUsed minerFee,
      source.executeTransaction poolTx.toConsensus w = (.ok gasUsed, w') ∧
      poolTx.toConsensus.effectiveTipPerGas env.baseFee = some minerFee ∧
      t = includeTransaction source env s w' poolTx sidecar gasUsed minerFee.toNat := by
  unfold executeStep at h
  split at h
  · split_ifs at h
    · exact .inl ⟨_, (LoopStep.next.inj h).symm⟩
    · exact .inl ⟨_, (LoopStep.next.inj h).symm⟩
  · cases h
  · rename_i gasUsed w' hexecuted
    cases htip : poolTx.toConsensus.effectiveTipPerGas env.baseFee with
    | none =>
      rw [htip] at h
      cases h
    | some minerFee =>
      rw [htip] at h
      exact .inr ⟨w', gasUsed, minerFee, hexecuted, rfl, (LoopStep.next.inj h).symm⟩

theorem LoopHead.next {world : ω} (h : LoopHead source env world s)
    (hstep : payloadStep source env s = .next t) : LoopHead source env world t :=
  Relation.ReflTransGen.tail h hstep

theorem payloadStep_next (h : payloadStep source env s = .next t) :
    (∃ w, t = skipTransaction s w) ∨ ∃ w w' i minerFee, Includes source env s w i minerFee ∧
      t = includeTransaction source env s w' i.poolTx i.sidecar i.gasUsed minerFee.toNat := by
  unfold payloadStep at h
  cases hnext : source.next s.world with
  | none =>
    rw [hnext] at h
    cases h
  | some offer =>
    obtain ⟨poolTx, w⟩ := offer
    rw [hnext] at h
    change offerStep source env s w poolTx = .next t at h
    unfold offerStep at h
    split_ifs at h with hgas hcancelled hsize
    · exact .inl ⟨_, (LoopStep.next.inj h).symm⟩
    · exact .inl ⟨_, (LoopStep.next.inj h).symm⟩
    · cases hsidecar : blobTxSidecar source env s.blockBlobCount w poolTx.toConsensus with
      | error e =>
        rw [hsidecar] at h
        cases h
      | ok found =>
        rw [hsidecar] at h
        cases found with
        | error error => exact .inl ⟨_, (LoopStep.next.inj h).symm⟩
        | ok sidecar =>
          rcases executeStep_next h with hskip | ⟨w', gasUsed, minerFee, hexecuted, htip, ht⟩
          · exact .inl hskip
          · refine .inr ⟨w, w', ⟨poolTx, gasUsed, sidecar⟩, minerFee, ?_, ht⟩
            exact ⟨hnext, hgas, fun hosaka hlarge => hsize ⟨hosaka, hlarge⟩, hsidecar,
              ⟨w', hexecuted⟩, htip⟩

theorem includedTotal_append_singleton (f : Inclusion α β → ℕ) (included : List (Inclusion α β))
    (i : Inclusion α β) : includedTotal f (included ++ [i]) = includedTotal f included + f i := by
  unfold includedTotal
  rw [List.map_append, List.sum_append, List.map_singleton, List.sum_singleton]

theorem tip_lt (i : Inclusion α β) : i.tip env < 2 ^ 128 := by
  unfold Inclusion.tip
  cases i.poolTx.toConsensus.effectiveTipPerGas env.baseFee with
  | none => exact Nat.two_pow_pos 128
  | some minerFee => exact minerFee.isLt

variable (env) in
/-- The fees are far from 2^256 as long as the gas is a `u64`. -/
theorem includedTotal_fees_le (included : List (Inclusion α β)) :
    includedTotal (fun i => i.tip env * i.gasUsed) included ≤
      2 ^ 128 * includedTotal Inclusion.gasUsed included := by
  induction included with
  | nil => exact Nat.zero_le _
  | cons i rest ih =>
    have hfirst : i.tip env * i.gasUsed ≤ 2 ^ 128 * i.gasUsed :=
      Nat.mul_le_mul_right i.gasUsed (Nat.le_of_lt (tip_lt i))
    unfold includedTotal at *
    rw [List.map_cons, List.sum_cons, List.map_cons, List.sum_cons, Nat.mul_add]
    exact Nat.add_le_add hfirst ih

theorem sidecarFor_ok {w : ω} {hash : B256} {sidecar : BlobTransactionSidecarVariant α β}
    (h : sidecarFor source env w hash = .ok (.ok sidecar)) :
    sidecar.isEip7594 = env.isOsaka ∧ source.getBlob w hash = .ok (some sidecar) := by
  unfold sidecarFor at h
  cases hblob : source.getBlob w hash with
  | error e =>
    rw [hblob] at h
    cases h
  | ok found =>
    rw [hblob] at h
    cases found with
    | none => cases h
    | some fetched =>
      dsimp only at h
      cases hosaka : env.isOsaka with
      | true =>
        rw [hosaka, if_pos rfl] at h
        cases fetched <;> cases h
        exact ⟨rfl, rfl⟩
      | false =>
        rw [hosaka, if_neg Bool.false_ne_true] at h
        cases fetched <;> cases h
        exact ⟨rfl, rfl⟩

theorem blobTxSidecar_ok {blockBlobCount : ℕ} {w : ω} {tx : ConsensusTransaction}
    {sidecar : Option (BlobTransactionSidecarVariant α β)}
    (h : blobTxSidecar source env blockBlobCount w tx = .ok (.ok sidecar)) :
    sidecar.isSome = tx.blobVersionedHashes.isSome ∧
      (∀ found, sidecar = some found → found.isEip7594 = env.isOsaka ∧
        source.getBlob w tx.hash = .ok (some found)) ∧
      ∀ hashes, tx.blobVersionedHashes = some hashes →
        ¬ env.maxBlobCount < (blockBlobCount + hashes.length) % 2 ^ 64 := by
  unfold blobTxSidecar at h
  cases hhashes : tx.blobVersionedHashes with
  | none =>
    rw [hhashes] at h
    cases h
    refine ⟨rfl, ?_, ?_⟩
    · intro found hfound
      cases hfound
    · intro hashes hsome
      cases hsome
  | some hashes =>
    rw [hhashes] at h
    dsimp only at h
    by_cases hmany : env.maxBlobCount < (blockBlobCount + hashes.length) % 2 ^ 64
    · rw [if_pos hmany] at h
      cases h
    rw [if_neg hmany] at h
    cases hsidecar : sidecarFor source env w tx.hash with
    | error e =>
      rw [hsidecar] at h
      cases h
    | ok result =>
      rw [hsidecar] at h
      cases result with
      | error error => cases h
      | ok found =>
        cases h
        refine ⟨rfl, ?_, ?_⟩
        · intro sidecar hsome
          cases hsome
          exact sidecarFor_ok hsidecar
        · intro others hsome
          cases hsome
          exact hmany

theorem payloadInv_initial (world : ω) :
    PayloadInv source env (initialPayloadState source world) := by
  constructor
  · intro before i after h
    cases before <;> cases h
  · rfl
  · exact Nat.zero_le _
  · rfl
  · exact Nat.zero_le _
  · intro i hi
    cases hi
  · rfl
  · rfl
  · intro hosaka
    refine ⟨rfl, ?_⟩
    rintro (hne | hsmall)
    · exact absurd rfl hne
    · change 0 + env.withdrawalsRlpLength + 1024 ≤ env.maxRlpBlockSize
      omega

theorem PayloadInv.skip (inv : PayloadInv source env s) (w : ω) :
    PayloadInv source env (skipTransaction s w) :=
  ⟨inv.fits, inv.gas, inv.gasLimit, inv.blobs, inv.blobLimit, inv.own, inv.sidecars, inv.fees,
    inv.size⟩

section Include
variable {w w' : ω} {i : Inclusion α β} {minerFee : BitVec 128}
  (laws : PayloadLaws source env) (inv : PayloadInv source env s)
  (h : Includes source env s w i minerFee)
include laws inv h

theorem Includes.gas_le : s.cumulativeGasUsed + i.poolTx.gasLimit ≤ env.blockGasLimit ∧
    i.gasUsed ≤ i.poolTx.gasLimit ∧ env.blockGasLimit < 2 ^ 64 := by
  have hoffered : Offered source i.poolTx := ⟨s.world, w, h.next⟩
  obtain ⟨w', hexecuted⟩ := h.executed
  have hsum := laws.gasSum i.poolTx hoffered
  have hlimit := inv.gasLimit
  have hgas := h.gas
  rw [Nat.mod_eq_of_lt (by omega)] at hgas
  exact ⟨by omega, laws.gasUsed i.poolTx hoffered w w' i.gasUsed hexecuted, by omega⟩

theorem Includes.blobCount_eq : blobCountWithTx s i.poolTx.toConsensus =
    s.blockBlobCount + i.blobCount ∧ s.blockBlobCount + i.blobCount ≤ env.maxBlobCount := by
  have hlimit := inv.blobLimit
  unfold blobCountWithTx Inclusion.blobCount
  cases hhashes : i.poolTx.toConsensus.blobVersionedHashes with
  | none => exact ⟨rfl, hlimit⟩
  | some hashes =>
    have hsum := laws.blobSum i.poolTx ⟨s.world, w, h.next⟩ hashes hhashes
    have hfits := (blobTxSidecar_ok h.sidecar).2.2 hashes hhashes
    have hmod : (s.blockBlobCount + hashes.length) % 2 ^ 64 = s.blockBlobCount + hashes.length :=
      Nat.mod_eq_of_lt (by omega)
    rw [hmod] at hfits
    exact ⟨hmod, Nat.le_of_not_lt hfits⟩

theorem Includes.fees_lt :
    s.totalFees + minerFee.toNat * i.gasUsed < 2 ^ 256 ∧ i.tip env = minerFee.toNat := by
  have htip : i.tip env = minerFee.toNat := by
    unfold Inclusion.tip
    rw [h.tip]
    rfl
  obtain ⟨hfits, hused, hlimit⟩ := h.gas_le laws inv
  have hbefore := includedTotal_fees_le env s.included
  have hfee : minerFee.toNat * i.gasUsed ≤ 2 ^ 128 * i.gasUsed :=
    Nat.mul_le_mul_right i.gasUsed (Nat.le_of_lt minerFee.isLt)
  rw [← inv.fees, ← inv.gas] at hbefore
  have hsum : s.totalFees + minerFee.toNat * i.gasUsed ≤
      2 ^ 128 * (s.cumulativeGasUsed + i.gasUsed) := by
    rw [Nat.mul_add]
    exact Nat.add_le_add hbefore hfee
  have hbound : 2 ^ 128 * (s.cumulativeGasUsed + i.gasUsed) < 2 ^ 256 := by
    omega
  exact ⟨Nat.lt_of_le_of_lt hsum hbound, htip⟩

theorem Includes.size_le (hosaka : env.isOsaka = true) :
    s.blockTransactionsRlpLength + i.poolTx.toConsensus.length + env.withdrawalsRlpLength + 1024 ≤
      env.maxRlpBlockSize ∧ env.maxRlpBlockSize < 2 ^ 64 := by
  obtain ⟨hlength, hfits⟩ := inv.size hosaka
  have hsum := laws.sizeSum i.poolTx ⟨s.world, w, h.next⟩
  have hsize := h.size hosaka
  -- Before the first inclusion nothing is known of the withdrawals, but the length is 0.
  have hbefore : s.blockTransactionsRlpLength ≤ env.maxRlpBlockSize := by
    by_cases hnone : s.included = []
    · rw [hlength, hnone]
      exact Nat.zero_le _
    · have hle := hfits (.inl hnone)
      omega
  unfold estimatedBlockSizeWithTx at hsize
  rw [Nat.mod_eq_of_lt (by omega)] at hsize
  exact ⟨by omega, by omega⟩

omit laws h in
theorem pushSidecar_eq : pushSidecar source s i.sidecar =
    pushAll source ((s.included ++ [i]).filterMap Inclusion.sidecar) := by
  unfold pushSidecar
  cases hsidecar : i.sidecar with
  | none =>
    rw [List.filterMap_append, List.filterMap_cons_none hsidecar, List.filterMap_nil,
      List.append_nil]
    exact inv.sidecars
  | some sidecar =>
    rw [List.filterMap_append, List.filterMap_cons_some hsidecar, List.filterMap_nil, pushAll,
      List.foldl_append, inv.sidecars]
    rfl

theorem PayloadInv.include (w' : ω) :
    PayloadInv source env
      (includeTransaction source env s w' i.poolTx i.sidecar i.gasUsed minerFee.toNat) := by
  obtain ⟨hfits, hused, hlimit⟩ := h.gas_le laws inv
  obtain ⟨hblobs, hblobLimit⟩ := h.blobCount_eq laws inv
  obtain ⟨hfees, htip⟩ := h.fees_lt laws inv
  have hgas : (s.cumulativeGasUsed + i.gasUsed) % 2 ^ 64 = s.cumulativeGasUsed + i.gasUsed :=
    Nat.mod_eq_of_lt (by omega)
  constructor
  · intro before j after hsplit
    change s.included ++ [i] = before ++ j :: after at hsplit
    rcases List.eq_nil_or_concat' after with rfl | ⟨middle, last, rfl⟩
    · obtain ⟨rfl, rfl⟩ := List.append_singleton_inj.mp hsplit
      rw [← inv.gas]
      exact hfits
    · rw [← List.cons_append, ← List.append_assoc] at hsplit
      obtain ⟨hbefore, -⟩ := List.append_singleton_inj.mp hsplit
      exact inv.fits before j middle hbefore
  · change (s.cumulativeGasUsed + i.gasUsed) % 2 ^ 64 = includedTotal _ (s.included ++ [i])
    rw [hgas, includedTotal_append_singleton, ← inv.gas]
  · change (s.cumulativeGasUsed + i.gasUsed) % 2 ^ 64 ≤ env.blockGasLimit
    omega
  · change blobCountWithTx s i.poolTx.toConsensus = includedTotal _ (s.included ++ [i])
    rw [hblobs, includedTotal_append_singleton, ← inv.blobs]
  · change blobCountWithTx s i.poolTx.toConsensus ≤ env.maxBlobCount
    rw [hblobs]
    exact hblobLimit
  · intro j hj
    rcases List.mem_append.mp hj with hj | hj
    · exact inv.own j hj
    · obtain rfl := List.mem_singleton.mp hj
      obtain ⟨hsome, hfound, -⟩ := blobTxSidecar_ok h.sidecar
      exact ⟨hsome, fun sidecar hsidecar => (hfound sidecar hsidecar).1,
        fun sidecar hsidecar => ⟨w, (hfound sidecar hsidecar).2⟩⟩
  · exact pushSidecar_eq inv
  · change (s.totalFees + minerFee.toNat * i.gasUsed) % 2 ^ 256 =
      includedTotal _ (s.included ++ [i])
    rw [Nat.mod_eq_of_lt hfees, includedTotal_append_singleton, ← inv.fees, htip]
  · intro hosaka
    obtain ⟨hsize, hmax⟩ := h.size_le laws inv hosaka
    have hlength : (s.blockTransactionsRlpLength + i.poolTx.toConsensus.length) % 2 ^ 64 =
        s.blockTransactionsRlpLength + i.poolTx.toConsensus.length := Nat.mod_eq_of_lt (by omega)
    change (s.blockTransactionsRlpLength + i.poolTx.toConsensus.length) % 2 ^ 64 =
        includedTotal _ (s.included ++ [i]) ∧
      (_ → (s.blockTransactionsRlpLength + i.poolTx.toConsensus.length) % 2 ^ 64 +
        env.withdrawalsRlpLength + 1024 ≤ env.maxRlpBlockSize)
    rw [hlength, includedTotal_append_singleton, ← (inv.size hosaka).1]
    exact ⟨rfl, fun _ => hsize⟩

end Include

theorem PayloadInv.step (laws : PayloadLaws source env) (inv : PayloadInv source env s)
    (h : payloadStep source env s = .next t) : PayloadInv source env t := by
  rcases payloadStep_next h with ⟨w, rfl⟩ | ⟨w, w', i, minerFee, hincludes, rfl⟩
  · exact inv.skip w
  · exact inv.include laws hincludes w'

theorem LoopHead.inv (laws : PayloadLaws source env) {world : ω}
    (h : LoopHead source env world s) : PayloadInv source env s := by
  induction h with
  | refl => exact payloadInv_initial world
  | tail _ hstep ih => exact ih.step laws hstep

/-- At the head of every iteration the accumulators are what the included transactions make them
and within the limits. The size is so from the first inclusion on, or from the start if the
withdrawals leave room. -/
theorem payload_limits (laws : PayloadLaws source env) (sidecarLaw : SidecarLaw source contents)
    {world : ω} (h : LoopHead source env world s) :
    PayloadInv source env s ∧
      contents s.blobSidecars = s.included.filterMap Inclusion.sidecar := by
  have inv := h.inv laws
  refine ⟨inv, ?_⟩
  rw [inv.sidecars]
  apply sidecarLaw env.isOsaka
  intro sidecar hsidecar
  obtain ⟨i, hi, hfound⟩ := List.mem_filterMap.mp hsidecar
  exact (inv.own i hi).kind sidecar hfound

end Limits

section Examples

inductive BlobSidecars (α β : Type) where
  | Empty
  | Eip4844 (sidecars : List α)
  | Eip7594 (sidecars : List β)

/-- A sidecar of the other kind is ignored. -/
def BlobSidecars.pushSidecarVariant {α β : Type} :
    BlobSidecars α β → BlobTransactionSidecarVariant α β → BlobSidecars α β
  | .Empty, .Eip4844 sidecar => .Eip4844 [sidecar]
  | .Empty, .Eip7594 sidecar => .Eip7594 [sidecar]
  | .Eip4844 sidecars, .Eip4844 sidecar => .Eip4844 (sidecars ++ [sidecar])
  | .Eip7594 sidecars, .Eip7594 sidecar => .Eip7594 (sidecars ++ [sidecar])
  | .Eip4844 sidecars, .Eip7594 _ => .Eip4844 sidecars
  | .Eip7594 sidecars, .Eip4844 _ => .Eip7594 sidecars

def BlobSidecars.contents {α β : Type} :
    BlobSidecars α β → List (BlobTransactionSidecarVariant α β)
  | .Empty => []
  | .Eip4844 sidecars => sidecars.map .Eip4844
  | .Eip7594 sidecars => sidecars.map .Eip7594

def blobTransfer : PoolTransaction := ⟨21000, ⟨1#256, 200, some [3#256, 4#256], fun _ => some 3⟩⟩

def transfer : PoolTransaction := ⟨21000, ⟨2#256, 110, none, fun _ => some 5⟩⟩

def transferQueue : PayloadSource (List Bool) Unit (BlobSidecars Unit Unit) Unit Unit where
  next
    | [] => none
    | blobs :: rest => some (if blobs then blobTransfer else transfer, rest)
  markInvalid _ _ queue := queue
  skipBlobs queue := queue.filter (fun blobs => !blobs)
  isCancelled _ := false
  getBlob _ _ := .ok (some (.Eip4844 ()))
  executeTransaction _ queue := (.ok 21000, queue)
  emptySidecars := .Empty
  pushSidecarVariant := BlobSidecars.pushSidecarVariant

def cancunEnv : PayloadEnv := ⟨17000000, 7, none, some ⟨1, 2, 1112826, 1000000000, 2, 0⟩, false,
  none, 8388608⟩

def fullEnv : PayloadEnv := ⟨17000000, 7, none, some ⟨1, 2, 1112826, 1000000000, 2, 0⟩, true,
  some 8387585, 8388608⟩

def BlobSidecars.admits {α β : Type} (kind : Bool) : BlobSidecars α β → Prop
  | .Empty => True
  | .Eip4844 _ => kind = false
  | .Eip7594 _ => kind = true

theorem BlobSidecars.push_contents {α β : Type} {kind : Bool} {sidecars : BlobSidecars α β}
    {sidecar : BlobTransactionSidecarVariant α β} (h : sidecars.admits kind)
    (hkind : sidecar.isEip7594 = kind) :
    (sidecars.pushSidecarVariant sidecar).contents = sidecars.contents ++ [sidecar] ∧
      (sidecars.pushSidecarVariant sidecar).admits kind := by
  cases sidecars with
  | Empty => cases sidecar <;> exact ⟨rfl, hkind.symm⟩
  | Eip4844 earlier =>
    cases sidecar with
    | Eip4844 sidecar => exact ⟨List.map_append, h⟩
    | Eip7594 sidecar => exact absurd (hkind.trans h) Bool.true_eq_false.mp
  | Eip7594 earlier =>
    cases sidecar with
    | Eip4844 sidecar => exact absurd (hkind.trans h) Bool.false_ne_true
    | Eip7594 sidecar => exact ⟨List.map_append, h⟩

theorem transferQueue_sidecars : SidecarLaw transferQueue BlobSidecars.contents := by
  have hpush : ∀ (kind : Bool) (sidecars : List (BlobTransactionSidecarVariant Unit Unit))
      (earlier : BlobSidecars Unit Unit), earlier.admits kind →
      (∀ sidecar ∈ sidecars, sidecar.isEip7594 = kind) →
      (sidecars.foldl BlobSidecars.pushSidecarVariant earlier).contents =
        earlier.contents ++ sidecars := by
    intro kind sidecars
    induction sidecars with
    | nil => exact fun earlier _ _ => (List.append_nil _).symm
    | cons sidecar rest ih =>
      intro earlier h hkind
      obtain ⟨hfirst, hrest⟩ := List.forall_mem_cons.mp hkind
      obtain ⟨hcontents, hadmits⟩ := BlobSidecars.push_contents h hfirst
      rw [List.foldl_cons, ih _ hadmits hrest, hcontents, List.append_assoc]
      rfl
  exact fun kind sidecars hkind => hpush kind sidecars .Empty trivial hkind

theorem transferQueue_laws : PayloadLaws transferQueue cancunEnv := by
  have hoffered : ∀ poolTx, Offered transferQueue poolTx →
      poolTx = blobTransfer ∨ poolTx = transfer := by
    rintro poolTx ⟨queue, queue', hnext⟩
    cases queue with
    | nil => cases hnext
    | cons blobs rest => cases blobs <;> cases hnext <;> simp
  constructor
  · rintro poolTx hpool w w' gasUsed hexecuted
    cases hexecuted
    rcases hoffered poolTx hpool with rfl | rfl <;> decide
  · intro poolTx hpool
    rcases hoffered poolTx hpool with rfl | rfl <;> decide
  · intro poolTx hpool hashes hsome
    rcases hoffered poolTx hpool with rfl | rfl <;> cases hsome
    decide
  · intro poolTx hpool
    rcases hoffered poolTx hpool with rfl | rfl <;> decide

/-- The second blob transaction of the queue is dropped when the first has filled the block. -/
theorem payload_limits_queue : ∃ s, LoopHead transferQueue cancunEnv [true, true, false] s ∧
    s.included.length = 2 ∧ PayloadInv transferQueue cancunEnv s ∧
      s.blobSidecars.contents = s.included.filterMap Inclusion.sidecar := by
  have hfirst : payloadStep transferQueue cancunEnv
      (initialPayloadState transferQueue [true, true, false]) =
        .next (includeTransaction transferQueue cancunEnv
          (initialPayloadState transferQueue [true, true, false]) [true, false] blobTransfer
          (some (.Eip4844 ())) 21000 3) := rfl
  have hsecond : payloadStep transferQueue cancunEnv (includeTransaction transferQueue cancunEnv
      (initialPayloadState transferQueue [true, true, false]) [true, false] blobTransfer
      (some (.Eip4844 ())) 21000 3) = .next _ := rfl
  have hstart : LoopHead transferQueue cancunEnv [true, true, false] _ := Relation.ReflTransGen.refl
  have h := (hstart.next hfirst).next hsecond
  exact ⟨_, h, rfl, payload_limits transferQueue_laws transferQueue_sidecars h⟩

/-- With a block full of withdrawals the one transaction is skipped, and the size is still past the
limit. -/
theorem withdrawals_exceed : ∃ s, LoopHead transferQueue fullEnv [false] s ∧
    s.world = [] ∧ s.included = [] ∧ fullEnv.isOsaka = true ∧
    ¬ includedTotal Inclusion.length s.included + fullEnv.withdrawalsRlpLength + 1024 ≤
      fullEnv.maxRlpBlockSize := by
  have hstep : payloadStep transferQueue fullEnv (initialPayloadState transferQueue [false]) =
      .next _ := rfl
  have hstart : LoopHead transferQueue fullEnv [false] _ := Relation.ReflTransGen.refl
  have h := hstart.next hstep
  exact ⟨_, h, rfl, rfl, rfl, by decide⟩

end Examples

end RethGnosis
