import RethGnosis.Aura.Seal

set_option autoImplicit false

/-!
# The two field lists of the signed buffer

`seal.rs` lists the fields twice, once for the lengths and once for the encodings. The
encoders of `alloy_rlp` are a parameter here, with the law that they are canonical.
-/
namespace RethGnosis

/-- An `Encodable` implementation: what `encode` appends and what `length` announces. -/
structure RlpEncodable (α : Type) where
  encode : α → Bytes
  length : α → ℕ

/-- `header` is what `Header { list: true, payload_length }.encode` appends. -/
structure AlloyRlp where
  header : ℕ → Bytes
  b256 : RlpEncodable B256
  address : RlpEncodable Address
  bloom : RlpEncodable (BitVec 2048)
  u256 : RlpEncodable U256
  u64 : RlpEncodable ℕ
  bytes : RlpEncodable Bytes

namespace AlloyRlp

section Code
variable (rlp : AlloyRlp) (header : GnosisHeader)

def sealHashPayloadLength : ℕ :=
  let length := 0
  let length := length + rlp.b256.length header.parentHash
  let length := length + rlp.b256.length header.ommersHash
  let length := length + rlp.address.length header.beneficiary
  let length := length + rlp.b256.length header.stateRoot
  let length := length + rlp.b256.length header.transactionsRoot
  let length := length + rlp.b256.length header.receiptsRoot
  let length := length + rlp.bloom.length header.logsBloom
  let length := length + rlp.u256.length header.difficulty
  let length := length + rlp.u64.length header.number
  let length := length + rlp.u64.length header.gasLimit
  let length := length + rlp.u64.length header.gasUsed
  let length := length + rlp.u64.length header.timestamp
  let length := length + rlp.bytes.length header.extraData
  match header.baseFeePerGas with
  | some baseFee => length + rlp.u64.length baseFee
  | none => length

def sealPayload (buf : Bytes) : Bytes :=
  let buf := buf ++ rlp.b256.encode header.parentHash
  let buf := buf ++ rlp.b256.encode header.ommersHash
  let buf := buf ++ rlp.address.encode header.beneficiary
  let buf := buf ++ rlp.b256.encode header.stateRoot
  let buf := buf ++ rlp.b256.encode header.transactionsRoot
  let buf := buf ++ rlp.b256.encode header.receiptsRoot
  let buf := buf ++ rlp.bloom.encode header.logsBloom
  let buf := buf ++ rlp.u256.encode header.difficulty
  let buf := buf ++ rlp.u64.encode header.number
  let buf := buf ++ rlp.u64.encode header.gasLimit
  let buf := buf ++ rlp.u64.encode header.gasUsed
  let buf := buf ++ rlp.u64.encode header.timestamp
  let buf := buf ++ rlp.bytes.encode header.extraData
  match header.baseFeePerGas with
  | some baseFee => buf ++ rlp.u64.encode baseFee
  | none => buf

def sealBuffer : Bytes :=
  rlp.sealPayload header (rlp.header (rlp.sealHashPayloadLength header))

end Code

end AlloyRlp

def RlpEncodable.Encodes {α : Type} (e : RlpEncodable α) (a : α) (text : Bytes) : Prop :=
  e.encode a = Rlp.encodeString text ∧ e.length a = (e.encode a).length

namespace AlloyRlp

/-- Hashes, addresses and blooms are strings of their width, integers are strings without leading
zeros. -/
structure Canonical (rlp : AlloyRlp) : Prop where
  header : ∀ n, n < 2 ^ 64 → rlp.header n = Rlp.encodeHeader 0xc0 n
  b256 : ∀ hash : B256, rlp.b256.Encodes hash (Rlp.fixedBytes 32 hash.toNat)
  address : ∀ a : Address, rlp.address.Encodes a (Rlp.fixedBytes 20 a.toNat)
  bloom : ∀ bloom : BitVec 2048, rlp.bloom.Encodes bloom (Rlp.fixedBytes 256 bloom.toNat)
  u256 : ∀ n : ℕ, n < 2 ^ 256 → rlp.u256.Encodes n (Rlp.trimmedBytes 32 n)
  u64 : ∀ n : ℕ, n < 2 ^ 64 → rlp.u64.Encodes n (Rlp.trimmedBytes 8 n)
  bytes : ∀ data : Bytes, data.length < 2 ^ 63 → rlp.bytes.Encodes data data

variable {rlp : AlloyRlp} {header : GnosisHeader}

theorem Canonical.baseFee (hrlp : rlp.Canonical) (h : header.InRange) {fee : ℕ}
    (hfee : header.baseFeePerGas = some fee) : rlp.u64.Encodes fee (Rlp.trimmedBytes 8 fee) :=
  hrlp.u64 fee (h.baseFeePerGas fee hfee)

theorem sealPayload_append (buf : Bytes) :
    rlp.sealPayload header buf = buf ++ rlp.sealPayload header [] := by
  unfold sealPayload
  cases header.baseFeePerGas with
  | none => simp only [List.append_assoc, List.nil_append]
  | some fee => simp only [List.append_assoc, List.nil_append]

theorem Canonical.sealPayload_eq (hrlp : rlp.Canonical) (h : header.InRange) :
    rlp.sealPayload header [] = (sealFields header).flatMap Rlp.encodeString := by
  unfold sealPayload sealFields
  rw [(hrlp.b256 header.parentHash).1, (hrlp.b256 header.ommersHash).1,
    (hrlp.address header.beneficiary).1, (hrlp.b256 header.stateRoot).1,
    (hrlp.b256 header.transactionsRoot).1, (hrlp.b256 header.receiptsRoot).1,
    (hrlp.bloom header.logsBloom).1, (hrlp.u256 header.difficulty h.difficulty).1,
    (hrlp.u64 header.number h.number).1, (hrlp.u64 header.gasLimit h.gasLimit).1,
    (hrlp.u64 header.gasUsed h.gasUsed).1, (hrlp.u64 header.timestamp h.timestamp).1,
    (hrlp.bytes header.extraData h.extraData).1]
  cases hfee : header.baseFeePerGas with
  | none =>
    simp only [Option.map_none, Option.toList_none, List.append_nil, List.flatMap_cons,
      List.flatMap_nil, List.append_assoc, List.nil_append]
  | some fee =>
    simp only [(hrlp.baseFee h hfee).1, Option.map_some, Option.toList_some, List.flatMap_append,
      List.flatMap_cons, List.flatMap_nil, List.append_nil, List.append_assoc, List.nil_append]

theorem Canonical.sealHashPayloadLength_eq (hrlp : rlp.Canonical) (h : header.InRange) :
    rlp.sealHashPayloadLength header = (rlp.sealPayload header []).length := by
  unfold sealHashPayloadLength sealPayload
  rw [(hrlp.b256 header.parentHash).2, (hrlp.b256 header.ommersHash).2,
    (hrlp.address header.beneficiary).2, (hrlp.b256 header.stateRoot).2,
    (hrlp.b256 header.transactionsRoot).2, (hrlp.b256 header.receiptsRoot).2,
    (hrlp.bloom header.logsBloom).2, (hrlp.u256 header.difficulty h.difficulty).2,
    (hrlp.u64 header.number h.number).2, (hrlp.u64 header.gasLimit h.gasLimit).2,
    (hrlp.u64 header.gasUsed h.gasUsed).2, (hrlp.u64 header.timestamp h.timestamp).2,
    (hrlp.bytes header.extraData h.extraData).2]
  cases hfee : header.baseFeePerGas with
  | none => simp only [List.length_append, List.length_nil]
  | some fee =>
    simp only [(hrlp.baseFee h hfee).2, List.length_append, List.length_nil]

theorem Canonical.sealHashPayloadLength_lt (hrlp : rlp.Canonical) (h : header.InRange) :
    rlp.sealHashPayloadLength header < 2 ^ 64 := by
  rw [hrlp.sealHashPayloadLength_eq h, hrlp.sealPayload_eq h]
  exact encode_sealFields_length h

theorem Canonical.sealBuffer_eq (hrlp : rlp.Canonical) (h : header.InRange) :
    rlp.sealBuffer header = Rlp.encodeList (sealFields header) := by
  unfold sealBuffer
  rw [sealPayload_append, hrlp.header _ (hrlp.sealHashPayloadLength_lt h),
    hrlp.sealHashPayloadLength_eq h, hrlp.sealPayload_eq h]
  rfl

/-- After its list header the buffer holds as many bytes as `seal_hash_payload_length` says (a sum
that does not wrap), the whole is a canonical RLP list, and it determines the fields. -/
theorem sealBuffer_canonical (hrlp : rlp.Canonical) :
    (∀ header : GnosisHeader, header.InRange →
      (rlp.sealPayload header []).length = rlp.sealHashPayloadLength header ∧
        rlp.sealHashPayloadLength header < 2 ^ 64 ∧
        rlp.sealBuffer header = Rlp.encodeHeader 0xc0 (rlp.sealPayload header []).length ++
          rlp.sealPayload header [] ∧
        rlp.sealBuffer header = Rlp.encodeList (sealFields header)) ∧
    ∀ h₁ h₂ : GnosisHeader, h₁.InRange → h₂.InRange →
      (rlp.sealBuffer h₁ = rlp.sealBuffer h₂ ↔ SameSealedFields h₁ h₂) := by
  constructor
  · intro header h
    have hlength := hrlp.sealHashPayloadLength_eq h
    have hlt := hrlp.sealHashPayloadLength_lt h
    refine ⟨hlength.symm, hlt, ?_, hrlp.sealBuffer_eq h⟩
    unfold sealBuffer
    rw [sealPayload_append, hrlp.header _ hlt, hlength]
  · intro h₁ h₂ hr₁ hr₂
    rw [hrlp.sealBuffer_eq hr₁, hrlp.sealBuffer_eq hr₂, ← sealPreimage_eq, ← sealPreimage_eq]
    constructor
    · exact sealPreimage_inj hr₁ hr₂
    · exact sealPreimage_congr

def encodableAs {α : Type} (text : α → Bytes) : RlpEncodable α where
  encode := fun a => Rlp.encodeString (text a)
  length := fun a => Rlp.lengthOfString (text a)

theorem encodableAs_encodes {α : Type} (text : α → Bytes) (a : α) :
    (encodableAs text).Encodes a (text a) :=
  ⟨rfl, (Rlp.length_encodeString (text a)).symm⟩

def referenceRlp : AlloyRlp where
  header := Rlp.encodeHeader 0xc0
  b256 := encodableAs (fun hash => Rlp.fixedBytes 32 hash.toNat)
  address := encodableAs (fun a => Rlp.fixedBytes 20 a.toNat)
  bloom := encodableAs (fun bloom => Rlp.fixedBytes 256 bloom.toNat)
  u256 := encodableAs (fun n : ℕ => Rlp.trimmedBytes 32 n)
  u64 := encodableAs (Rlp.trimmedBytes 8)
  bytes := encodableAs id

theorem referenceRlp_canonical : referenceRlp.Canonical where
  header := fun _ _ => rfl
  b256 := encodableAs_encodes _
  address := encodableAs_encodes _
  bloom := encodableAs_encodes _
  u256 := fun n _ => encodableAs_encodes (fun n : ℕ => Rlp.trimmedBytes 32 n) n
  u64 := fun n _ => encodableAs_encodes (Rlp.trimmedBytes 8) n
  bytes := fun data _ => encodableAs_encodes id data

def headerWithFee (baseFeePerGas : Option ℕ) : GnosisHeader :=
  { (default : GnosisHeader) with
    number := 100000
    gasLimit := 12500000
    extraData := [78, 101, 116]
    baseFeePerGas := baseFeePerGas }

theorem headerWithFee_inRange {baseFeePerGas : Option ℕ}
    (h : ∀ fee, baseFeePerGas = some fee → fee < 2 ^ 64) :
    (headerWithFee baseFeePerGas).InRange where
  difficulty := (by decide : 0 < 2 ^ 256)
  number := (by decide : 100000 < 2 ^ 64)
  gasLimit := (by decide : 12500000 < 2 ^ 64)
  gasUsed := (by decide : 0 < 2 ^ 64)
  timestamp := (by decide : 0 < 2 ^ 64)
  extraData := (by decide : 3 < 2 ^ 63)
  auraStep := nofun
  baseFeePerGas := h
  blobGasUsed := nofun
  excessBlobGas := nofun
  slotNumber := nofun

/-- A base fee of 0 is not the absence of one. -/
theorem sealBuffer_canonical_zeroFee :
    (referenceRlp.sealPayload (headerWithFee none) []).length =
        referenceRlp.sealHashPayloadLength (headerWithFee none) ∧
      referenceRlp.sealBuffer (headerWithFee (some 0)) ≠
        referenceRlp.sealBuffer (headerWithFee none) := by
  have hnone : (headerWithFee none).InRange :=
    headerWithFee_inRange nofun
  have hzero : (headerWithFee (some 0)).InRange :=
    headerWithFee_inRange (fun fee h => by cases h; decide)
  constructor
  · exact ((sealBuffer_canonical referenceRlp_canonical).1 _ hnone).1
  · intro hsame
    have hfields := ((sealBuffer_canonical referenceRlp_canonical).2 _ _ hzero hnone).mp hsame
    cases hfields.baseFeePerGas

end AlloyRlp

end RethGnosis
