import RethGnosis.Library.Rlp
import RethGnosis.Primitives

set_option autoImplicit false

/-!
# Seals

`aura/seal.rs`: the hash a validator signs, the recovery of the signer from the
65-byte seal, and the difficulty of a step. Keccak and ECDSA are parameters. The hash
covers the fields of the header up to the base fee, the two seal fields left out.
-/
namespace RethGnosis

structure Signature where
  r : U256
  s : U256
  yParity : Bool
deriving DecidableEq

structure SealCrypto where
  keccak256 : Bytes → B256
  signatureTryFrom : Bytes → Option Signature
  recoverAddressFromPrehash : Signature → B256 → Option Address

inductive SealError where
  | missingSeal
  | invalidSignature
  | recoveryFailed
deriving DecidableEq

/-- The fields in the order they are encoded, each as the string that is encoded. -/
def sealFields (header : GnosisHeader) : List Bytes :=
  [ Rlp.fixedBytes 32 header.parentHash.toNat,
    Rlp.fixedBytes 32 header.ommersHash.toNat,
    Rlp.fixedBytes 20 header.beneficiary.toNat,
    Rlp.fixedBytes 32 header.stateRoot.toNat,
    Rlp.fixedBytes 32 header.transactionsRoot.toNat,
    Rlp.fixedBytes 32 header.receiptsRoot.toNat,
    Rlp.fixedBytes 256 header.logsBloom.toNat,
    Rlp.trimmedBytes 32 header.difficulty,
    Rlp.trimmedBytes 8 header.number,
    Rlp.trimmedBytes 8 header.gasLimit,
    Rlp.trimmedBytes 8 header.gasUsed,
    Rlp.trimmedBytes 8 header.timestamp,
    header.extraData ] ++
  (header.baseFeePerGas.map (Rlp.trimmedBytes 8)).toList

def sealHashPayloadLength (header : GnosisHeader) : ℕ :=
  ((sealFields header).map Rlp.lengthOfString).sum

def sealPreimage (header : GnosisHeader) : Bytes :=
  Rlp.encodeHeader 0xc0 (sealHashPayloadLength header) ++
    (sealFields header).flatMap Rlp.encodeString

def computeSealHash (crypto : SealCrypto) (header : GnosisHeader) : B256 :=
  crypto.keccak256 (sealPreimage header)

/-- The seal with a recovery id of 27 and up moved down to 0. -/
def sigWithV (auraSeal : BitVec 520) : Bytes :=
  let sigBytes := Rlp.fixedBytes 65 auraSeal.toNat
  let v := sigBytes.getD 64 0
  let recoveryId := if 27 ≤ v then v - 27 else v
  sigBytes.set 64 recoveryId

def recoverSeal (crypto : SealCrypto) (auraSeal : BitVec 520) (sealHash : B256) :
    Except SealError Address :=
  match crypto.signatureTryFrom (sigWithV auraSeal) with
  | none => .error .invalidSignature
  | some sig =>
    match crypto.recoverAddressFromPrehash sig sealHash with
    | none => .error .recoveryFailed
    | some address => .ok address

def recoverSealAuthor (crypto : SealCrypto) (header : GnosisHeader) : Except SealError Address :=
  match header.auraSeal with
  | none => .error .missingSeal
  | some auraSeal => recoverSeal crypto auraSeal (computeSealHash crypto header)

def wrappingAdd (a b : ℕ) : ℕ := (a + b) % 2 ^ 256

def wrappingSub (a b : ℕ) : ℕ := (a + 2 ^ 256 - b % 2 ^ 256) % 2 ^ 256

def calculateAuraDifficulty (parentStep currentStep : ℕ) : ℕ :=
  wrappingSub (wrappingAdd (u256Max >>> 128) parentStep) currentStep

theorem calculateAuraDifficulty_eq {parentStep currentStep : ℕ} (hstep : parentStep < currentStep)
    (hmax : currentStep < 2 ^ 64) :
    calculateAuraDifficulty parentStep currentStep = 2 ^ 128 - 1 - (currentStep - parentStep) := by
  have hmaxU128 : u256Max >>> 128 = 2 ^ 128 - 1 := by decide
  unfold calculateAuraDifficulty wrappingSub wrappingAdd
  rw [hmaxU128]
  omega

structure GnosisHeader.InRange (header : GnosisHeader) : Prop where
  difficulty : header.difficulty < 2 ^ 256
  number : header.number < 2 ^ 64
  gasLimit : header.gasLimit < 2 ^ 64
  gasUsed : header.gasUsed < 2 ^ 64
  timestamp : header.timestamp < 2 ^ 64
  extraData : header.extraData.length < 2 ^ 63
  auraStep : ∀ step, header.auraStep = some step → step < 2 ^ 256
  baseFeePerGas : ∀ fee, header.baseFeePerGas = some fee → fee < 2 ^ 64
  blobGasUsed : ∀ used, header.blobGasUsed = some used → used < 2 ^ 64
  excessBlobGas : ∀ excess, header.excessBlobGas = some excess → excess < 2 ^ 64
  slotNumber : ∀ slot, header.slotNumber = some slot → slot < 2 ^ 64

theorem sealPreimage_eq (header : GnosisHeader) :
    sealPreimage header = Rlp.encodeList (sealFields header) := by
  unfold sealPreimage Rlp.encodeList sealHashPayloadLength
  rw [← Rlp.length_encodeStrings]
  rfl

theorem sealFields_length_le {header : GnosisHeader} (h : header.InRange) :
    ∀ bytes ∈ sealFields header, bytes.length < 2 ^ 63 := by
  have hfixed : ∀ width n : ℕ, width < 2 ^ 63 → (Rlp.fixedBytes width n).length < 2 ^ 63 := by
    intro width n hwidth
    rwa [Rlp.length_fixedBytes]
  have htrimmed : ∀ width n : ℕ, width < 2 ^ 63 → (Rlp.trimmedBytes width n).length < 2 ^ 63 :=
    fun width n hwidth => Nat.lt_of_le_of_lt (Rlp.length_trimmedBytes_le width n) hwidth
  have hfee : ∀ bytes ∈ (header.baseFeePerGas.map (Rlp.trimmedBytes 8)).toList,
      bytes.length < 2 ^ 63 := by
    intro bytes hbytes
    rw [Option.mem_toList, Option.map_eq_some_iff] at hbytes
    obtain ⟨fee, -, hfee⟩ := hbytes
    rw [← hfee]
    exact htrimmed 8 fee (by omega)
  unfold sealFields
  rw [List.forall_mem_append]
  refine ⟨?_, hfee⟩
  simp only [List.forall_mem_cons, List.not_mem_nil, false_implies, implies_true, and_true]
  exact ⟨hfixed _ _ (by omega), hfixed _ _ (by omega), hfixed _ _ (by omega),
    hfixed _ _ (by omega), hfixed _ _ (by omega), hfixed _ _ (by omega), hfixed _ _ (by omega),
    htrimmed _ _ (by omega), htrimmed _ _ (by omega), htrimmed _ _ (by omega),
    htrimmed _ _ (by omega), htrimmed _ _ (by omega), h.extraData⟩

theorem encode_sealFields_length {header : GnosisHeader} (h : header.InRange) :
    (Rlp.encodeStrings (sealFields header)).length < 2 ^ 64 := by
  have hextra := h.extraData
  have hdifficulty := Rlp.length_trimmedBytes_le 32 header.difficulty
  have hnumber := Rlp.length_trimmedBytes_le 8 header.number
  have hgasLimit := Rlp.length_trimmedBytes_le 8 header.gasLimit
  have hgasUsed := Rlp.length_trimmedBytes_le 8 header.gasUsed
  have htimestamp := Rlp.length_trimmedBytes_le 8 header.timestamp
  have hfee : (((header.baseFeePerGas.map (Rlp.trimmedBytes 8)).toList.map List.length).sum ≤ 8) ∧
      (header.baseFeePerGas.map (Rlp.trimmedBytes 8)).toList.length ≤ 1 := by
    cases header.baseFeePerGas with
    | none => exact ⟨Nat.zero_le 8, Nat.zero_le 1⟩
    | some fee =>
      have hlength := Rlp.length_trimmedBytes_le 8 fee
      simp only [Option.map_some, Option.toList_some, List.map_cons, List.map_nil, List.sum_cons,
        List.sum_nil, List.length_cons, List.length_nil]
      omega
  refine Nat.lt_of_le_of_lt (Rlp.length_encodeStrings_le (sealFields header)) ?_
  simp only [sealFields, List.map_append, List.sum_append, List.map_cons, List.map_nil,
    List.sum_cons, List.sum_nil, List.length_append, List.length_cons, List.length_nil,
    Rlp.length_fixedBytes]
  omega

structure SameSealedFields (h₁ h₂ : GnosisHeader) : Prop where
  parentHash : h₁.parentHash = h₂.parentHash
  ommersHash : h₁.ommersHash = h₂.ommersHash
  beneficiary : h₁.beneficiary = h₂.beneficiary
  stateRoot : h₁.stateRoot = h₂.stateRoot
  transactionsRoot : h₁.transactionsRoot = h₂.transactionsRoot
  receiptsRoot : h₁.receiptsRoot = h₂.receiptsRoot
  logsBloom : h₁.logsBloom = h₂.logsBloom
  difficulty : h₁.difficulty = h₂.difficulty
  number : h₁.number = h₂.number
  gasLimit : h₁.gasLimit = h₂.gasLimit
  gasUsed : h₁.gasUsed = h₂.gasUsed
  timestamp : h₁.timestamp = h₂.timestamp
  extraData : h₁.extraData = h₂.extraData
  baseFeePerGas : h₁.baseFeePerGas = h₂.baseFeePerGas

theorem sealPreimage_congr {h₁ h₂ : GnosisHeader} (h : SameSealedFields h₁ h₂) :
    sealPreimage h₁ = sealPreimage h₂ := by
  obtain ⟨hparent, hommers, hbeneficiary, hstate, htransactions, hreceipts, hbloom, hdifficulty,
    hnumber, hgasLimit, hgasUsed, htimestamp, hextra, hfee⟩ := h
  rw [sealPreimage_eq, sealPreimage_eq]
  unfold sealFields
  rw [hparent, hommers, hbeneficiary, hstate, htransactions, hreceipts, hbloom, hdifficulty,
    hnumber, hgasLimit, hgasUsed, htimestamp, hextra, hfee]

theorem computeSealHash_congr (crypto : SealCrypto) {h₁ h₂ : GnosisHeader}
    (h : SameSealedFields h₁ h₂) : computeSealHash crypto h₁ = computeSealHash crypto h₂ := by
  rw [computeSealHash, sealPreimage_congr h, computeSealHash]

theorem bitVec_of_fixedBytes {w width : ℕ} (hw : w = 8 * width) {a b : BitVec w}
    (h : Rlp.fixedBytes width a.toNat = Rlp.fixedBytes width b.toNat) : a = b := by
  have hpow : 2 ^ w = 256 ^ width := by
    rw [hw, Nat.pow_mul]
  have ha := a.isLt
  have hb := b.isLt
  rw [hpow] at ha hb
  exact BitVec.eq_of_toNat_eq (Rlp.fixedBytes_inj ha hb h)

theorem baseFee_of_bytes {a b : Option ℕ} (ha : ∀ fee, a = some fee → fee < 2 ^ 64)
    (hb : ∀ fee, b = some fee → fee < 2 ^ 64)
    (h : (a.map (Rlp.trimmedBytes 8)).toList = (b.map (Rlp.trimmedBytes 8)).toList) : a = b := by
  cases a with
  | none =>
    cases b with
    | none => rfl
    | some fee => cases h
  | some fee =>
    cases b with
    | none => cases h
    | some other =>
      simp only [Option.map_some, Option.toList_some, List.cons.injEq, and_true] at h
      rw [Rlp.trimmedBytes_inj (ha fee rfl) (hb other rfl) h]

theorem sealPreimage_inj {h₁ h₂ : GnosisHeader} (hr₁ : h₁.InRange) (hr₂ : h₂.InRange)
    (h : sealPreimage h₁ = sealPreimage h₂) : SameSealedFields h₁ h₂ := by
  have hshort : ∀ header : GnosisHeader, header.InRange →
      ∀ bytes ∈ sealFields header, bytes.length < 2 ^ 64 := by
    intro header hr bytes hbytes
    have hlt := sealFields_length_le hr bytes hbytes
    omega
  rw [sealPreimage_eq, sealPreimage_eq] at h
  have hfields := Rlp.encodeList_inj (hshort h₁ hr₁) (hshort h₂ hr₂)
    (encode_sealFields_length hr₁) (encode_sealFields_length hr₂) h
  simp only [sealFields, List.cons_append, List.nil_append, List.cons.injEq] at hfields
  obtain ⟨hparent, hommers, hbeneficiary, hstate, htransactions, hreceipts, hbloom, hdifficulty,
    hnumber, hgasLimit, hgasUsed, htimestamp, hextra, hfee⟩ := hfields
  exact
    { parentHash := bitVec_of_fixedBytes rfl hparent
      ommersHash := bitVec_of_fixedBytes rfl hommers
      beneficiary := bitVec_of_fixedBytes rfl hbeneficiary
      stateRoot := bitVec_of_fixedBytes rfl hstate
      transactionsRoot := bitVec_of_fixedBytes rfl htransactions
      receiptsRoot := bitVec_of_fixedBytes rfl hreceipts
      logsBloom := bitVec_of_fixedBytes rfl hbloom
      difficulty := Rlp.trimmedBytes_inj hr₁.difficulty hr₂.difficulty hdifficulty
      number := Rlp.trimmedBytes_inj hr₁.number hr₂.number hnumber
      gasLimit := Rlp.trimmedBytes_inj hr₁.gasLimit hr₂.gasLimit hgasLimit
      gasUsed := Rlp.trimmedBytes_inj hr₁.gasUsed hr₂.gasUsed hgasUsed
      timestamp := Rlp.trimmedBytes_inj hr₁.timestamp hr₂.timestamp htimestamp
      extraData := hextra
      baseFeePerGas := baseFee_of_bytes hr₁.baseFeePerGas hr₂.baseFeePerGas hfee }

def SignsAny (crypto : SealCrypto) : Prop :=
  ∀ (auraSeal : BitVec 520) (sealHash : B256) (signer : Address),
    recoverSeal crypto auraSeal sealHash = .ok signer →
      ∀ other, ∃ otherSeal, recoverSeal crypto otherSeal other = .ok signer

def TwoSigners (crypto : SealCrypto) : Prop :=
  ∀ sealHash, ∃ seal₁ seal₂ signer₁ signer₂, signer₁ ≠ signer₂ ∧
    recoverSeal crypto seal₁ sealHash = .ok signer₁ ∧
    recoverSeal crypto seal₂ sealHash = .ok signer₂

/-- A seal that names its signer and the hash it is for. -/
def openSeal (signer : Address) (sealHash : B256) : BitVec 520 :=
  BitVec.ofNat 520 ((signer.toNat * 256 ^ 32 + sealHash.toNat) * 256 ^ 1 + 0)

def openCrypto (keccak256 : Bytes → B256) : SealCrypto where
  keccak256 := keccak256
  signatureTryFrom := fun bytes =>
    some ⟨Rlp.value (bytes.take 32), Rlp.value ((bytes.drop 32).take 32), bytes.getD 64 0 != 0⟩
  recoverAddressFromPrehash := fun sig sealHash =>
    if sig.s = sealHash.toNat then some (BitVec.ofNat 160 sig.r) else none

theorem fixedBytes_openSeal (signer : Address) (sealHash : B256) :
    Rlp.fixedBytes 65 (openSeal signer sealHash).toNat =
      Rlp.fixedBytes 32 signer.toNat ++ Rlp.fixedBytes 32 sealHash.toNat ++ [0] := by
  have hsigner := signer.isLt
  have hhash : sealHash.toNat < 256 ^ 32 := sealHash.isLt
  have hbound : (signer.toNat * 256 ^ 32 + sealHash.toNat) * 256 ^ 1 + 0 < 256 ^ 65 := by omega
  have hpow : 2 ^ (8 * 65) = 256 ^ 65 := Nat.pow_mul 2 8 65
  have htoNat : (openSeal signer sealHash).toNat =
      (signer.toNat * 256 ^ 32 + sealHash.toNat) * 256 ^ 1 + 0 := by
    rw [openSeal, BitVec.toNat_ofNat]
    exact Nat.mod_eq_of_lt (Nat.lt_of_lt_of_eq hbound hpow.symm)
  have hlast : Rlp.fixedBytes (64 + 1) ((signer.toNat * 256 ^ 32 + sealHash.toNat) * 256 ^ 1 + 0) =
      Rlp.fixedBytes 64 (signer.toNat * 256 ^ 32 + sealHash.toNat) ++ Rlp.fixedBytes 1 0 :=
    Rlp.fixedBytes_append (by decide) 64
  have hhalves : Rlp.fixedBytes (32 + 32) (signer.toNat * 256 ^ 32 + sealHash.toNat) =
      Rlp.fixedBytes 32 signer.toNat ++ Rlp.fixedBytes 32 sealHash.toNat :=
    Rlp.fixedBytes_append hhash 32
  rw [htoNat]
  exact hlast.trans (congrArg (fun bytes => bytes ++ [0]) hhalves)

theorem sigWithV_of_bytes {auraSeal : BitVec 520} {rs : Bytes} (hlength : rs.length = 64)
    (h : Rlp.fixedBytes 65 auraSeal.toNat = rs ++ [0]) : sigWithV auraSeal = rs ++ [0] := by
  have hv : (rs ++ [0]).getD 64 0 = 0 := by
    rw [← hlength, List.getD_eq_getElem?_getD, List.getElem?_concat_length]
    rfl
  have hset : (rs ++ [(0 : UInt8)]).set 64 0 = rs ++ [0] := by
    rw [← hlength, List.set_append_right _ _ (Nat.le_refl _), Nat.sub_self]
    rfl
  unfold sigWithV
  simp only [h, hv]
  exact hset

theorem recoverSeal_of_bytes {keccak256 : Bytes → B256} {auraSeal : BitVec 520} {signer : Address}
    {sealHash : B256} {r s : Bytes} (hbytes : sigWithV auraSeal = r ++ s ++ [0])
    (hrLength : r.length = 32) (hsLength : s.length = 32) (hr : Rlp.value r = signer.toNat)
    (hs : Rlp.value s = sealHash.toNat) :
    recoverSeal (openCrypto keccak256) auraSeal sealHash = .ok signer := by
  have htake : (r ++ s ++ [0]).take 32 = r := by
    rw [List.append_assoc]
    exact List.take_left' hrLength
  have hdrop : ((r ++ s ++ [0]).drop 32).take 32 = s := by
    rw [List.append_assoc, List.drop_left' hrLength]
    exact List.take_left' hsLength
  unfold recoverSeal
  simp only [openCrypto, hbytes, htake, hdrop, hr, hs, ↓reduceIte, BitVec.ofNat_toNat,
    BitVec.setWidth_eq]

theorem recoverSeal_openSeal (keccak256 : Bytes → B256) (signer : Address) (sealHash : B256) :
    recoverSeal (openCrypto keccak256) (openSeal signer sealHash) sealHash = .ok signer := by
  have hsigner : signer.toNat < 256 ^ 32 := Nat.lt_of_lt_of_le signer.isLt (by decide)
  have hhash : sealHash.toNat < 256 ^ 32 := sealHash.isLt
  have hlength : (Rlp.fixedBytes 32 signer.toNat ++ Rlp.fixedBytes 32 sealHash.toNat).length =
      64 := by
    rw [List.length_append, Rlp.length_fixedBytes, Rlp.length_fixedBytes]
  exact recoverSeal_of_bytes (sigWithV_of_bytes hlength (fixedBytes_openSeal signer sealHash))
    (Rlp.length_fixedBytes _ _) (Rlp.length_fixedBytes _ _) (Rlp.value_fixedBytes_of_lt hsigner)
    (Rlp.value_fixedBytes_of_lt hhash)

theorem openCrypto_signsAny (keccak256 : Bytes → B256) : SignsAny (openCrypto keccak256) := by
  intro auraSeal sealHash signer _ other
  exact ⟨openSeal signer other, recoverSeal_openSeal keccak256 signer other⟩

theorem openCrypto_twoSigners (keccak256 : Bytes → B256) : TwoSigners (openCrypto keccak256) :=
  fun sealHash => ⟨openSeal 1#160 sealHash, openSeal 2#160 sealHash, 1#160, 2#160, by decide,
    recoverSeal_openSeal keccak256 1#160 sealHash, recoverSeal_openSeal keccak256 2#160 sealHash⟩

end RethGnosis
