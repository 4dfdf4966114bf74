import RethGnosis.Block.CheckedDecode

set_option autoImplicit false

/-!
# Encoded and decoded validator lists

An encoding decodes to its list wherever the array stands in the payload. Conversely a
decoded list stands in the buffer at the offset, unless adding 32 to the offset wraps:
then the bounds check passes and the decoder reads from the start of the buffer.
-/
namespace RethGnosis

def encodeArrayAt (gap : Bytes) (addresses : List Address) (trailing : Bytes) : Bytes :=
  beWord (32 + gap.length) ++ gap ++ beWord addresses.length ++
    addresses.flatMap (fun address => beWord address.toNat) ++ trailing

/-- At `offset` the buffer has a word with the length, and that many words whose low 20 bytes are
the addresses. -/
structure ContainsArray (data : Bytes) (offset : ℕ) (addresses : List Address) : Prop where
  fits : offset + 32 + addresses.length * 32 ≤ data.length
  length : fieldAt data offset 32 = addresses.length
  elements : ∀ (i : ℕ) (h : i < addresses.length), elementAt data offset i = addresses[i]

section Fields
variable {data : Bytes}

theorem fieldAt_append_right (a b : Bytes) (start count : ℕ) :
    fieldAt (a ++ b) (a.length + start) count = fieldAt b start count := by
  rw [fieldAt, fieldAt, List.drop_append, List.drop_eq_nil_of_le (by omega), List.nil_append,
    Nat.add_sub_cancel_left]

theorem fieldAt_append_left {a b : Bytes} {start count : ℕ} (h : start + count ≤ a.length) :
    fieldAt (a ++ b) start count = fieldAt a start count := by
  rw [fieldAt, fieldAt, List.drop_append_of_le_length (by omega),
    List.take_append_of_le_length (by rw [List.length_drop]; omega)]

theorem fieldAt_split {start low : ℕ} (high : ℕ) (h : start + high + low ≤ data.length) :
    fieldAt data start (high + low) =
      fieldAt data start high * 256 ^ low + fieldAt data (start + high) low := by
  have hlow : ((data.drop (start + high)).take low).length = low := by
    rw [List.length_take, List.length_drop]
    omega
  rw [fieldAt, List.take_add, Rlp.value_append, List.drop_drop, hlow]
  rfl

theorem fieldAt_low {start : ℕ} (h : start + 32 ≤ data.length)
    (hsmall : fieldAt data start 32 < 2 ^ 64) :
    fieldAt data start 32 = fieldAt data (start + 24) 8 := by
  have hsplit := @fieldAt_split data start 8 24 (by omega)
  rw [hsplit] at hsmall ⊢
  have hzero : fieldAt data start 24 = 0 := by
    by_contra hne
    have hone : 1 * 256 ^ 8 ≤ fieldAt data start 24 * 256 ^ 8 :=
      Nat.mul_le_mul_right _ (Nat.pos_of_ne_zero hne)
    omega
  rw [hzero, Nat.zero_mul, Nat.zero_add]

end Fields

section Words

theorem reverse_range_bytes (width n : ℕ) :
    ((List.range width).map (fun i => UInt8.ofNat (n / 256 ^ i))).reverse =
      Rlp.fixedBytes width n := by
  induction width generalizing n with
  | zero => rfl
  | succ width ih =>
    have hshift : (fun i => UInt8.ofNat (n / 256 ^ i)) ∘ Nat.succ =
        fun i => UInt8.ofNat (n / 256 / 256 ^ i) := by
      funext i
      rw [Function.comp_apply, Nat.succ_eq_add_one, Nat.pow_succ', Nat.div_div_eq_div_mul]
    rw [List.range_succ_eq_map, List.map_cons, List.map_map, hshift, List.reverse_cons, ih,
      Rlp.fixedBytes, Nat.pow_zero, Nat.div_one]

theorem beWord_eq (n : ℕ) : beWord n = Rlp.fixedBytes 32 n := reverse_range_bytes 32 n

theorem length_beWord (n : ℕ) : (beWord n).length = 32 := by
  rw [beWord_eq, Rlp.length_fixedBytes]

theorem fieldAt_beWord {high width : ℕ} (h : high + width = 32) (n : ℕ) :
    fieldAt (beWord n) high width = n % 256 ^ width := by
  have hsplit := Rlp.fixedBytes_append (Nat.mod_lt n (Nat.pow_pos (by omega) : 0 < 256 ^ width))
    high (a := n / 256 ^ width)
  rw [h, Nat.div_add_mod'] at hsplit
  have hlength : (Rlp.fixedBytes high (n / 256 ^ width)).length = high := Rlp.length_fixedBytes _ _
  rw [beWord_eq, hsplit]
  nth_rewrite 2 [← hlength]
  rw [← Nat.add_zero (Rlp.fixedBytes high (n / 256 ^ width)).length, fieldAt_append_right, fieldAt,
    List.drop_zero, List.take_of_length_le (Rlp.length_fixedBytes _ _).le, Rlp.value_fixedBytes,
    Nat.mod_mod]

theorem length_words (addresses : List Address) :
    (addresses.flatMap (fun address => beWord address.toNat)).length = addresses.length * 32 := by
  induction addresses with
  | nil => rfl
  | cons address rest ih =>
    rw [List.flatMap_cons, List.length_append, ih, length_beWord, List.length_cons]
    omega

theorem fieldAt_words (addresses : List Address) (trailing : Bytes) (i : ℕ)
    (hi : i < addresses.length) :
    BitVec.ofNat 160 (fieldAt (addresses.flatMap (fun address => beWord address.toNat) ++ trailing)
      (i * 32 + 12) 20) = addresses[i] := by
  induction addresses generalizing i with
  | nil => simp at hi
  | cons address rest ih =>
    rw [List.flatMap_cons, List.append_assoc]
    cases i with
    | zero =>
      have hlt : address.toNat < 256 ^ 20 := lt_of_lt_of_eq address.isLt (by decide)
      rw [fieldAt_append_left (by rw [length_beWord]), Nat.zero_mul, Nat.zero_add,
        fieldAt_beWord rfl, Nat.mod_eq_of_lt hlt, BitVec.ofNat_toNat, BitVec.setWidth_eq]
      rfl
    | succ i =>
      have hstart : (i + 1) * 32 + 12 = (beWord address.toNat).length + (i * 32 + 12) := by
        rw [length_beWord]
        omega
      rw [hstart, fieldAt_append_right]
      exact ih i (by simpa using hi)

end Words

section Decoded
variable {data : Bytes} {addresses : List Address}

theorem decode_short (h : data.length < 64) : decodeAddressArray data = .error .undecodable := by
  have hheader := @agrees_header data
  rw [checkedHeader_short h] at hheader
  rw [decodeAddressArray, show arrayHeader data = _ from hheader]
  rfl

theorem decode_inside (hslice : data.length ≤ isizeMax) (hlong : 64 ≤ data.length)
    (hword : arrayOffset data + 32 ≤ data.length) :
    decodeAddressArray data =
      if isizeMax < arrayLength data * 20 then .error .panic
      else if arrayOffset data + 32 + arrayLength data * 32 ≤ data.length then
        .ok ((List.range' 0 (arrayLength data)).map (elementAt data (arrayOffset data)))
      else .error .undecodable := by
  have hmax : isizeMax < 2 ^ 64 := by decide
  have hheader := @agrees_header data
  rw [checkedHeader_long hlong, if_neg (by omega), if_neg (by omega)] at hheader
  have helements := @agrees_elements data (arrayOffset data) 0 (arrayLength data)
  rw [checkedElements_eq hslice 0 (arrayLength data) (by omega), Nat.zero_add] at helements
  rw [decodeAddressArray, show arrayHeader data = _ from hheader]
  simp only [bind, Except.bind, throw, throwThe, MonadExceptOf.throw]
  split_ifs with hcapacity hend
  · rfl
  · rw [if_pos hend] at helements
    exact helements
  · rw [if_neg hend] at helements
    exact helements

theorem decode_eq_ok (hslice : data.length ≤ isizeMax) (hlong : 64 ≤ data.length)
    (hfits : arrayOffset data + 32 + arrayLength data * 32 ≤ data.length) :
    decodeAddressArray data =
      .ok ((List.range' 0 (arrayLength data)).map (elementAt data (arrayOffset data))) := by
  have hcapacity : ¬ isizeMax < arrayLength data * 20 := by omega
  rw [decode_inside hslice hlong (by omega), if_neg hcapacity, if_pos hfits]

theorem long_of_decode_eq_ok (h : decodeAddressArray data = .ok addresses) : 64 ≤ data.length := by
  by_contra hshort
  rw [decode_short (by omega)] at h
  cases h

theorem inside_of_decode_eq_ok (hslice : data.length ≤ isizeMax)
    (hoffset : arrayOffset data + 32 < 2 ^ 64) (h : decodeAddressArray data = .ok addresses) :
    arrayOffset data + 32 + arrayLength data * 32 ≤ data.length ∧
      (List.range' 0 (arrayLength data)).map (elementAt data (arrayOffset data)) = addresses := by
  have hlong := long_of_decode_eq_ok h
  have hword : arrayOffset data + 32 ≤ data.length := by
    by_contra hpast
    have hheader := @agrees_header data
    rw [checkedHeader_long hlong, if_neg (by omega), if_pos (by omega)] at hheader
    rw [decodeAddressArray, show arrayHeader data = _ from hheader] at h
    cases h
  rw [decode_inside hslice hlong hword] at h
  split_ifs at h with hcapacity hend
  exact ⟨hend, Except.ok.inj h⟩

theorem containsArray_of_decode (hslice : data.length ≤ isizeMax)
    (h : decodeAddressArray data = .ok addresses) (hoffset : fieldAt data 0 32 < 2 ^ 64)
    (hlength : fieldAt data (fieldAt data 0 32) 32 < 2 ^ 64)
    (haddress : fieldAt data 0 32 + 32 < 2 ^ 64) :
    ContainsArray data (fieldAt data 0 32) addresses := by
  have hlong := long_of_decode_eq_ok h
  have hlow : fieldAt data 0 32 = arrayOffset data := fieldAt_low (by omega) hoffset
  rw [hlow] at hlength haddress ⊢
  obtain ⟨hfits, rfl⟩ := inside_of_decode_eq_ok hslice haddress h
  have hcount : fieldAt data (arrayOffset data) 32 = arrayLength data :=
    fieldAt_low (by omega) hlength
  refine ⟨?_, ?_, ?_⟩
  · rw [List.length_map, List.length_range']
    exact hfits
  · rw [List.length_map, List.length_range', hcount]
  · intro i hi
    rw [List.getElem_map, List.getElem_range', Nat.zero_add, Nat.one_mul]

end Decoded

section Encoded
variable {gap : Bytes} {addresses : List Address} {trailing : Bytes}

theorem length_encodeArrayAt :
    (encodeArrayAt gap addresses trailing).length =
      32 + gap.length + 32 + addresses.length * 32 + trailing.length := by
  simp only [encodeArrayAt, List.length_append, length_beWord, length_words]

theorem arrayOffset_encodeArrayAt (h : 32 + gap.length < 2 ^ 64) :
    arrayOffset (encodeArrayAt gap addresses trailing) = 32 + gap.length := by
  rw [arrayOffset, encodeArrayAt, List.append_assoc, List.append_assoc, List.append_assoc,
    fieldAt_append_left (by rw [length_beWord]), fieldAt_beWord rfl]
  exact Nat.mod_eq_of_lt h

theorem arrayLength_encodeArrayAt (h : 32 + gap.length < 2 ^ 64)
    (hlength : addresses.length < 2 ^ 64) :
    arrayLength (encodeArrayAt gap addresses trailing) = addresses.length := by
  have hstart : 32 + gap.length + 24 =
      (beWord (32 + gap.length) ++ gap).length + 24 := by
    rw [List.length_append, length_beWord]
  rw [arrayLength, arrayOffset_encodeArrayAt h, encodeArrayAt, List.append_assoc,
    List.append_assoc, hstart, fieldAt_append_right,
    fieldAt_append_left (by rw [length_beWord]), fieldAt_beWord rfl]
  exact Nat.mod_eq_of_lt hlength

theorem elementAt_encodeArrayAt (i : ℕ) (hi : i < addresses.length) :
    elementAt (encodeArrayAt gap addresses trailing) (32 + gap.length) i = addresses[i] := by
  have hstart : 32 + gap.length + 32 + i * 32 + 12 =
      (beWord (32 + gap.length) ++ gap ++ beWord addresses.length).length + (i * 32 + 12) := by
    simp only [List.length_append, length_beWord]
    omega
  rw [elementAt, encodeArrayAt, List.append_assoc, hstart, fieldAt_append_right]
  exact fieldAt_words addresses trailing i hi

theorem decode_encodeArrayAt (h : (encodeArrayAt gap addresses trailing).length ≤ isizeMax) :
    decodeAddressArray (encodeArrayAt gap addresses trailing) = .ok addresses := by
  have hmax : isizeMax < 2 ^ 64 := by decide
  have hlength := @length_encodeArrayAt gap addresses trailing
  have hoffset := @arrayOffset_encodeArrayAt gap addresses trailing (by omega)
  have hcount := @arrayLength_encodeArrayAt gap addresses trailing (by omega) (by omega)
  rw [decode_eq_ok h (by omega) (by omega), hoffset, hcount]
  congr 1
  refine List.ext_getElem ?_ ?_
  · rw [List.length_map, List.length_range']
  · intro i _ hi
    rw [List.getElem_map, List.getElem_range', Nat.zero_add, Nat.one_mul]
    exact elementAt_encodeArrayAt i hi

end Encoded

/-- Encodings decode to their list. A list decoded from words below `2^64` stands in the buffer
at the offset exactly if adding 32 to the offset does not wrap. -/
theorem decode_iff_containsArray {data : Bytes} (hslice : data.length ≤ isizeMax)
    (addresses : List Address) :
    (∀ gap trailing : Bytes, data = encodeArrayAt gap addresses trailing →
        decodeAddressArray data = .ok addresses) ∧
      (decodeAddressArray data = .ok addresses → fieldAt data 0 32 < 2 ^ 64 →
        fieldAt data (fieldAt data 0 32) 32 < 2 ^ 64 →
          (ContainsArray data (fieldAt data 0 32) addresses ↔
            fieldAt data 0 32 + 32 < 2 ^ 64)) := by
  constructor
  · intro gap trailing hdata
    rw [hdata] at hslice ⊢
    exact decode_encodeArrayAt hslice
  · intro h hoffset hlength
    constructor
    · intro harray
      have hfits := harray.fits
      have hmax : isizeMax < 2 ^ 64 := by decide
      omega
    · intro haddress
      exact containsArray_of_decode hslice h hoffset hlength haddress

/-- An offset of `2^64 - 8` in 64 bytes. Adding 32 gives 24, so the length is read from bytes 16
to 24 of the offset word itself. -/
def wrappedOffset : Bytes := beWord (2 ^ 64 - 8) ++ beWord 0

theorem wrappedOffset_decoded :
    wrappedOffset.length ≤ isizeMax ∧ decodeAddressArray wrappedOffset = .ok [] ∧
      fieldAt wrappedOffset 0 32 < 2 ^ 64 ∧
      fieldAt wrappedOffset (fieldAt wrappedOffset 0 32) 32 < 2 ^ 64 ∧
      ¬ ContainsArray wrappedOffset (fieldAt wrappedOffset 0 32) [] := by
  refine ⟨by decide +kernel, by decide +kernel, by decide +kernel, by decide +kernel, ?_⟩
  intro harray
  exact absurd harray.fits (by decide +kernel)

/-- One address after a gap of two bytes. -/
theorem decode_iff_containsArray_gap :
    decodeAddressArray (encodeArrayAt [7, 7] [5#160] [9]) = .ok [5#160] ∧
      (ContainsArray (encodeArrayAt [7, 7] [5#160] [9])
          (fieldAt (encodeArrayAt [7, 7] [5#160] [9]) 0 32) [5#160] ↔
        fieldAt (encodeArrayAt [7, 7] [5#160] [9]) 0 32 + 32 < 2 ^ 64) := by
  have hslice : (encodeArrayAt [7, 7] [5#160] [9]).length ≤ isizeMax := by decide +kernel
  have h := decode_iff_containsArray hslice [5#160]
  have hdecode := h.1 [7, 7] [9] rfl
  exact ⟨hdecode, h.2 hdecode (by decide +kernel) (by decide +kernel)⟩

end RethGnosis
