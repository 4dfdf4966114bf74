import RethGnosis.Library.Rlp
import RethGnosis.Block.AddressArray

set_option autoImplicit false

/-!
# Where the array decoder is safe

`decode_address_array` a second time, with an overflowing addition or multiplication, a
slice out of range and an allocation for more than `room` elements as faults. Without
such a fault the release build gives the same answer. The faults come from the header:
from an offset that no address space holds, and from a length that is reserved before it
is compared with the buffer.
-/
namespace RethGnosis

inductive CheckedFault where
  | undecodable
  | overflow
  | outOfRange
  | oversizedAllocation
deriving DecidableEq

section Checked
variable (room : ℕ) (data : Bytes)

def checkedUsize (n : ℕ) : Except CheckedFault ℕ :=
  if n < 2 ^ 64 then .ok n else .error .overflow

def checkedSlice (start stop : ℕ) : Except CheckedFault Bytes :=
  if start ≤ stop ∧ stop ≤ data.length then .ok ((data.drop start).take (stop - start))
  else .error .outOfRange

def checkedHeader : Except CheckedFault (ℕ × ℕ) :=
  if data.length < 64 then .error .undecodable
  else do
    let offset := beBytesToNat (← checkedSlice data 24 32)
    let stop ← checkedUsize (offset + 32)
    if data.length < stop then .error .undecodable
    else do
      let start ← checkedUsize (offset + 24)
      let length := beBytesToNat (← checkedSlice data start stop)
      return (offset, length)

def checkedElements (offset : ℕ) : ℕ → ℕ → Except CheckedFault (List Address)
  | _, 0 => .ok []
  | i, remaining + 1 => do
    let first ← checkedUsize (offset + 32)
    let distance ← checkedUsize (i * 32)
    let start ← checkedUsize (first + distance)
    let stop ← checkedUsize (start + 32)
    if data.length < stop then .error .undecodable
    else do
      let word ← checkedSlice data (← checkedUsize (start + 12)) stop
      let rest ← checkedElements offset (i + 1) remaining
      return BitVec.ofNat 160 (beBytesToNat word) :: rest

/-- `Vec::with_capacity(length)` is refused for more than `room` elements. -/
def checkedDecode : Except CheckedFault (List Address) := do
  let (offset, length) ← checkedHeader data
  if room < length then .error .oversizedAllocation
  else checkedElements data offset 0 length

/-- `bytes[start..start + count]` as a number; bytes past the end are left out. -/
def fieldAt (start count : ℕ) : ℕ := Rlp.value ((data.drop start).take count)

def arrayOffset : ℕ := fieldAt data 24 8

def arrayLength : ℕ := fieldAt data (arrayOffset data + 24) 8

def elementAt (offset i : ℕ) : Address :=
  BitVec.ofNat 160 (fieldAt data (offset + 32 + i * 32 + 12) 20)

end Checked

section Header
variable {room : ℕ} {data : Bytes}

theorem checkedUsize_bind {α : Type} {n : ℕ} (h : n < 2 ^ 64)
    (f : ℕ → Except CheckedFault α) : (checkedUsize n >>= f) = f n := by
  rw [checkedUsize, if_pos h]
  rfl

theorem checkedUsize_bind_overflow {α : Type} {n : ℕ} (h : 2 ^ 64 ≤ n)
    (f : ℕ → Except CheckedFault α) : (checkedUsize n >>= f) = .error .overflow := by
  rw [checkedUsize, if_neg (not_lt.mpr h)]
  rfl

theorem checkedSlice_bind {α : Type} {start stop : ℕ} (count : ℕ) (hstop : stop = start + count)
    (h : stop ≤ data.length) (f : Bytes → Except CheckedFault α) :
    (checkedSlice data start stop >>= f) = f ((data.drop start).take count) := by
  rw [checkedSlice, if_pos ⟨by omega, h⟩, hstop, Nat.add_sub_cancel_left]
  rfl

theorem checkedHeader_short (h : data.length < 64) :
    checkedHeader data = .error .undecodable := if_pos h

theorem checkedHeader_long (h : 64 ≤ data.length) :
    checkedHeader data =
      if 2 ^ 64 ≤ arrayOffset data + 32 then .error .overflow
      else if data.length < arrayOffset data + 32 then .error .undecodable
      else .ok (arrayOffset data, arrayLength data) := by
  have hoffset : beBytesToNat ((data.drop 24).take 8) = arrayOffset data := rfl
  rw [checkedHeader, if_neg (not_lt.mpr h), checkedSlice_bind 8 rfl (by omega), hoffset]
  split_ifs with hover hpast
  · rw [checkedUsize_bind_overflow hover]
  · rw [checkedUsize_bind (not_le.mp hover), if_pos hpast]
  · rw [checkedUsize_bind (not_le.mp hover), if_neg hpast, checkedUsize_bind (by omega),
      checkedSlice_bind 8 (by omega) (not_lt.mp hpast)]
    rfl

theorem checkedElements_eq (hslice : data.length ≤ isizeMax) {offset : ℕ} (i remaining : ℕ)
    (hi : offset + 32 + i * 32 ≤ data.length) :
    checkedElements data offset i remaining =
      if offset + 32 + (i + remaining) * 32 ≤ data.length then
        .ok ((List.range' i remaining).map (elementAt data offset))
      else .error .undecodable := by
  have hmax : data.length + 64 ≤ 2 ^ 64 := by
    simp only [isizeMax] at hslice
    omega
  induction remaining generalizing i with
  | zero => rw [checkedElements, if_pos (by simpa using hi), List.range'_zero, List.map_nil]
  | succ remaining ih =>
    rw [checkedElements, checkedUsize_bind (by omega), checkedUsize_bind (by omega),
      checkedUsize_bind (by omega), checkedUsize_bind (by omega)]
    by_cases hend : data.length < offset + 32 + i * 32 + 32
    · rw [if_pos hend, if_neg (by omega)]
    · have hlast : i + 1 + remaining = i + (remaining + 1) := by omega
      rw [if_neg hend, checkedUsize_bind (by omega),
        checkedSlice_bind 20 (by omega) (not_lt.mp hend), ih (i + 1) (by omega), hlast]
      split_ifs <;> rfl

end Header

/-- Where the checked run has an answer, the release build has the same. -/
def Agrees {α : Type} (checked : Except CheckedFault α) (release : Except DecodeFault α) : Prop :=
  match checked with
  | .ok a => release = .ok a
  | .error .undecodable => release = .error .undecodable
  | .error .overflow => True
  | .error .outOfRange => True
  | .error .oversizedAllocation => True

section Agrees
variable {α β : Type} {room : ℕ} {data : Bytes}

theorem Agrees.bind {checked : Except CheckedFault α} {release : Except DecodeFault α}
    (h : Agrees checked release) {f : α → Except CheckedFault β} {g : α → Except DecodeFault β}
    (hf : ∀ a, Agrees (f a) (g a)) : Agrees (checked >>= f) (release >>= g) := by
  cases checked with
  | ok a =>
    rw [h]
    exact hf a
  | error fault =>
    cases fault with
    | undecodable =>
      rw [h]
      rfl
    | overflow => trivial
    | outOfRange => trivial
    | oversizedAllocation => trivial

theorem Agrees.usize {n : ℕ} {f : ℕ → Except CheckedFault α} {release : Except DecodeFault α}
    (h : usizeWrap n = n → Agrees (f n) release) : Agrees (checkedUsize n >>= f) release := by
  by_cases hn : n < 2 ^ 64
  · rw [checkedUsize_bind hn]
    exact h (Nat.mod_eq_of_lt hn)
  · rw [checkedUsize_bind_overflow (not_lt.mp hn)]
    trivial

theorem agrees_slice (start stop : ℕ) :
    Agrees (checkedSlice data start stop) (slice data start stop) := by
  unfold checkedSlice slice
  split_ifs
  · rfl
  · trivial

theorem agrees_header : Agrees (checkedHeader data) (arrayHeader data) := by
  unfold checkedHeader arrayHeader
  split_ifs with hshort
  · rfl
  · refine Agrees.bind (agrees_slice 24 32) (fun word => Agrees.usize (fun hstop => ?_))
    dsimp only
    rw [hstop]
    split_ifs with hpast
    · rfl
    · refine Agrees.usize (fun hstart => ?_)
      rw [hstart]
      exact Agrees.bind (agrees_slice _ _) (fun _ => rfl)

theorem agrees_elements (offset i remaining : ℕ) :
    Agrees (checkedElements data offset i remaining) (decodeElements data offset i remaining) := by
  induction remaining generalizing i with
  | zero => rfl
  | succ remaining ih =>
    unfold checkedElements decodeElements
    refine Agrees.usize (fun _ => Agrees.usize (fun _ => Agrees.usize (fun hstart => ?_)))
    rw [hstart]
    refine Agrees.usize (fun hstop => ?_)
    dsimp only
    rw [hstop]
    split_ifs
    · rfl
    · refine Agrees.usize (fun hword => ?_)
      rw [hword]
      exact Agrees.bind (agrees_slice _ _) (fun _ => Agrees.bind (ih (i + 1)) (fun _ => rfl))

theorem agrees_decode (hroom : room * 20 ≤ isizeMax) :
    Agrees (checkedDecode room data) (decodeAddressArray data) := by
  unfold checkedDecode decodeAddressArray
  refine Agrees.bind agrees_header ?_
  rintro ⟨offset, length⟩
  by_cases hlength : room < length
  · simp only [hlength, ↓reduceIte]
    trivial
  · have hcapacity : ¬ isizeMax < length * 20 := by omega
    simp only [hlength, hcapacity, ↓reduceIte]
    exact agrees_elements offset 0 length

end Agrees

/-- The decoder answers with `Ok` or `Err`: no panic, no overflow, no slice out of range, and no
allocation for more than `room` elements. -/
structure DecodesSafely (room : ℕ) (data : Bytes) : Prop where
  noPanic : decodeAddressArray data ≠ .error .panic
  answers : checkedDecode room data = .error .undecodable ∨
    ∃ addresses, checkedDecode room data = .ok addresses

section Safe
variable {room : ℕ} {data : Bytes}

theorem Agrees.noPanic {release : Except DecodeFault (List Address)}
    (h : Agrees (checkedDecode room data) release)
    (hanswers : checkedDecode room data = .error .undecodable ∨
      ∃ addresses, checkedDecode room data = .ok addresses) : release ≠ .error .panic := by
  rcases hanswers with herr | ⟨addresses, hok⟩
  · rw [herr] at h
    rw [show release = _ from h]
    simp
  · rw [hok] at h
    rw [show release = _ from h]
    simp

theorem checkedDecode_long (h : 64 ≤ data.length) :
    checkedDecode room data =
      if 2 ^ 64 ≤ arrayOffset data + 32 then .error .overflow
      else if data.length < arrayOffset data + 32 then .error .undecodable
      else if room < arrayLength data then .error .oversizedAllocation
      else checkedElements data (arrayOffset data) 0 (arrayLength data) := by
  rw [checkedDecode, checkedHeader_long h]
  split_ifs with hover hpast hroom
  · rfl
  · rfl
  · simp only [bind, Except.bind, hroom, ↓reduceIte]
  · simp only [bind, Except.bind, hroom, ↓reduceIte]

end Safe

/-- For any `room` up to the number of words in the buffer, the decoder is safe exactly if the
buffer is too short to be looked at, or its offset is an address and either points past the end
or to a length within the room. -/
theorem decodesSafely_iff {room : ℕ} {data : Bytes} (hslice : data.length ≤ isizeMax)
    (hroom : room * 32 ≤ data.length) :
    DecodesSafely room data ↔
      data.length < 64 ∨
        arrayOffset data + 32 < 2 ^ 64 ∧
          (data.length < arrayOffset data + 32 ∨ arrayLength data ≤ room) := by
  have hagrees := @agrees_decode room data (by omega)
  have hiff : DecodesSafely room data ↔ (checkedDecode room data = .error .undecodable ∨
      ∃ addresses, checkedDecode room data = .ok addresses) :=
    ⟨fun h => h.answers, fun h => ⟨hagrees.noPanic h, h⟩⟩
  rw [hiff]
  by_cases hshort : data.length < 64
  · have hdecode : checkedDecode room data = .error .undecodable := by
      rw [checkedDecode, checkedHeader_short hshort]
      rfl
    exact ⟨fun _ => .inl hshort, fun _ => .inl hdecode⟩
  · rw [checkedDecode_long (not_lt.mp hshort)]
    split_ifs with hover hpast hlength
    · constructor
      · rintro (h | ⟨_, h⟩) <;> cases h
      · omega
    · exact ⟨fun _ => .inr ⟨not_le.mp hover, .inl hpast⟩, fun _ => .inl rfl⟩
    · constructor
      · rintro (h | ⟨_, h⟩) <;> cases h
      · omega
    · have hleft : arrayOffset data + 32 + 0 * 32 ≤ data.length := by omega
      rw [checkedElements_eq hslice 0 (arrayLength data) hleft]
      constructor
      · intro _
        exact .inr ⟨by omega, .inr (by omega)⟩
      · intro _
        split_ifs
        · exact .inr ⟨_, rfl⟩
        · exact .inl rfl

def hugeLength : Bytes := beWord 32 ++ beWord (2 ^ 63)

theorem hugeLength_panics :
    hugeLength.length ≤ isizeMax ∧ decodeAddressArray hugeLength = .error .panic ∧
      checkedDecode (hugeLength.length / 32) hugeLength = .error .oversizedAllocation := by
  decide +kernel

/-- Two addresses with room for four words. -/
theorem decodesSafely_iff_twoAddresses :
    DecodesSafely 4 (encodeAddressArray [1#160, 2#160]) ↔
      (encodeAddressArray [1#160, 2#160]).length < 64 ∨
        arrayOffset (encodeAddressArray [1#160, 2#160]) + 32 < 2 ^ 64 ∧
          ((encodeAddressArray [1#160, 2#160]).length <
              arrayOffset (encodeAddressArray [1#160, 2#160]) + 32 ∨
            arrayLength (encodeAddressArray [1#160, 2#160]) ≤ 4) :=
  decodesSafely_iff (by decide +kernel) (by decide +kernel)

end RethGnosis
