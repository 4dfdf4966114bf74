import Mathlib.Algebra.Order.Ring.Nat
import Mathlib.Data.List.Induction
import Mathlib.Data.Nat.Basic
import Mathlib.Tactic.Ring
import Mathlib.Tactic.SplitIfs

set_option autoImplicit false

/-!
# RLP strings and lists of strings

Big-endian integers, the RLP header, and the encoding of a byte string and of a list
of byte strings. Splitting an encoding gives the string back with what follows it, so
equal encodings come from equal lists.
-/
namespace Rlp

def value (bytes : List UInt8) : ℕ := bytes.foldl (fun n byte => n * 256 + byte.toNat) 0

def fixedBytes : ℕ → ℕ → List UInt8
  | 0, _ => []
  | width + 1, n => fixedBytes width (n / 256) ++ [UInt8.ofNat n]

def trimmedBytes (width n : ℕ) : List UInt8 :=
  (fixedBytes width n).dropWhile (fun byte => byte == 0)

theorem length_fixedBytes (width n : ℕ) : (fixedBytes width n).length = width := by
  induction width generalizing n with
  | zero => rfl
  | succ width ih => rw [fixedBytes, List.length_append, ih, List.length_singleton]

theorem value_append_singleton (bytes : List UInt8) (byte : UInt8) :
    value (bytes ++ [byte]) = value bytes * 256 + byte.toNat := by
  simp only [value, List.foldl_append, List.foldl_cons, List.foldl_nil]

theorem value_append (a b : List UInt8) : value (a ++ b) = value a * 256 ^ b.length + value b := by
  induction b using List.reverseRecOn with
  | nil => simp [value]
  | append_singleton b byte ih =>
    rw [← List.append_assoc, value_append_singleton, ih, value_append_singleton, List.length_append,
      List.length_singleton, Nat.pow_succ]
    ring

theorem value_fixedBytes (width n : ℕ) : value (fixedBytes width n) = n % 256 ^ width := by
  induction width generalizing n with
  | zero => simp [value, fixedBytes, Nat.mod_one]
  | succ width ih =>
    have hbyte : (UInt8.ofNat n).toNat = n % 256 := UInt8.toNat_ofNat'
    rw [fixedBytes, value_append_singleton, ih, hbyte, Nat.pow_succ, Nat.mul_comm (256 ^ width),
      Nat.mod_mul]
    ring

theorem value_fixedBytes_of_lt {width n : ℕ} (h : n < 256 ^ width) :
    value (fixedBytes width n) = n := by
  rw [value_fixedBytes, Nat.mod_eq_of_lt h]

theorem value_dropWhile_zero (bytes : List UInt8) :
    value (bytes.dropWhile (fun byte => byte == 0)) = value bytes := by
  induction bytes with
  | nil => rfl
  | cons byte rest ih =>
    rw [List.dropWhile_cons]
    split_ifs with hzero
    · rw [ih, beq_iff_eq.mp hzero]
      rfl
    · rfl

theorem value_trimmedBytes {width n : ℕ} (h : n < 256 ^ width) :
    value (trimmedBytes width n) = n := by
  rw [trimmedBytes, value_dropWhile_zero, value_fixedBytes_of_lt h]

theorem length_trimmedBytes_le (width n : ℕ) : (trimmedBytes width n).length ≤ width := by
  have h := (List.dropWhile_sublist (fun byte : UInt8 => byte == 0)
    (l := fixedBytes width n)).length_le
  rwa [length_fixedBytes] at h

theorem fixedBytes_append {a b width : ℕ} (hb : b < 256 ^ width) (high : ℕ) :
    fixedBytes (high + width) (a * 256 ^ width + b) = fixedBytes high a ++ fixedBytes width b := by
  induction width generalizing b with
  | zero =>
    obtain rfl : b = 0 := by omega
    simp [fixedBytes]
  | succ width ih =>
    have hpow : a * 256 ^ (width + 1) + b = a * 256 ^ width * 256 + b := by
      rw [Nat.pow_succ, Nat.mul_assoc]
    have hdiv : (a * 256 ^ width * 256 + b) / 256 = a * 256 ^ width + b / 256 := by omega
    have hbyte : UInt8.ofNat (a * 256 ^ width * 256 + b) = UInt8.ofNat b := by
      apply UInt8.toNat_inj.mp
      rw [UInt8.toNat_ofNat', UInt8.toNat_ofNat']
      omega
    have hsmall : b / 256 < 256 ^ width := by
      rw [Nat.pow_succ] at hb
      omega
    rw [← Nat.add_assoc, fixedBytes, hpow, hdiv, hbyte, ih hsmall, fixedBytes, List.append_assoc]

theorem fixedBytes_inj {width a b : ℕ} (ha : a < 256 ^ width) (hb : b < 256 ^ width)
    (h : fixedBytes width a = fixedBytes width b) : a = b := by
  have hvalue := congrArg value h
  rwa [value_fixedBytes_of_lt ha, value_fixedBytes_of_lt hb] at hvalue

theorem trimmedBytes_inj {width a b : ℕ} (ha : a < 256 ^ width) (hb : b < 256 ^ width)
    (h : trimmedBytes width a = trimmedBytes width b) : a = b := by
  have hvalue := congrArg value h
  rwa [value_trimmedBytes ha, value_trimmedBytes hb] at hvalue

/-- The header of a string (`0x80`) or of a list (`0xc0`) with a payload of this length. -/
def encodeHeader (code payloadLength : ℕ) : List UInt8 :=
  if payloadLength < 56 then [UInt8.ofNat (code + payloadLength)]
  else
    let length := trimmedBytes 8 payloadLength
    UInt8.ofNat (code + 55 + length.length) :: length

def isSingleByte : List UInt8 → Bool
  | [byte] => byte.toNat < 0x80
  | _ => false

def encodeString (bytes : List UInt8) : List UInt8 :=
  if isSingleByte bytes then bytes else encodeHeader 0x80 bytes.length ++ bytes

def encodeStrings (strings : List (List UInt8)) : List UInt8 := strings.flatMap encodeString

def encodeList (strings : List (List UInt8)) : List UInt8 :=
  encodeHeader 0xc0 (encodeStrings strings).length ++ encodeStrings strings

def lengthOfHeader (payloadLength : ℕ) : ℕ :=
  if payloadLength < 56 then 1 else 1 + (trimmedBytes 8 payloadLength).length

def lengthOfString (bytes : List UInt8) : ℕ :=
  if isSingleByte bytes then 1 else lengthOfHeader bytes.length + bytes.length

theorem length_encodeHeader (code payloadLength : ℕ) :
    (encodeHeader code payloadLength).length = lengthOfHeader payloadLength := by
  unfold encodeHeader lengthOfHeader
  split_ifs
  · rfl
  · simp only [List.length_cons]
    omega

theorem length_encodeString (bytes : List UInt8) :
    (encodeString bytes).length = lengthOfString bytes := by
  unfold encodeString lengthOfString
  split_ifs with hsingle
  · match bytes, hsingle with
    | [_], _ => rfl
  · rw [List.length_append, length_encodeHeader]

theorem length_encodeStrings (strings : List (List UInt8)) :
    (encodeStrings strings).length = (strings.map lengthOfString).sum := by
  induction strings with
  | nil => rfl
  | cons bytes rest ih =>
    rw [List.map_cons, List.sum_cons, ← ih, ← length_encodeString]
    exact List.length_append

theorem lengthOfString_le (bytes : List UInt8) : lengthOfString bytes ≤ bytes.length + 9 := by
  have hwidth := length_trimmedBytes_le 8 bytes.length
  unfold lengthOfString lengthOfHeader
  split_ifs <;> omega

theorem length_encodeStrings_le (strings : List (List UInt8)) :
    (encodeStrings strings).length ≤ (strings.map List.length).sum + 9 * strings.length := by
  rw [length_encodeStrings]
  induction strings with
  | nil => exact Nat.le_refl 0
  | cons bytes rest ih =>
    have hfirst := lengthOfString_le bytes
    simp only [List.map_cons, List.sum_cons, List.length_cons]
    omega

def splitHeader (code : ℕ) : List UInt8 → Option (ℕ × List UInt8)
  | [] => none
  | first :: rest =>
    if first.toNat < code + 56 then some (first.toNat - code, rest)
    else
      let width := first.toNat - (code + 55)
      some (value (rest.take width), rest.drop width)

theorem splitHeader_encode {code payloadLength : ℕ} (hcode : code + 64 ≤ 256)
    (hlength : payloadLength < 2 ^ 64) (rest : List UInt8) :
    splitHeader code (encodeHeader code payloadLength ++ rest) = some (payloadLength, rest) := by
  unfold encodeHeader
  split_ifs with hshort
  · have hfirst : (UInt8.ofNat (code + payloadLength)).toNat = code + payloadLength :=
      UInt8.toNat_ofNat_of_lt' (by change _ < 256; omega)
    simp only [splitHeader, List.singleton_append, hfirst]
    rw [if_pos (by omega), Nat.add_sub_cancel_left]
  · have hwidth := length_trimmedBytes_le 8 payloadLength
    have hvalue : value (trimmedBytes 8 payloadLength) = payloadLength :=
      value_trimmedBytes (by norm_num; omega)
    have hpos : 0 < (trimmedBytes 8 payloadLength).length := by
      rw [List.length_pos_iff]
      intro hnil
      rw [hnil] at hvalue
      exact hshort (by rw [← hvalue]; decide)
    have hfirst : (UInt8.ofNat (code + 55 + (trimmedBytes 8 payloadLength).length)).toNat =
        code + 55 + (trimmedBytes 8 payloadLength).length :=
      UInt8.toNat_ofNat_of_lt' (by change _ < 256; omega)
    simp only [splitHeader, List.cons_append, hfirst]
    rw [if_neg (by omega), Nat.add_sub_cancel_left, List.take_left, List.drop_left, hvalue]

def splitString (bytes : List UInt8) : Option (List UInt8 × List UInt8) :=
  match bytes with
  | [] => none
  | first :: rest =>
    if first.toNat < 0x80 then some ([first], rest)
    else
      match splitHeader 0x80 (first :: rest) with
      | some (length, payload) => some (payload.take length, payload.drop length)
      | none => none

theorem encodeHeader_first {payloadLength : ℕ} (hlength : payloadLength < 2 ^ 64) :
    ∃ first rest, encodeHeader 0x80 payloadLength = first :: rest ∧ 0x80 ≤ first.toNat := by
  unfold encodeHeader
  split_ifs with hshort
  · refine ⟨_, _, rfl, ?_⟩
    rw [UInt8.toNat_ofNat_of_lt' (by change _ < 256; omega)]
    omega
  · have hwidth := length_trimmedBytes_le 8 payloadLength
    refine ⟨_, _, rfl, ?_⟩
    rw [UInt8.toNat_ofNat_of_lt' (by change _ < 256; omega)]
    omega

theorem splitString_encode {bytes : List UInt8} (hlength : bytes.length < 2 ^ 64)
    (rest : List UInt8) : splitString (encodeString bytes ++ rest) = some (bytes, rest) := by
  unfold encodeString
  split_ifs with hsingle
  · match bytes, hsingle with
    | [byte], hlow =>
      simp only [isSingleByte, decide_eq_true_eq] at hlow
      simp only [splitString, List.singleton_append, hlow, ↓reduceIte]
  · obtain ⟨first, tail, hheader, hfirst⟩ := encodeHeader_first hlength
    have hsplit := @splitHeader_encode 0x80 _ (by omega) hlength (bytes ++ rest)
    rw [hheader, List.cons_append] at hsplit
    rw [hheader, List.append_assoc, List.cons_append]
    simp only [splitString]
    rw [if_neg (by omega), hsplit]
    simp only [List.take_left, List.drop_left]

theorem encodeString_append_inj {a b r s : List UInt8} (ha : a.length < 2 ^ 64)
    (hb : b.length < 2 ^ 64) (h : encodeString a ++ r = encodeString b ++ s) : a = b ∧ r = s := by
  have hsplit := splitString_encode ha r
  rw [h, splitString_encode hb s, Option.some.injEq, Prod.mk.injEq] at hsplit
  exact ⟨hsplit.1.symm, hsplit.2.symm⟩

theorem encodeString_ne_nil {bytes : List UInt8} (h : bytes.length < 2 ^ 64) :
    encodeString bytes ≠ [] := by
  intro hnil
  have hsplit := splitString_encode h []
  rw [hnil] at hsplit
  exact absurd hsplit (by simp [splitString])

theorem encodeStrings_inj {xs ys : List (List UInt8)} (hx : ∀ x ∈ xs, x.length < 2 ^ 64)
    (hy : ∀ y ∈ ys, y.length < 2 ^ 64) (h : encodeStrings xs = encodeStrings ys) : xs = ys := by
  induction xs generalizing ys with
  | nil =>
    cases ys with
    | nil => rfl
    | cons y rest =>
      have hnil := h.symm
      simp only [encodeStrings, List.flatMap_cons, List.flatMap_nil, List.append_eq_nil_iff] at hnil
      exact absurd hnil.1 (encodeString_ne_nil (hy y List.mem_cons_self))
  | cons x rest ih =>
    cases ys with
    | nil =>
      simp only [encodeStrings, List.flatMap_cons, List.flatMap_nil, List.append_eq_nil_iff] at h
      exact absurd h.1 (encodeString_ne_nil (hx x List.mem_cons_self))
    | cons y others =>
      simp only [encodeStrings, List.flatMap_cons] at h
      obtain ⟨hxy, hrest⟩ := encodeString_append_inj (hx x List.mem_cons_self)
        (hy y List.mem_cons_self) h
      rw [hxy, ih (fun z hz => hx z (List.mem_cons_of_mem _ hz))
        (fun z hz => hy z (List.mem_cons_of_mem _ hz)) hrest]

/-- Equal encodings come from equal lists of strings. -/
theorem encodeList_inj {xs ys : List (List UInt8)} (hx : ∀ x ∈ xs, x.length < 2 ^ 64)
    (hy : ∀ y ∈ ys, y.length < 2 ^ 64) (hxs : (encodeStrings xs).length < 2 ^ 64)
    (hys : (encodeStrings ys).length < 2 ^ 64) (h : encodeList xs = encodeList ys) : xs = ys := by
  have hsplit := @splitHeader_encode 0xc0 _ (by omega) hxs (encodeStrings xs)
  unfold encodeList at h
  rw [h, splitHeader_encode (by omega) hys, Option.some.injEq, Prod.mk.injEq] at hsplit
  exact encodeStrings_inj hx hy hsplit.2.symm

end Rlp
