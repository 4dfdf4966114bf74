import Mathlib.Algebra.Order.Ring.Nat
import Mathlib.Logic.Function.Iterate

set_option autoImplicit false

/-!
# CRC-32

The reflected checksum with polynomial 04C11DB7, bit by bit. An update continues the
checksum of what came before, and no two checksums become equal by the same update.
-/
namespace Crc32

/-- The polynomial with its bits in reverse. -/
def polynomial : BitVec 32 := 0xEDB88320#32

def bitStep (crc : BitVec 32) : BitVec 32 :=
  if crc.getLsbD 0 then (crc >>> 1) ^^^ polynomial else crc >>> 1

def byteStep (crc : BitVec 32) (byte : UInt8) : BitVec 32 :=
  bitStep^[8] (crc ^^^ byte.toBitVec.setWidth 32)

/-- The checksum of some bytes followed by these, from the checksum of the former. -/
def update (crc : BitVec 32) (bytes : List UInt8) : BitVec 32 :=
  ~~~ (bytes.foldl byteStep (~~~ crc))

def checksum (bytes : List UInt8) : BitVec 32 := update 0#32 bytes

/-- "123456789" -/
example : checksum [0x31, 0x32, 0x33, 0x34, 0x35, 0x36, 0x37, 0x38, 0x39] = 0xCBF43926#32 := by
  decide +kernel

theorem bitStep_getLsbD (crc : BitVec 32) (i : ℕ) :
    (bitStep crc).getLsbD i =
      (crc.getLsbD (1 + i)).xor (crc.getLsbD 0 && polynomial.getLsbD i) := by
  unfold bitStep
  cases hlow : crc.getLsbD 0 with
  | true =>
    rw [if_pos rfl, BitVec.getLsbD_xor, BitVec.getLsbD_ushiftRight, Bool.true_and]
  | false =>
    rw [if_neg Bool.false_ne_true, BitVec.getLsbD_ushiftRight, Bool.false_and, Bool.xor_false]

theorem bitStep_top (crc : BitVec 32) : (bitStep crc).getLsbD 31 = crc.getLsbD 0 := by
  have htop : polynomial.getLsbD 31 = true := by decide
  rw [bitStep_getLsbD, BitVec.getLsbD_of_ge crc (1 + 31) (by omega), htop, Bool.and_true,
    Bool.false_xor]

theorem bitStep_injective : Function.Injective bitStep := by
  intro a b h
  have hlow : a.getLsbD 0 = b.getLsbD 0 := by
    rw [← bitStep_top a, ← bitStep_top b, h]
  apply BitVec.eq_of_getLsbD_eq
  intro i hi
  cases i with
  | zero => exact hlow
  | succ i =>
    have hbit : (bitStep a).getLsbD i = (bitStep b).getLsbD i := by rw [h]
    rw [bitStep_getLsbD, bitStep_getLsbD, hlow, Bool.xor_left_inj] at hbit
    rw [Nat.add_comm]
    exact hbit

theorem byteStep_injective (byte : UInt8) : Function.Injective (fun crc => byteStep crc byte) := by
  intro a b h
  exact (BitVec.xor_left_inj _).mp (bitStep_injective.iterate 8 h)

theorem update_injective (bytes : List UInt8) :
    Function.Injective (fun crc => update crc bytes) := by
  have hfold : ∀ a b : BitVec 32, bytes.foldl byteStep a = bytes.foldl byteStep b → a = b := by
    induction bytes with
    | nil => exact fun _ _ h => h
    | cons byte rest ih =>
      intro a b h
      exact byteStep_injective byte (ih _ _ h)
  intro a b h
  exact BitVec.not_inj.mp (hfold _ _ (BitVec.not_inj.mp h))

end Crc32
