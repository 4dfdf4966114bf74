import RethGnosis.Primitives

set_option autoImplicit false

/-!
# Decoding the validator list

`decode_address_array` as the release build runs it: `usize` arithmetic wraps, and a
slice out of range or an oversized allocation panics.
-/
namespace RethGnosis

def usizeWrap (n : ℕ) : ℕ := n % 2 ^ 64

def isizeMax : ℕ := 2 ^ 63 - 1

inductive DecodeFault where
  | undecodable
  | panic
deriving DecidableEq

def beBytesToNat (bytes : Bytes) : ℕ := bytes.foldl (fun value byte => value * 256 + byte.toNat) 0

/-- `data[start..stop]` -/
def slice (data : Bytes) (start stop : ℕ) : Except DecodeFault Bytes :=
  if start ≤ stop ∧ stop ≤ data.length then .ok ((data.drop start).take (stop - start))
  else .error .panic

def arrayHeader (data : Bytes) : Except DecodeFault (ℕ × ℕ) := do
  if data.length < 64 then throw .undecodable
  let offset := beBytesToNat (← slice data 24 32)
  if data.length < usizeWrap (offset + 32) then throw .undecodable
  let length := beBytesToNat (← slice data (usizeWrap (offset + 24)) (usizeWrap (offset + 32)))
  return (offset, length)

def decodeElements (data : Bytes) (offset : ℕ) : ℕ → ℕ → Except DecodeFault (List Address)
  | _, 0 => .ok []
  | i, remaining + 1 => do
    let start := usizeWrap (offset + 32 + i * 32)
    if data.length < usizeWrap (start + 32) then throw .undecodable
    let word ← slice data (usizeWrap (start + 12)) (usizeWrap (start + 32))
    let rest ← decodeElements data offset (i + 1) remaining
    return BitVec.ofNat 160 (beBytesToNat word) :: rest

def decodeAddressArray (data : Bytes) : Except DecodeFault (List Address) := do
  let (offset, length) ← arrayHeader data
  if isizeMax < length * 20 then throw .panic
  decodeElements data offset 0 length

def beWord (n : ℕ) : Bytes := ((List.range 32).map (fun i => UInt8.ofNat (n / 256 ^ i))).reverse

def encodeAddressArray (addresses : List Address) : Bytes :=
  beWord 32 ++ beWord addresses.length ++ addresses.flatMap (fun address => beWord address.toNat)

example : decodeAddressArray (encodeAddressArray [1#160, 2#160]) = .ok [1#160, 2#160] := by
  decide +kernel

example : decodeAddressArray (List.replicate 63 0) = .error .undecodable := by decide +kernel

end RethGnosis
