import NorFlash.Bytes

/-!
Addresses in command frames: three or four bytes, most significant first. Higher bits of the
address are dropped.
-/
namespace NorFlash

inductive AddressWidth where
  | three
  | four
  deriving DecidableEq, Repr, Inhabited

namespace AddressWidth

def bytes : AddressWidth → Nat
  | three => 3
  | four => 4

def encode (width : AddressWidth) (address : UInt32) : List UInt8 :=
  let low := [(address >>> 16).toUInt8, (address >>> 8).toUInt8, address.toUInt8]
  match width with
  | three => low
  | four => (address >>> 24).toUInt8 :: low

@[simp] theorem length_encode (width : AddressWidth) (address : UInt32) :
    (width.encode address).length = width.bytes := by
  cases width <;> rfl

/-- Encodes at the start of a buffer, which has to hold the whole address. -/
def encodeInto? (width : AddressWidth) (address : UInt32) (buffer : ByteArray) :
    Option ByteArray :=
  if width.bytes ≤ buffer.size then
    some (Bytes.overlay buffer 0 (Bytes.ofList (width.encode address)))
  else
    none

/-- The number that a list of bytes spells, most significant first. -/
def decode (bytes : List UInt8) : Nat :=
  bytes.foldl (fun value byte => value * 256 + byte.toNat) 0

theorem decode_encode_four (address : UInt32) :
    decode (four.encode address) = address.toNat := by
  have h : address.toNat < 2 ^ 32 := address.toNat_lt
  simp [decode, encode, UInt32.toNat_toUInt8, UInt32.toNat_shiftRight, Nat.shiftRight_eq_div_pow]
  omega

theorem decode_encode_three (address : UInt32) :
    decode (three.encode address) = address.toNat % 0x1000000 := by
  have h : address.toNat < 2 ^ 32 := address.toNat_lt
  simp [decode, encode, UInt32.toNat_toUInt8, UInt32.toNat_shiftRight, Nat.shiftRight_eq_div_pow]
  omega

end AddressWidth

end NorFlash
