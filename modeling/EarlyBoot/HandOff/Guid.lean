import EarlyBoot.Bytes.Endian
import EarlyBoot.Text.Hex

set_option autoImplicit false

namespace EarlyBoot.HandOff

structure Guid where
  first : UInt32
  second : UInt16
  third : UInt16
  -- the last eight bytes, the first of them in the highest place
  tail : UInt64
  deriving DecidableEq, Repr

namespace Guid

def zero : Guid := ⟨0, 0, 0, 0⟩

def deviceTree : Guid := ⟨0x16958446, 0x19b7, 0x480b, 0xb0477485ad3f716d⟩

def encode (guid : Guid) : List UInt8 :=
  Bytes.littleEndian 4 guid.first.toNat ++ Bytes.littleEndian 2 guid.second.toNat ++
    Bytes.littleEndian 2 guid.third.toNat ++ Bytes.bigEndian 8 guid.tail.toNat

def text (guid : Guid) : String :=
  String.intercalate "-" [
    Hex.padded 8 guid.first.toNat,
    Hex.padded 4 guid.second.toNat,
    Hex.padded 4 guid.third.toNat,
    Hex.padded 4 (guid.tail >>> 48).toNat,
    Hex.padded 12 (guid.tail &&& 0xffffffffffff).toNat]

@[simp]
theorem length_encode (guid : Guid) : guid.encode.length = 16 := by
  simp [encode]

end Guid

end EarlyBoot.HandOff
