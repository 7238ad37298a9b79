import EarlyBoot.Bytes.Endian

set_option autoImplicit false

namespace EarlyBoot

structure Memory where
  byte : UInt64 → UInt8

namespace Memory

def zero : Memory := ⟨fun _ => 0⟩

def read (memory : Memory) (address : UInt64) (length : Nat) : List UInt8 :=
  (List.range length).map fun index => memory.byte (address + UInt64.ofNat index)

def write (memory : Memory) (address : UInt64) (bytes : List UInt8) : Memory :=
  let window := bytes.toArray
  ⟨fun target => window.getD (target - address).toNat (memory.byte target)⟩

-- the two ranges do not overlap
def copy (memory : Memory) (source destination length : UInt64) : Memory :=
  ⟨fun target =>
    if target - destination < length then memory.byte (source + (target - destination))
    else memory.byte target⟩

def readWord (memory : Memory) (address : UInt64) : UInt64 :=
  UInt64.ofNat (Bytes.ofLittleEndian (memory.read address 8))

@[simp]
theorem length_read (memory : Memory) (address : UInt64) (length : Nat) :
    (memory.read address length).length = length := by
  simp [read]

theorem byte_write (memory : Memory) (address : UInt64) (bytes : List UInt8) (target : UInt64) :
    (memory.write address bytes).byte target =
      (bytes[(target - address).toNat]?).getD (memory.byte target) := by
  simp [write, Array.getD_eq_getD_getElem?]

theorem byte_copy (memory : Memory) (source destination length target : UInt64) :
    (memory.copy source destination length).byte target =
      if target - destination < length then memory.byte (source + (target - destination))
      else memory.byte target := rfl

end Memory

end EarlyBoot
