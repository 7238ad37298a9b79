import EarlyBoot.Memory.Physical

set_option autoImplicit false

namespace EarlyBoot

structure ContextRecord where
  bootHart : UInt64
  servicesTable : UInt64
  deviceTree : UInt64
  deriving DecidableEq, Repr

namespace ContextRecord

def initial (bootHart deviceTree : UInt64) : ContextRecord :=
  ⟨bootHart, 0, deviceTree⟩

def size : Nat := 24

def encode (record : ContextRecord) : List UInt8 :=
  Bytes.littleEndian 8 record.bootHart.toNat ++ Bytes.littleEndian 8 record.servicesTable.toNat ++
    Bytes.littleEndian 8 record.deviceTree.toNat

end ContextRecord

def Memory.readContext (memory : Memory) (address : UInt64) : ContextRecord :=
  ⟨memory.readWord address, memory.readWord (address + 8), memory.readWord (address + 16)⟩

def Memory.writeContext (memory : Memory) (address : UInt64) (record : ContextRecord) : Memory :=
  memory.write address record.encode

end EarlyBoot
