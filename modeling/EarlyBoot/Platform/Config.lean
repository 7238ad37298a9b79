import EarlyBoot.Memory.Region

set_option autoImplicit false

namespace EarlyBoot.Platform

def maxHarts : Nat := 8

def listCapacity : Nat := 32

def secondaryStackSize : Nat := 0x4000

structure Config where
  reservedPrefix : UInt64
  reservedPath : String
  temporaryRam : Region
  earlyVolume : Region
  driverVolume : Region
  deriving DecidableEq, Repr

namespace Config

def standard : Config where
  reservedPrefix := 0x1000000
  reservedPath := "/reserved-memory/mmode_resv0"
  temporaryRam := ⟨0x80e00000, 0x200000⟩
  earlyVolume := ⟨0x20000000, 0x200000⟩
  driverVolume := ⟨0x20200000, 0xe00000⟩

def volumes (config : Config) : List Region :=
  [config.earlyVolume, config.driverVolume]

def heap (config : Config) : Region :=
  ⟨config.temporaryRam.base, config.temporaryRam.size >>> 1⟩

-- without an odd last byte
def stack (config : Config) : Region :=
  ⟨config.temporaryRam.base + (config.temporaryRam.size >>> 1), config.temporaryRam.size >>> 1⟩

end Config

end EarlyBoot.Platform
