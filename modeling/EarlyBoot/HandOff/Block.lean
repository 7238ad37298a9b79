import EarlyBoot.HandOff.Attributes
import EarlyBoot.HandOff.Guid
import EarlyBoot.Memory.Region

set_option autoImplicit false

namespace EarlyBoot.HandOff

inductive MemoryKind where
  | reserved
  | loaderCode
  | loaderData
  | bootServicesCode
  | bootServicesData
  | runtimeServicesCode
  | runtimeServicesData
  | conventional
  | unusable
  | acpiReclaim
  | acpiNvs
  | memoryMappedIo
  | memoryMappedIoPortSpace
  | palCode
  | persistent
  deriving DecidableEq, Repr

namespace MemoryKind

def all : List MemoryKind :=
  [.reserved, .loaderCode, .loaderData, .bootServicesCode, .bootServicesData,
    .runtimeServicesCode, .runtimeServicesData, .conventional, .unusable, .acpiReclaim, .acpiNvs,
    .memoryMappedIo, .memoryMappedIoPortSpace, .palCode, .persistent]

def code (kind : MemoryKind) : UInt32 :=
  UInt32.ofNat (all.idxOf kind)

def ofCode? (code : UInt32) : Option MemoryKind :=
  all[code.toNat]?

theorem ofCode?_code (kind : MemoryKind) : ofCode? kind.code = some kind := by
  cases kind <;> decide

end MemoryKind

inductive ResourceKind where
  | systemMemory
  | memoryMappedIo
  | io
  | firmwareDevice
  | memoryMappedIoPort
  | memoryReserved
  | ioReserved
  deriving DecidableEq, Repr

namespace ResourceKind

def all : List ResourceKind :=
  [.systemMemory, .memoryMappedIo, .io, .firmwareDevice, .memoryMappedIoPort, .memoryReserved,
    .ioReserved]

def code (kind : ResourceKind) : UInt32 :=
  UInt32.ofNat (all.idxOf kind)

def ofCode? (code : UInt32) : Option ResourceKind :=
  all[code.toNat]?

theorem ofCode?_code (kind : ResourceKind) : ofCode? kind.code = some kind := by
  cases kind <;> decide

end ResourceKind

inductive BlockKind where
  | handOff
  | memoryAllocation
  | resourceDescriptor
  | guidExtension
  | firmwareVolume
  | endOfList
  deriving DecidableEq, Repr

namespace BlockKind

def all : List BlockKind :=
  [.handOff, .memoryAllocation, .resourceDescriptor, .guidExtension, .firmwareVolume, .endOfList]

def code : BlockKind → UInt16
  | .handOff => 1
  | .memoryAllocation => 2
  | .resourceDescriptor => 3
  | .guidExtension => 4
  | .firmwareVolume => 5
  | .endOfList => 0xffff

def ofCode? (code : UInt16) : Option BlockKind :=
  all.find? fun kind => kind.code = code

def label : BlockKind → String
  | .handOff => "Handoff"
  | .memoryAllocation => "MemoryAllocation"
  | .resourceDescriptor => "ResourceDescriptor"
  | .guidExtension => "GuidExtension"
  | .firmwareVolume => "FirmwareVolume"
  | .endOfList => "EndOfHobList"

theorem ofCode?_code (kind : BlockKind) : ofCode? kind.code = some kind := by
  cases kind <;> decide

end BlockKind

inductive Block where
  | memoryAllocation (region : Region) (kind : MemoryKind)
  | memoryRange (region : Region) (attributes : Attributes)
  | reservedRange (region : Region) (attributes : Attributes)
  | firmwareVolume (region : Region)
  | generic (name : Guid) (data : UInt64)
  deriving DecidableEq, Repr

namespace Block

def usableMemory (region : Region) : Block :=
  .memoryRange region .usable

def reservedMemory (region : Region) : Block :=
  .reservedRange region .reserved

def region? : Block → Option Region
  | .memoryAllocation region _ => some region
  | .memoryRange region _ => some region
  | .reservedRange region _ => some region
  | .firmwareVolume region => some region
  | .generic _ _ => none

def isAllocation : Block → Bool
  | .memoryAllocation _ _ => true
  | _ => false

def kind : Block → BlockKind
  | .memoryAllocation _ _ => .memoryAllocation
  | .memoryRange _ _ => .resourceDescriptor
  | .reservedRange _ _ => .resourceDescriptor
  | .firmwareVolume _ => .firmwareVolume
  | .generic _ _ => .guidExtension

end Block

end EarlyBoot.HandOff
