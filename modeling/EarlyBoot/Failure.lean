import EarlyBoot.DeviceTree.Error
import EarlyBoot.HandOff.Error
import EarlyBoot.Supervisor.Status

set_option autoImplicit false

namespace EarlyBoot

inductive Failure where
  | unsupported
  | contextNotFound
  | invalidTree (error : DeviceTree.Error)
  | noSystemMemory
  | reservedOutsideSystemMemory (region : Region)
  | usableWindowUnderflow
  | addressOverflow
  | overlappingAllocation (region : Region)
  | relocationOverlap
  | alreadyRelocated
  | descriptor (error : HandOff.Error)
  | supervisor (refusal : Supervisor.Refusal)
  deriving DecidableEq, Repr

namespace Failure

inductive Category where
  | missingPlatformData
  | configurationInconsistency
  | relocationPrecondition
  | descriptor
  | hardwareCall
  deriving DecidableEq, Repr

def Category.label : Category → String
  | .missingPlatformData => "MissingPlatformData"
  | .configurationInconsistency => "ConfigurationInconsistency"
  | .relocationPrecondition => "RelocationPrecondition"
  | .descriptor => "Descriptor"
  | .hardwareCall => "HardwareCall"

def category : Failure → Category
  | .unsupported | .contextNotFound | .invalidTree _ => .missingPlatformData
  | .noSystemMemory | .reservedOutsideSystemMemory _ | .usableWindowUnderflow
  | .addressOverflow | .overlappingAllocation _ => .configurationInconsistency
  | .relocationOverlap | .alreadyRelocated => .relocationPrecondition
  | .descriptor _ => .descriptor
  | .supervisor _ => .hardwareCall

def isFatal (failure : Failure) : Bool :=
  failure.category ≠ .hardwareCall

def extent (region : Region) : String :=
  Hex.render region.base.toNat ++ "+" ++ Hex.render region.size.toNat

def message : Failure → String
  | .unsupported => "platform data unsupported"
  | .contextNotFound => "firmware context record not found"
  | .invalidTree error => "invalid device tree: " ++ error.message
  | .noSystemMemory => "no system memory found"
  | .reservedOutsideSystemMemory region =>
    "reserved region " ++ extent region ++ " is not inside system memory"
  | .usableWindowUnderflow => "usable memory window underflows"
  | .addressOverflow => "address computation overflows"
  | .overlappingAllocation region =>
    "allocation " ++ extent region ++ " overlaps another allocation"
  | .relocationOverlap => "relocation source and destination overlap"
  | .alreadyRelocated => "temporary RAM has already been migrated"
  | .descriptor error => "cannot append descriptor: " ++ error.message
  | .supervisor refusal => "hardware call failed: " ++ refusal.message

end Failure

end EarlyBoot
