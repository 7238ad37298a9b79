import EarlyBoot.HandOff.BlockList
import EarlyBoot.Platform.Config
import EarlyBoot.Platform.MemoryPlan

set_option autoImplicit false

namespace EarlyBoot.Platform

open HandOff (Block BlockList)

abbrev Publication (α : Type) : Type :=
  Routine BlockList α

namespace Publication

def append (block : Block) : Publication Unit := fun list =>
  match list.append block with
  | .error error => (.fail (.descriptor error), list)
  | .ok longer => (pure (), longer)

def announce (block : Block) : Publication Unit :=
  match block.region? with
  | none => pure ()
  | some region =>
    .log .info .planning (block.kind.label ++ ": " ++ Hex.render region.base.toNat ++ " - " ++
      Hex.render region.clippedStop.toNat)

def descriptor (block : Block) : Publication Unit := do
  announce block
  append block

def memory (plan : MemoryPlan) : Publication Unit :=
  plan.descriptors.forM descriptor

def deviceTree (address : UInt64) : Publication Unit := do
  .log .info .planning ("device tree @ " ++ Hex.render address.toNat)
  append (.generic .deviceTree address)

def checkVolumes (earlier : List Region) : List Region → Attempt Unit
  | [] => pure ()
  | volume :: rest =>
    match volume.stop?, earlier.find? fun other => other.overlaps volume with
    | none, _ => .fail .addressOverflow
    | some _, some other => do
      .log .error .volumes ("firmware volume " ++ volume.describe ++ " overlaps " ++
        other.describe)
      .fail (.overlappingAllocation volume)
    | some _, none => checkVolumes (earlier ++ [volume]) rest

def volume (region : Region) : Publication Unit := do
  if region.isEmpty then
    .log .warning .volumes ("skipping empty firmware volume at " ++
      Hex.render region.base.toNat)
  else
    .log .info .volumes ("firmware volume @ " ++ Hex.render region.base.toNat ++ ", size " ++
      Hex.render region.size.toNat)
    append (.memoryAllocation region .bootServicesData)
    append (.firmwareVolume region)

def volumes (regions : List Region) : Publication Unit := do
  .ofAttempt (checkVolumes [] regions)
  regions.forM volume

def platform (config : Config) (content : Memory) (contextPointer : UInt64) :
    Publication MemoryPlan := do
  let window ← .ofAttempt (Discovery.scanContext content contextPointer config.reservedPath)
  let plan ← .ofAttempt (MemoryPlan.ofWindow window config.reservedPrefix)
  .log .info .platform ("PEI memory " ++ plan.permanentMemory.describe)
  memory plan
  deviceTree (content.readContext contextPointer).deviceTree
  volumes config.volumes
  return plan

end Publication

end EarlyBoot.Platform
