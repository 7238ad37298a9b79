import EarlyBoot.HandOff.Block
import EarlyBoot.Platform.Discovery

set_option autoImplicit false

namespace EarlyBoot.Platform

open HandOff (Block)

structure MemoryPlan where
  window : Window
  permanentMemory : Region
  descriptors : List Block
  deriving DecidableEq, Repr

namespace MemoryPlan

def refuse {α : Type} (text : String) (failure : Failure) : Attempt α := do
  .log .error .planning text
  .fail failure

def stopOf (region : Region) : Attempt UInt64 :=
  match region.stop? with
  | none => .fail .addressOverflow
  | some stop => pure stop

def usableRange (region : Region) : List Block :=
  if region.isEmpty then [] else [.usableMemory region]

def undivided (window : Window) (usable : Region) : MemoryPlan :=
  ⟨window, usable, [.usableMemory usable]⟩

def divided (window : Window) (below above : Region) : MemoryPlan :=
  ⟨window, if below.isEmpty then above else below,
    usableRange below ++ [.reservedMemory window.reserved] ++ usableRange above ++
      [.memoryAllocation window.system .reserved]⟩

def carve (window : Window) (start stop reservedStop : UInt64) : Attempt MemoryPlan :=
  let reserved := window.reserved
  if reserved.isEmpty || reservedStop ≤ start then
    pure (undivided window (.between start stop))
  else if reserved.base < start then
    refuse ("reserved region " ++ reserved.describe ++ " starts below " ++
      Hex.render start.toNat) .usableWindowUnderflow
  else
    let plan := divided window (.between start reserved.base) (.between reservedStop stop)
    if plan.permanentMemory.isEmpty then
      refuse ("reserved region " ++ reserved.describe ++ " leaves no usable memory")
        .usableWindowUnderflow
    else pure plan

def isOutside (window : Window) (stop reservedStop : UInt64) : Bool :=
  !window.reserved.isEmpty &&
    (window.reserved.base < window.system.base || stop < reservedStop)

def ofWindow (window : Window) (reservedPrefix : UInt64) : Attempt MemoryPlan := do
  let system := window.system
  if system.isEmpty then refuse "no system memory" .noSystemMemory
  else
    let stop ← stopOf system
    let start ← stopOf ⟨system.base, reservedPrefix⟩
    if stop ≤ start then
      refuse ("system memory size " ++ Hex.render system.size.toNat ++
        " does not exceed the firmware prefix " ++ Hex.render reservedPrefix.toNat)
        .usableWindowUnderflow
    else
      let reservedStop ← stopOf window.reserved
      if isOutside window stop reservedStop then
        refuse ("reserved region " ++ window.reserved.describe ++
          " is not inside system memory " ++ system.describe)
          (.reservedOutsideSystemMemory window.reserved)
      else carve window start stop reservedStop

end MemoryPlan

end EarlyBoot.Platform
