import EarlyBoot.HandOff.Block
import EarlyBoot.HandOff.Error

set_option autoImplicit false

namespace EarlyBoot.HandOff

structure BlockList where
  capacity : Nat
  blocks : List Block
  deriving DecidableEq, Repr

namespace BlockList

def empty (capacity : Nat) : BlockList :=
  ⟨capacity, []⟩

def isFull (list : BlockList) : Bool :=
  list.capacity ≤ list.blocks.length

def allocations (list : BlockList) : List Region :=
  (list.blocks.filter Block.isAllocation).filterMap Block.region?

def checkRegion (list : BlockList) (region : Region) (isAllocation : Bool) : Except Error Unit :=
  if region.isEmpty then .error (.zeroLength region.base)
  else
    match region.stop? with
    | none => .error (.addressOverflow region)
    | some stop =>
      -- adjacent allocations may touch
      if isAllocation && list.allocations.any fun other =>
          region.base < other.clippedStop && other.base < stop then
        .error (.overlappingAllocation region)
      else .ok ()

def check (list : BlockList) (block : Block) : Except Error Unit :=
  match block.region? with
  | none => .ok ()
  | some region => list.checkRegion region block.isAllocation

def append (list : BlockList) (block : Block) : Except Error BlockList := do
  if list.isFull then throw .full
  list.check block
  return { list with blocks := list.blocks ++ [block] }

def offer (list : BlockList) (block : Block) : Except Error Unit × BlockList :=
  match list.append block with
  | .ok longer => (.ok (), longer)
  | .error error => (.error error, list)

def offerAll (list : BlockList) : List Block → List (Except Error Unit) × BlockList
  | [] => ([], list)
  | block :: rest =>
    let (reply, after) := list.offer block
    let (replies, last) := after.offerAll rest
    (reply :: replies, last)

end BlockList

end EarlyBoot.HandOff
