import EarlyBoot.DeviceTree.Structure
import EarlyBoot.Memory.Physical

set_option autoImplicit false

namespace EarlyBoot

structure DeviceTree where
  header : DeviceTree.Header
  block : List UInt8
  strings : List UInt8
  wellFormed : DeviceTree.checkStructure strings block = .ok ()

namespace DeviceTree

def slice? (bytes : List UInt8) (start stop : Nat) : Option (List UInt8) :=
  if start ≤ stop ∧ stop ≤ bytes.length then some ((bytes.drop start).take (stop - start))
  else none

def ofBytes (bytes : List UInt8) : Except Error DeviceTree := do
  let header ← Header.ofBytes bytes
  let total := header.totalSize.toNat
  if bytes.length < total then throw .truncated
  let blob := bytes.take total
  match slice? blob header.structureStart header.structureStop,
      slice? blob header.stringsStart header.stringsStop with
  | some block, some strings =>
    match valid : checkStructure strings block with
    | .error error => throw error
    | .ok () => return { header, block, strings, wellFormed := valid }
  | _, _ => throw .truncated

def ofMemory (memory : Memory) (address : UInt64) : Except Error DeviceTree := do
  if address = 0 then throw .nullPointer
  let header ← Header.ofBytes (memory.read address Header.size)
  ofBytes (memory.read address header.totalSize.toNat)

end DeviceTree

end EarlyBoot
