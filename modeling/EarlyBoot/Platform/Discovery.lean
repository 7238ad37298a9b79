import EarlyBoot.Attempt
import EarlyBoot.DeviceTree.Path
import EarlyBoot.Supervisor.Context

set_option autoImplicit false

namespace EarlyBoot.Platform

structure Window where
  system : Region
  reserved : Region
  deriving DecidableEq, Repr

namespace Discovery

open DeviceTree (Node)

def isMemory (tree : DeviceTree) (node : Node) : Bool :=
  ((tree.property? node "device_type").bind DeviceTree.Property.text?) = some "memory"

def region? (tree : DeviceTree) (node : Node) : Option Region := do
  let (base, size) ← (← tree.property? node "reg").range?
  return ⟨base, size⟩

def memoryNodes (tree : DeviceTree) : List Node :=
  tree.nodes.filter (isMemory tree)

def memoryRegions (tree : DeviceTree) : List Region :=
  (memoryNodes tree).filterMap (region? tree)

def lowest? : List Region → Option Region
  | [] => none
  | region :: rest =>
    match lowest? rest with
    | none => some region
    -- a later region wins only if it lies strictly lower
    | some other => if other.base < region.base then some other else some region

def systemMemory (tree : DeviceTree) : Region :=
  (lowest? (memoryRegions tree)).getD .absent

def reservedMemory (tree : DeviceTree) (path : String) : Region :=
  ((tree.findNode? path).bind (region? tree)).getD .absent

def window (tree : DeviceTree) (path : String) : Window :=
  ⟨systemMemory tree, reservedMemory tree path⟩

def info (text : String) : Log.Record := ⟨.info, .discovery, text⟩

def warning (text : String) : Log.Record := ⟨.warning, .discovery, text⟩

def memoryRecord (tree : DeviceTree) (node : Node) : Log.Record :=
  match region? tree node with
  | none => warning ("failed to parse memory node " ++ node.name)
  | some region =>
    info ("system RAM @ " ++ Hex.render region.base.toNat ++ " - " ++
      Hex.render (region.base + region.size - 1).toNat)

def reservedRecords (tree : DeviceTree) (path : String) : List Log.Record :=
  match (tree.findNode? path).map (region? tree) with
  | some none => [warning ("failed to parse reserved memory node " ++ path)]
  | _ => []

def records (tree : DeviceTree) (path : String) : List Log.Record :=
  let reserved := reservedMemory tree path
  let system := systemMemory tree
  (memoryNodes tree).map (memoryRecord tree) ++
    (if (memoryRegions tree).isEmpty then [warning "no memory node found"] else []) ++
    reservedRecords tree path ++
    (if reserved.isEmpty then []
      else [info ("M-mode base = " ++ Hex.render reserved.base.toNat ++ ", M-mode size = " ++
        Hex.render reserved.size.toNat)]) ++
    [info ("system memory base = " ++ Hex.render system.base.toNat ++ ", size = " ++
      Hex.render system.size.toNat)]

def scan (tree : DeviceTree) (path : String) : Attempt Window :=
  ⟨.ok (window tree path), records tree path⟩

def scanAt (memory : Memory) (address : UInt64) (path : String) : Attempt Window :=
  if address = 0 then do
    .log .error .discovery "invalid device tree pointer"
    .fail .unsupported
  else
    match DeviceTree.ofMemory memory address with
    | .error error => do
      .log .error .discovery ("invalid device tree: " ++ error.message)
      .fail (.invalidTree error)
    | .ok tree => scan tree path

def scanContext (memory : Memory) (contextPointer : UInt64) (path : String) : Attempt Window :=
  if contextPointer = 0 then do
    .log .error .discovery "firmware context is null"
    .fail .contextNotFound
  else scanAt memory (memory.readContext contextPointer).deviceTree path

def hartId? (tree : DeviceTree) (node : Node) : Option UInt64 := do
  let register ← tree.property? node "reg"
  (register.cell?.map UInt32.toUInt64).or register.doubleCell?

def hartIds (tree : DeviceTree) : List UInt64 :=
  match tree.findNode? "/cpus" with
  | none => []
  | some processors =>
    (processors.children.filter fun node => node.unitName = "cpu").filterMap (hartId? tree)

end Discovery

end EarlyBoot.Platform
