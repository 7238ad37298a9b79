import EarlyBoot.Boot.Image
import EarlyBoot.Boot.Machine
import EarlyBoot.HandOff.Encoding
import EarlyBoot.Platform.Harts
import EarlyBoot.Platform.Publication
import EarlyBoot.Platform.Relocation

set_option autoImplicit false

namespace EarlyBoot.Boot

open HandOff (BlockList)
open Platform (Config HartReport HartRoutine MemoryPlan Migration Publication Relocation)

namespace BootRoutine

def showVersion (supervisor : Supervisor) : BootRoutine Unit := do
  let reply ← call supervisor .specVersion
  match reply.result with
  | .ok version =>
    let (major, minor) := Supervisor.splitVersion version
    info ("SBI specification v" ++ toString major.toNat ++ "." ++ toString minor.toNat)
  | .error refusal =>
    warn ("failed to get SBI specification version: " ++ refusal.message)

def publish (config : Config) : BootRoutine (MemoryPlan × BlockList) := do
  let machine ← .get
  .within (.empty Platform.listCapacity)
    (Publication.platform config machine.memory machine.contextPointer)

def showIncomplete (report : HartReport) : BootRoutine Unit :=
  if report.isComplete then pure ()
  else warn (toString report.started.length ++ " harts started, " ++
    toString report.failed.length ++ " failed, " ++ toString report.ignored ++ " ignored")

def startHarts (supervisor : Supervisor) (image : Image) (bootHart : UInt64)
    (harts : List UInt64) : BootRoutine HartReport := do
  let machine ← .get
  .on (fun _ => [])
    (fun machine requests =>
      { machine with calls := machine.calls ++ requests.map HartRequest.call })
    (HartRoutine.startSecondary (supervisor.hartService machine.calls bootHart)
      ⟨image.secondaryEntry, fun slot _ => image.stackTop slot⟩ harts)

def startSecondaryHarts (supervisor : Supervisor) (image : Image) (bootHart : UInt64) :
    BootRoutine Unit := do
  let reply ← call supervisor (.probe Supervisor.hartExtension)
  if reply.isPresent then
    let machine ← .get
    match DeviceTree.ofMemory machine.memory machine.context.deviceTree with
    | .error error => .fail (.invalidTree error)
    | .ok tree =>
      let report ← startHarts supervisor image bootHart (Platform.Discovery.hartIds tree)
      showIncomplete report
  else .fail (.supervisor .notSupported)

def survive : Except Failure Unit → BootRoutine Unit
  | .ok () => pure ()
  | .error failure =>
    if failure.isFatal then .fail failure
    else warn ("continuing on the boot hart only: " ++ failure.message)

def planRelocation (config : Config) (image : Image) (plan : MemoryPlan) :
    Attempt Relocation := do
  let relocation ← Relocation.plan config.temporaryRam.base plan.permanentMemory.base
    config.temporaryRam.size
  relocation.checkImage image.region
  if plan.permanentMemory.size < relocation.size then
    .log .error .firmware ("PEI memory " ++ plan.permanentMemory.describe ++
      " is smaller than the temporary RAM")
    .fail .usableWindowUnderflow
  else return relocation

def introduction (relocation : Relocation) (plan : MemoryPlan) : Attempt HandOff.Introduction :=
  match plan.permanentMemory.stop? with
  | none => .fail .addressOverflow
  | some stop => pure {
      memoryBottom := plan.permanentMemory.base
      memoryTop := stop
      listAddress := relocation.newHeap.base }

def writeList (config : Config) (introduction : HandOff.Introduction) (list : BlockList) :
    BootRoutine Unit := do
  match list.encodeWithin introduction config.heap.size.toNat with
  | .error error => .fail (.descriptor error)
  | .ok bytes =>
    write config.heap.base bytes
    info (toString list.blocks.length ++ " hand-off blocks, " ++ Hex.render bytes.length ++
      " bytes")

def migrate (relocation : Relocation) : BootRoutine Int64 := do
  info ("temporary RAM migration: temporary = " ++ Hex.render relocation.temporaryBase.toNat ++
    ", permanent = " ++ Hex.render relocation.permanentBase.toNat ++ ", size = " ++
    Hex.render relocation.size.toNat)
  .on (fun machine => ⟨machine.memory, machine.contextPointer, .runningInTemporary⟩)
    (fun machine (migration : Migration) =>
      { machine with memory := migration.memory, contextPointer := migration.contextPointer })
    relocation.migrate

def arrival (listAddress deviceTree : UInt64) : String :=
  "hand-off block list @ " ++ Hex.render listAddress.toNat ++ ", device tree @ " ++
    Hex.render deviceTree.toNat

def resume (listAddress : UInt64) : BootRoutine Unit := do
  let machine ← .get
  info ("running in permanent memory, context @ " ++ Hex.render machine.contextPointer.toNat)
  info (arrival listAddress machine.context.deviceTree)

-- the supervisor is not asked again behind this
def assemble (supervisor : Supervisor) (image : Image) (bootHart deviceTree : UInt64) :
    BootRoutine (MemoryPlan × BlockList) := do
  showVersion supervisor
  registerContext image.contextAddress (.initial bootHart deviceTree)
  let (plan, list) ← publish .standard
  survive (← .outcome (startSecondaryHarts supervisor image bootHart))
  return (plan, list)

def arrange (config : Config) (image : Image) (plan : MemoryPlan) (list : BlockList) :
    BootRoutine Relocation := do
  let relocation ← .ofAttempt (planRelocation config image plan)
  let first ← .ofAttempt (introduction relocation plan)
  writeList config first list
  return relocation

def prepare (supervisor : Supervisor) (image : Image) (bootHart deviceTree : UInt64) :
    BootRoutine (MemoryPlan × BlockList × Relocation) := do
  let (plan, list) ← assemble supervisor image bootHart deviceTree
  let relocation ← arrange .standard image plan list
  return (plan, list, relocation)

-- gives the address that the list is read at from now on
def handOver (supervisor : Supervisor) (image : Image) (bootHart deviceTree : UInt64) :
    BootRoutine UInt64 := do
  let (_, _, relocation) ← prepare supervisor image bootHart deviceTree
  let _ ← migrate relocation
  return relocation.newHeap.base

def flow (supervisor : Supervisor) (image : Image) (bootHart deviceTree : UInt64) :
    BootRoutine Unit := do
  let listAddress ← handOver supervisor image bootHart deviceTree
  resume listAddress

end BootRoutine

end EarlyBoot.Boot
