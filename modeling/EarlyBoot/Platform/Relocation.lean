import EarlyBoot.Attempt
import EarlyBoot.Supervisor.Context

set_option autoImplicit false

namespace EarlyBoot.Platform

structure Relocation where
  temporaryBase : UInt64
  permanentBase : UInt64
  size : UInt64
  deriving DecidableEq, Repr

namespace Relocation

def temporary (relocation : Relocation) : Region :=
  ⟨relocation.temporaryBase, relocation.size⟩

def permanent (relocation : Relocation) : Region :=
  ⟨relocation.permanentBase, relocation.size⟩

def half (relocation : Relocation) : UInt64 :=
  relocation.size >>> 1

def oldHeap (relocation : Relocation) : Region :=
  ⟨relocation.temporaryBase, relocation.half⟩

def oldStack (relocation : Relocation) : Region :=
  ⟨relocation.temporaryBase + relocation.half, relocation.half⟩

def newStack (relocation : Relocation) : Region :=
  ⟨relocation.permanentBase, relocation.half⟩

def newHeap (relocation : Relocation) : Region :=
  ⟨relocation.permanentBase + relocation.half, relocation.half⟩

def displacement (relocation : Relocation) : Int64 :=
  (relocation.newStack.base - relocation.oldStack.base).toInt64

def moveAddress (relocation : Relocation) (address : UInt64) : UInt64 :=
  address + relocation.displacement.toUInt64

def error {α : Type} (text : String) (failure : Failure) : Attempt α := do
  .log .error .relocation text
  .fail failure

def plan (temporaryBase permanentBase size : UInt64) : Attempt Relocation :=
  let relocation : Relocation := ⟨temporaryBase, permanentBase, size⟩
  match relocation.temporary.stop?, relocation.permanent.stop? with
  | some _, some _ =>
    if relocation.temporary.overlaps relocation.permanent then
      error ("temporary RAM " ++ relocation.temporary.describe ++ " overlaps permanent RAM " ++
        relocation.permanent.describe) .relocationOverlap
    else pure relocation
  | _, _ => .fail .addressOverflow

def checkRange (image : Region) (name : String) (range : Region) : Attempt Unit :=
  if range.overlaps image then
    error (name ++ " RAM " ++ range.describe ++ " overlaps the firmware image " ++
      image.describe) .relocationOverlap
  else pure ()

def checkImage (relocation : Relocation) (image : Region) : Attempt Unit := do
  checkRange image "temporary" relocation.temporary
  checkRange image "permanent" relocation.permanent

def copyHalves (relocation : Relocation) (memory : Memory) : Memory :=
  (memory.copy relocation.oldHeap.base relocation.newHeap.base relocation.half).copy
    relocation.oldStack.base relocation.newStack.base relocation.half

end Relocation

inductive MigrationStage where
  | runningInTemporary
  | copying
  | runningInPermanent
  deriving DecidableEq, Repr

def MigrationStage.label : MigrationStage → String
  | .runningInTemporary => "RunningInTemporary"
  | .copying => "Copying"
  | .runningInPermanent => "RunningInPermanent"

structure Migration where
  memory : Memory
  contextPointer : UInt64
  stage : MigrationStage

namespace Migration

def carryOut (migration : Migration) (relocation : Relocation) : Migration :=
  let copying := { migration with stage := .copying }
  let copied := { copying with memory := relocation.copyHalves copying.memory }
  { copied with
    contextPointer := relocation.moveAddress copied.contextPointer
    stage := .runningInPermanent }

end Migration

def Relocation.migrate (relocation : Relocation) : Routine Migration Int64 := do
  let before ← .get
  if before.stage ≠ .runningInTemporary then
    .ofAttempt (error ("temporary RAM migration requested in state " ++ before.stage.label)
      .alreadyRelocated)
  -- the stage stays, so that a later migration may still run
  else if relocation.size = 0 then
    return 0
  else if before.contextPointer = 0 then
    .ofAttempt (error "firmware context is null" .contextNotFound)
  else
    .set (before.carryOut relocation)
    .log .info .relocation ("firmware context relocated to " ++
      Hex.render (relocation.moveAddress before.contextPointer).toNat)
    return relocation.displacement

end EarlyBoot.Platform
