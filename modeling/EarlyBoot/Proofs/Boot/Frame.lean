import EarlyBoot.Boot.Flow
import EarlyBoot.Proofs.Attempt

set_option autoImplicit false

namespace EarlyBoot

namespace Supervisor.Call

def isReset (call : Call) : Bool :=
  call.extension = resetExtension && call.function = resetFunction

theorem isReset_reset (kind : ResetKind) (reason : ResetReason) :
    (reset kind reason).isReset = true := rfl

end Supervisor.Call

theorem HartRequest.isReset_call (request : HartRequest) : request.call.isReset = false := by
  cases request <;> rfl

namespace Boot

open HandOff (BlockList)
open Platform (Config MemoryPlan Relocation)

def Machine.held (machine : Machine) : Memory × UInt64 :=
  (machine.memory, machine.contextPointer)

def Machine.resets (machine : Machine) : List Supervisor.Call :=
  machine.calls.filter Supervisor.Call.isReset

section Blind

variable {γ : Type} {view : Machine → γ}

def Blind (view : Machine → γ) : Prop :=
  ∀ machine calls, (∀ call ∈ calls, call.isReset = false) →
    view { machine with calls := machine.calls ++ calls } = view machine

theorem blind_held : Blind Machine.held :=
  fun _ _ _ => rfl

theorem blind_resets : Blind Machine.resets := by
  intro machine calls others
  have none : calls.filter Supervisor.Call.isReset = [] :=
    List.filter_eq_nil_iff.mpr fun call member => by simp [others call member]
  simp only [Machine.resets, List.filter_append, none, List.append_nil]

namespace BootRoutine

open Routine

theorem keeps_call (blind : Blind view) (supervisor : Supervisor) {request : Supervisor.Call}
    (other : request.isReset = false) : (call supervisor request).Keeps view :=
  fun machine => blind machine [request] (by simpa using other)

theorem keeps_info (text : String) : (info text).Keeps view :=
  keeps_ofAttempt _

theorem keeps_warn (text : String) : (warn text).Keeps view :=
  keeps_ofAttempt _

theorem keeps_showVersion (blind : Blind view) (supervisor : Supervisor) :
    (showVersion supervisor).Keeps view := by
  apply (keeps_call blind supervisor rfl).bind
  intro reply
  cases reply.result with
  | ok version => exact keeps_info _
  | error refusal => exact keeps_warn _

theorem keeps_publish (config : Config) : (publish config).Keeps view :=
  keeps_get.bind fun _ => keeps_within _ _

theorem keeps_startHarts (blind : Blind view) (supervisor : Supervisor) (image : Image)
    (bootHart : UInt64) (harts : List UInt64) :
    (startHarts supervisor image bootHart harts).Keeps view := by
  apply keeps_get.bind
  intro _
  -- requests about harts are calls of the hart extension
  apply keeps_on
  intro machine requests
  apply blind
  intro call member
  obtain ⟨request, _, rfl⟩ := List.mem_map.mp member
  exact request.isReset_call

theorem keeps_showIncomplete (report : Platform.HartReport) :
    (showIncomplete report).Keeps view := by
  unfold showIncomplete
  split
  · exact keeps_pure ()
  · exact keeps_warn _

theorem keeps_startSecondaryHarts (blind : Blind view) (supervisor : Supervisor) (image : Image)
    (bootHart : UInt64) : (startSecondaryHarts supervisor image bootHart).Keeps view := by
  apply (keeps_call blind supervisor rfl).bind
  intro reply
  split
  · apply keeps_get.bind
    intro machine
    cases DeviceTree.ofMemory machine.memory machine.context.deviceTree with
    | error error => exact keeps_ofAttempt _
    | ok tree => exact (keeps_startHarts blind _ _ _ _).bind keeps_showIncomplete
  · exact keeps_ofAttempt _

theorem keeps_survive (outcome : Except Failure Unit) : (survive outcome).Keeps view := by
  cases outcome with
  | ok _ => exact keeps_pure ()
  | error failure =>
    unfold survive
    dsimp only
    split
    · exact keeps_ofAttempt _
    · exact keeps_warn _

theorem keeps_resume (listAddress : UInt64) : (resume listAddress).Keeps view :=
  keeps_get.bind fun _ => (keeps_info _).bind fun _ => keeps_info _

end BootRoutine

end Blind

namespace BootRoutine

open Routine

theorem calls_registerContext (address : UInt64) (record : ContextRecord) :
    (registerContext address record).Keeps Machine.calls :=
  fun _ => rfl

theorem calls_writeList (config : Config) (first : HandOff.Introduction) (list : BlockList) :
    (writeList config first list).Keeps Machine.calls := by
  unfold writeList
  split
  · exact keeps_ofAttempt _
  · exact Keeps.bind (fun _ => rfl) fun _ => keeps_info _

theorem calls_migrate (relocation : Relocation) :
    (migrate relocation).Keeps Machine.calls :=
  (keeps_info _).bind fun _ => keeps_on _ fun _ _ => rfl

theorem calls_arrange (config : Config) (image : Image) (plan : MemoryPlan)
    (list : BlockList) : (arrange config image plan list).Keeps Machine.calls :=
  (keeps_ofAttempt _).bind fun relocation => (keeps_ofAttempt _).bind fun first =>
    (calls_writeList _ first list).bind fun _ => keeps_pure relocation

theorem resets_assemble (supervisor : Supervisor) (image : Image)
    (bootHart deviceTree : UInt64) :
    (assemble supervisor image bootHart deviceTree).Keeps Machine.resets := by
  have registers := (calls_registerContext image.contextAddress
    (.initial bootHart deviceTree)).map (List.filter Supervisor.Call.isReset)
  have starts := keeps_startSecondaryHarts blind_resets supervisor image bootHart
  exact (keeps_showVersion blind_resets supervisor).bind fun _ => registers.bind fun _ =>
    (keeps_publish _).bind fun _ => starts.outcome.bind fun outcome =>
      (keeps_survive outcome).bind fun _ => keeps_pure _

theorem resets_flow (supervisor : Supervisor) (image : Image) (bootHart deviceTree : UInt64) :
    (flow supervisor image bootHart deviceTree).Keeps Machine.resets := by
  have prepares : (prepare supervisor image bootHart deviceTree).Keeps Machine.resets :=
    (resets_assemble supervisor image bootHart deviceTree).bind fun assembled =>
      ((calls_arrange .standard image assembled.1 assembled.2).map
        (List.filter Supervisor.Call.isReset)).bind fun _ => keeps_pure _
  have handsOver : (handOver supervisor image bootHart deviceTree).Keeps Machine.resets :=
    prepares.bind fun prepared => ((calls_migrate prepared.2.2).map
      (List.filter Supervisor.Call.isReset)).bind fun _ => keeps_pure _
  exact handsOver.bind keeps_resume

end BootRoutine

end Boot

end EarlyBoot
