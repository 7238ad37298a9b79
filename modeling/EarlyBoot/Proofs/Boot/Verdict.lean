import EarlyBoot.Boot.Outcome
import EarlyBoot.Proofs.Boot.HandOver
import EarlyBoot.Proofs.Boot.Settlement
import EarlyBoot.Proofs.Console.Printer

set_option autoImplicit false

namespace EarlyBoot.Boot

open BootRoutine (flow prepare publish startSecondaryHarts)
open HandOff (BlockList)
open Platform (Config MemoryPlan Relocation)
open Supervisor (Call ResetReason)

variable {supervisor : Supervisor} {image : Image} {bootHart deviceTree : UInt64} {memory : Memory}

theorem machine_conclude (supervisor : Supervisor) (image : Image) (bootHart deviceTree : UInt64)
    (memory : Memory) :
    (conclude supervisor image bootHart deviceTree memory).machine =
      (flow supervisor image bootHart deviceTree (.start memory)).2 := by
  unfold conclude
  dsimp only
  split <;> rfl

theorem resets_conclude (supervisor : Supervisor) (image : Image) (bootHart deviceTree : UInt64)
    (memory : Memory) :
    (conclude supervisor image bootHart deviceTree memory).machine.resets = [] := by
  rw [machine_conclude]
  exact BootRoutine.resets_flow supervisor image bootHart deviceTree (.start memory)

theorem reason_of_yields {last : Machine}
    (done : (flow supervisor image bootHart deviceTree).Yields (.start memory) () last) :
    (conclude supervisor image bootHart deviceTree memory).reason = .none := by
  simp only [conclude, done.1]

theorem reason_of_fails {failure : Failure} {last : Machine}
    (failed : (flow supervisor image bootHart deviceTree).Fails (.start memory) failure last) :
    (conclude supervisor image bootHart deviceTree memory).reason = .systemFailure := by
  simp only [conclude, failed.1]

theorem conclude_of_settles {plan : MemoryPlan} {list : BlockList} {relocation : Relocation}
    (supervisor : Supervisor)
    (settles : Settles image (image.content bootHart deviceTree memory) plan list relocation) :
    let conclusion := conclude supervisor image bootHart deviceTree memory
    conclusion.reason = .none ∧ conclusion.machine.held =
      handedOver image (image.content bootHart deviceTree memory) plan list relocation := by
  obtain ⟨last, done, held⟩ := BootRoutine.flow_of_settles supervisor settles
  refine ⟨reason_of_yields done, ?_⟩
  rw [machine_conclude, done.2]
  exact held

theorem conclude_of_refused {failure : Failure} (supervisor : Supervisor)
    (refused : Refused image (image.content bootHart deviceTree memory) failure) :
    let conclusion := conclude supervisor image bootHart deviceTree memory
    conclusion.reason = .systemFailure ∧ conclusion.machine.held =
      (image.content bootHart deviceTree memory, image.contextAddress) := by
  obtain ⟨last, failed, held⟩ := BootRoutine.flow_of_refused supervisor refused
  refine ⟨reason_of_fails failed, ?_⟩
  rw [machine_conclude, failed.2]
  exact held

theorem exists_course (image : Image) (bootHart deviceTree : UInt64) (memory : Memory) :
    ∃ result prepared reason last, ∀ supervisor : Supervisor,
      let preparation := prepare supervisor image bootHart deviceTree (.start memory)
      let conclusion := conclude supervisor image bootHart deviceTree memory
      preparation.1.result = result ∧ preparation.2.held = prepared ∧
        conclusion.reason = reason ∧ conclusion.machine.held = last := by
  -- in both cases the course is written down before a supervisor is named
  obtain ⟨plan, list, relocation, settles⟩ | ⟨failure, refused⟩ :=
    settles_or_refused image (image.content bootHart deviceTree memory)
  · let content := image.content bootHart deviceTree memory
    refine ⟨.ok (plan, list, relocation),
      (written content plan list relocation, image.contextAddress), .none,
      handedOver image content plan list relocation, fun supervisor => ?_⟩
    obtain ⟨_, prepared, held⟩ := BootRoutine.prepare_of_settles supervisor settles
    exact ⟨prepared.1, prepared.2 ▸ held, conclude_of_settles supervisor settles⟩
  · let kept := (image.content bootHart deviceTree memory, image.contextAddress)
    refine ⟨.error failure, kept, .systemFailure, kept, fun supervisor => ?_⟩
    obtain ⟨_, failed, held⟩ := BootRoutine.prepare_of_refused supervisor refused
    exact ⟨failed.1, failed.2 ▸ held, conclude_of_refused supervisor refused⟩

theorem held_run (supervisor : Supervisor) (line : Console.LineStatus) (image : Image)
    (bootHart deviceTree : UInt64) (memory : Memory) :
    (run supervisor line image bootHart deviceTree memory).machine.held =
      (conclude supervisor image bootHart deviceTree memory).machine.held := by
  unfold run
  dsimp only
  split <;> rfl

theorem calls_run (supervisor : Supervisor) (line : Console.LineStatus) (image : Image)
    (bootHart deviceTree : UInt64) (memory : Memory) :
    (run supervisor line image bootHart deviceTree memory).machine.calls =
      (conclude supervisor image bootHart deviceTree memory).machine.calls ++
        [.reset .shutdown (conclude supervisor image bootHart deviceTree memory).reason] := by
  unfold run
  dsimp only
  split <;> rfl

theorem resets_run (supervisor : Supervisor) (line : Console.LineStatus) (image : Image)
    (bootHart deviceTree : UInt64) (memory : Memory) :
    (run supervisor line image bootHart deviceTree memory).machine.resets =
      [.reset .shutdown (conclude supervisor image bootHart deviceTree memory).reason] := by
  -- the request at the end is the only one that passes the filter
  have earlier := resets_conclude supervisor image bootHart deviceTree memory
  rw [Machine.resets] at earlier ⊢
  rw [calls_run, List.filter_append, earlier, List.nil_append]
  exact List.filter_cons_of_pos (Call.isReset_reset _ _)

theorem ending_run (supervisor : Supervisor) (line : Console.LineStatus) (image : Image)
    (bootHart deviceTree : UInt64) (memory : Memory) :
    let outcome := run supervisor line image bootHart deviceTree memory
    outcome.ending =
        .reset .shutdown (conclude supervisor image bootHart deviceTree memory).reason ∨
      outcome.ending = .waiting := by
  -- nobody has frozen the console yet, so it never holds the boot hart up
  have returns (texts : List String) : (Console.Printer.idle.printAll line texts).returned = true :=
    Console.Printer.printAll_returns line rfl rfl texts
  unfold run
  dsimp only
  split
  · exact .inl (by rw [returns, if_pos rfl])
  · exact .inr (by rw [returns, if_pos rfl])

structure Alike (image : Image) (bootHart deviceTree : UInt64) (memory : Memory)
    (first second : Supervisor) : Prop where
  prepared : (prepare first image bootHart deviceTree (.start memory)).1.result =
    (prepare second image bootHart deviceTree (.start memory)).1.result
  written : (prepare first image bootHart deviceTree (.start memory)).2.held =
    (prepare second image bootHart deviceTree (.start memory)).2.held
  reason : (conclude first image bootHart deviceTree memory).reason =
    (conclude second image bootHart deviceTree memory).reason
  asked : ∀ line other, (run first line image bootHart deviceTree memory).machine.resets =
    (run second other image bootHart deviceTree memory).machine.resets
  held : ∀ line other, (run first line image bootHart deviceTree memory).machine.held =
    (run second other image bootHart deviceTree memory).machine.held

theorem supervisors_alike (image : Image) (bootHart deviceTree : UInt64) (memory : Memory) :
    (∀ first second : Supervisor, Alike image bootHart deviceTree memory first second) ∧
      ∀ (supervisor : Supervisor) (config : Config) (machine : Machine) (plan : MemoryPlan)
        (list : BlockList) (failure : Failure),
        (publish config).Yields machine (plan, list) machine →
        (startSecondaryHarts supervisor image bootHart machine).1.result = .error failure →
        failure.isFatal = false := by
  constructor
  · intro first second
    obtain ⟨_, _, _, _, course⟩ := exists_course image bootHart deviceTree memory
    obtain ⟨result, written, reason, held⟩ := course first
    obtain ⟨otherResult, otherWritten, otherReason, otherHeld⟩ := course second
    exact {
      prepared := result.trans otherResult.symm
      written := written.trans otherWritten.symm
      reason := reason.trans otherReason.symm
      asked := fun line other => by rw [resets_run, resets_run, reason, otherReason]
      held := fun line other => by rw [held_run, held_run, held, otherHeld] }
  · intro supervisor config machine plan list failure published failed
    exact BootRoutine.harmless_of_published published ⟨failed, rfl⟩

def Image.RecordOnStack (image : Image) : Prop :=
  Config.standard.stack.base.toNat ≤ image.contextAddress.toNat ∧
    image.contextAddress.toNat + ContextRecord.size ≤ Config.standard.stack.bound

structure AllOrNothing (image : Image) (bootHart deviceTree : UInt64) (memory : Memory)
    (outcome : Outcome) (reason : ResetReason) : Prop where
  asked_once : outcome.machine.resets = [.reset .shutdown reason]
  ending : outcome.ending = .reset .shutdown reason ∨ outcome.ending = .waiting
  all_iff : reason = .none ↔ ∃ plan list relocation,
    Settles image (image.content bootHart deviceTree memory) plan list relocation
  registered : reason = .systemFailure →
    outcome.machine.contextPointer = image.contextAddress ∧
      outcome.machine.context = .initial bootHart deviceTree
  untouched : reason = .systemFailure → image.RecordOnStack →
    ∀ address, Config.standard.stack.contains address = false →
      outcome.machine.memory.byte address = memory.byte address
  certain : ∀ plan list relocation,
    Settles image (image.content bootHart deviceTree memory) plan list relocation →
    (∀ first, list.encodeWithin first Config.standard.heap.size.toNat = .ok (list.encode first)) ∧
      ∀ content, (relocation.migrate
        ⟨content, image.contextAddress, .runningInTemporary⟩).1.result = .ok relocation.displacement

theorem content_outside {address : UInt64} (seated : image.RecordOnStack)
    (outside : Config.standard.stack.contains address = false) :
    (image.content bootHart deviceTree memory).byte address = memory.byte address := by
  -- the stack ends below the top of the address space, so the record does not wrap
  obtain ⟨lower, upper⟩ := seated
  have top : Config.standard.stack.bound < UInt64.size := by decide
  rw [← Bool.not_eq_true, Region.contains_iff] at outside
  rw [← ContextRecord.length_encode (.initial bootHart deviceTree)] at upper
  exact Memory.byte_write_outside memory (by omega) (by omega)

theorem reason_eq_none_iff (supervisor : Supervisor) (image : Image)
    (bootHart deviceTree : UInt64) (memory : Memory) :
    (conclude supervisor image bootHart deviceTree memory).reason = .none ↔
      ∃ plan list relocation,
        Settles image (image.content bootHart deviceTree memory) plan list relocation := by
  constructor
  · intro well
    refine (settles_or_refused image _).resolve_right fun refused => ?_
    obtain ⟨failure, refused⟩ := refused
    have badly := (conclude_of_refused supervisor refused).1
    rw [well] at badly
    cases badly
  · intro settled
    obtain ⟨plan, list, relocation, settles⟩ := settled
    exact (conclude_of_settles supervisor settles).1

theorem held_of_systemFailure
    (badly : (conclude supervisor image bootHart deviceTree memory).reason = .systemFailure) :
    (conclude supervisor image bootHart deviceTree memory).machine.held =
      (image.content bootHart deviceTree memory, image.contextAddress) := by
  obtain ⟨plan, list, relocation, settles⟩ | ⟨failure, refused⟩ :=
    settles_or_refused image (image.content bootHart deviceTree memory)
  · have well := (conclude_of_settles supervisor settles).1
    rw [badly] at well
    cases well
  · exact (conclude_of_refused supervisor refused).2

theorem run_all_or_nothing (supervisor : Supervisor) (line : Console.LineStatus) (image : Image)
    (bootHart deviceTree : UInt64) (memory : Memory) :
    AllOrNothing image bootHart deviceTree memory
      (run supervisor line image bootHart deviceTree memory)
      (conclude supervisor image bootHart deviceTree memory).reason := by
  have held := held_run supervisor line image bootHart deviceTree memory
  exact {
    asked_once := resets_run supervisor line image bootHart deviceTree memory
    ending := ending_run supervisor line image bootHart deviceTree memory
    all_iff := reason_eq_none_iff supervisor image bootHart deviceTree memory
    registered := by
      intro badly
      rw [held_of_systemFailure badly] at held
      obtain ⟨same, pointer⟩ := Prod.mk.inj held
      rw [Machine.context, same, pointer]
      exact ⟨rfl, Memory.readContext_writeContext memory image.contextAddress _⟩
    untouched := by
      intro badly seated address outside
      rw [held_of_systemFailure badly] at held
      rw [(Prod.mk.inj held).1]
      exact content_outside seated outside
    certain := fun plan list relocation settles => ⟨settles.encodes, settles.migrates⟩ }

theorem smallBoot_all_or_nothing :
    smallImage.RecordOnStack ∧
      AllOrNothing smallImage 3 0x10000 smallMemory
        (run refusing (.busyFor 0) smallImage 3 0x10000 smallMemory) .none ∧
      AllOrNothing smallImage 3 0 smallMemory
        (run refusing (.busyFor 0) smallImage 3 0 smallMemory) .systemFailure := by
  have well : (conclude refusing smallImage 3 0x10000 smallMemory).reason = .none := by
    decide +kernel
  have badly : (conclude refusing smallImage 3 0 smallMemory).reason = .systemFailure := by
    decide +kernel
  refine ⟨⟨by decide, by decide⟩, ?_, ?_⟩
  · exact well ▸ run_all_or_nothing refusing (.busyFor 0) smallImage 3 0x10000 smallMemory
  · exact badly ▸ run_all_or_nothing refusing (.busyFor 0) smallImage 3 0 smallMemory

end EarlyBoot.Boot
