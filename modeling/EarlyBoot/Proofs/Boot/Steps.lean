import EarlyBoot.Proofs.Boot.Frame
import EarlyBoot.Proofs.Platform.Migration

set_option autoImplicit false

namespace EarlyBoot.Boot

open HandOff (BlockList)
open Platform (Config MemoryPlan Publication Relocation)

def Machine.registered (machine : Machine) (image : Image) (record : ContextRecord) : Machine where
  memory := machine.memory.writeContext image.contextAddress record
  contextPointer := image.contextAddress
  calls := machine.calls ++ [.specVersion]

namespace BootRoutine

open Routine

theorem planRelocation_eq_ok {config : Config} {image : Image} {plan : MemoryPlan}
    {relocation : Relocation} :
    (planRelocation config image plan).result = .ok relocation ↔
      relocation = ⟨config.temporaryRam.base, plan.permanentMemory.base,
        config.temporaryRam.size⟩ ∧ relocation.Apart ∧
      ¬relocation.temporary.Meets image.region ∧ ¬relocation.permanent.Meets image.region ∧
      relocation.size.toNat ≤ plan.permanentMemory.size.toNat := by
  unfold planRelocation Relocation.checkImage
  simp only [Attempt.result_bind_eq_ok, Relocation.result_plan_eq_ok,
    Relocation.result_checkRange_eq_ok]
  constructor
  · rintro ⟨found, ⟨rfl, apart⟩, _, ⟨_, temporary, permanent⟩, chosen⟩
    split_ifs at chosen with small
    · cases chosen
    · obtain rfl := Except.ok.inj chosen
      rw [Region.overlaps_eq_false_iff apart.temporary_fits] at temporary
      rw [Region.overlaps_eq_false_iff apart.permanent_fits] at permanent
      exact ⟨rfl, apart, temporary, permanent, UInt64.le_iff_toNat_le.mp (UInt64.not_lt.mp small)⟩
  · rintro ⟨rfl, apart, temporary, permanent, fits⟩
    rw [← Region.overlaps_eq_false_iff apart.temporary_fits] at temporary
    rw [← Region.overlaps_eq_false_iff apart.permanent_fits] at permanent
    refine ⟨_, ⟨rfl, apart⟩, (), ⟨(), temporary, permanent⟩, ?_⟩
    rw [if_neg (UInt64.not_lt.mpr (UInt64.le_iff_toNat_le.mpr fits))]
    rfl

theorem introduction_eq_ok {relocation : Relocation} {plan : MemoryPlan}
    {first : HandOff.Introduction} :
    (introduction relocation plan).result = .ok first ↔
      plan.permanentMemory.bound < UInt64.size ∧
        first = ⟨plan.permanentMemory.base,
          plan.permanentMemory.base + plan.permanentMemory.size, relocation.newHeap.base⟩ := by
  unfold introduction
  by_cases fits : plan.permanentMemory.bound < UInt64.size
  · rw [Region.stop?_of_lt fits]
    simp [fits, eq_comm]
  · rw [Region.stop?_eq_none_iff.mpr (Nat.not_lt.mp fits)]
    simp [fits]

theorem yields_info {text : String} {machine after : Machine} {value : Unit} :
    (info text).Yields machine value after ↔ machine = after :=
  yields_log

theorem yields_showVersion {supervisor : Supervisor} {machine after : Machine} {value : Unit} :
    (showVersion supervisor).Yields machine value after ↔
      { machine with calls := machine.calls ++ [.specVersion] } = after := by
  unfold showVersion
  rw [yields_bind]
  constructor
  · rintro ⟨reply, _, ⟨_, rfl⟩, shown⟩
    split at shown
    · exact yields_info.mp shown
    · exact yields_log.mp shown
  · rintro rfl
    refine ⟨_, _, ⟨rfl, rfl⟩, ?_⟩
    split
    · exact yields_info.mpr rfl
    · exact yields_log.mpr rfl

theorem yields_publish {config : Config} {machine after : Machine} {plan : MemoryPlan}
    {list : BlockList} :
    (publish config).Yields machine (plan, list) after ↔
      (Publication.platform config machine.memory machine.contextPointer).Yields
        (.empty Platform.listCapacity) plan list ∧ machine = after := by
  unfold publish
  rw [yields_bind]
  constructor
  · rintro ⟨_, _, got, published⟩
    obtain ⟨rfl, rfl⟩ := yields_get.mp got
    exact yields_within.mp published
  · intro published
    exact ⟨machine, machine, yields_get.mpr ⟨rfl, rfl⟩, yields_within.mpr published⟩

theorem yields_writeList {config : Config} {first : HandOff.Introduction} {list : BlockList}
    {machine after : Machine} :
    (writeList config first list).Yields machine () after ↔
      list.encodedLength ≤ config.heap.size.toNat ∧
        { machine with memory := machine.memory.write config.heap.base (list.encode first) } =
          after := by
  unfold writeList BlockList.encodeWithin
  by_cases fits : list.encodedLength ≤ config.heap.size.toNat
  · rw [if_neg (Nat.not_lt.mpr fits)]
    simp only [fits, true_and]
    exact ⟨And.right, fun same => ⟨rfl, same⟩⟩
  · rw [if_pos (Nat.not_le.mp fits)]
    simp [fits]

theorem yields_migrate {relocation : Relocation} {machine after : Machine} {distance : Int64}
    (nonempty : relocation.size ≠ 0) :
    (migrate relocation).Yields machine distance after ↔
      machine.contextPointer ≠ 0 ∧ relocation.displacement = distance ∧
        { machine with
          memory := relocation.copyHalves machine.memory
          contextPointer := relocation.moveAddress machine.contextPointer } = after := by
  unfold migrate
  rw [yields_bind]
  by_cases registered : machine.contextPointer = 0
  · refine iff_of_false (fun migrated => ?_) fun moved => moved.1 registered
    obtain ⟨_, between, announced, moved⟩ := migrated
    obtain rfl := yields_info.mp announced
    obtain ⟨last, ⟨result, _⟩, _⟩ := yields_on.mp moved
    simp [Relocation.result_migrate, nonempty, registered] at result
  · constructor
    · intro migrated
      obtain ⟨_, between, announced, moved⟩ := migrated
      obtain rfl := yields_info.mp announced
      obtain ⟨last, ⟨result, rfl⟩, rfl⟩ := yields_on.mp moved
      rw [Relocation.result_migrate] at result
      rw [Relocation.state_migrate]
      simp only [nonempty, registered, ne_eq, not_true_eq_false, if_false, Except.ok.injEq]
        at result ⊢
      exact ⟨not_false, result, rfl⟩
    · intro moved
      obtain ⟨_, rfl, rfl⟩ := moved
      refine ⟨(), machine, yields_info.mpr rfl, yields_on.mpr ⟨_, ⟨?_, rfl⟩, ?_⟩⟩
      · simp [Relocation.result_migrate, nonempty, registered]
      · simp [Relocation.state_migrate, nonempty, registered, Platform.Migration.carryOut]

end BootRoutine

end EarlyBoot.Boot
