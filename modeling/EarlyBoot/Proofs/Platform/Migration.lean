import EarlyBoot.Proofs.Platform.Relocation
import EarlyBoot.Proofs.Supervisor.Context

set_option autoImplicit false

namespace EarlyBoot.Platform

open Migration (carryOut)

namespace Relocation

theorem result_migrate (relocation : Relocation) (migration : Migration) :
    (relocation.migrate migration).1.result =
      if migration.stage ≠ .runningInTemporary then .error .alreadyRelocated
      else if relocation.size = 0 then .ok 0
      else if migration.contextPointer = 0 then .error .contextNotFound
      else .ok relocation.displacement := by
  unfold migrate
  change ((ite (migration.stage ≠ .runningInTemporary) _ _ : Routine Migration Int64)
    migration).1.result = _
  split_ifs <;> rfl

theorem state_migrate (relocation : Relocation) (migration : Migration) :
    (relocation.migrate migration).2 =
      if migration.stage ≠ .runningInTemporary then migration
      else if relocation.size = 0 then migration
      else if migration.contextPointer = 0 then migration
      else migration.carryOut relocation := by
  unfold migrate
  change ((ite (migration.stage ≠ .runningInTemporary) _ _ : Routine Migration Int64)
    migration).2 = _
  split_ifs <;> rfl

variable {relocation : Relocation}

theorem copyHalves_heap (apart : relocation.Apart) (memory : Memory) {index : Nat}
    (inside : index < relocation.half.toNat) :
    (relocation.copyHalves memory).byte (relocation.newHeap.base + UInt64.ofNat index) =
      memory.byte (relocation.oldHeap.base + UInt64.ofNat index) := by
  have base := apart.toNat_newHeap
  have half := relocation.toNat_half
  have fits := apart.permanent_fits
  simp only [permanent, Region.bound] at fits
  have target : (relocation.newHeap.base + UInt64.ofNat index).toNat = _ :=
    Memory.toNat_add_ofNat (by omega)
  -- the stack is copied last, but only below the heap
  rw [copyHalves, Memory.byte_copy_outside, Memory.byte_copy_inside _ _ _ _ inside]
  · simp only [newStack]
    omega
  · simp only [newStack]
    omega

theorem copyHalves_stack (apart : relocation.Apart) (memory : Memory) {index : Nat}
    (inside : index < relocation.half.toNat) :
    (relocation.copyHalves memory).byte (relocation.newStack.base + UInt64.ofNat index) =
      memory.byte (relocation.oldStack.base + UInt64.ofNat index) := by
  have source := apart.toNat_oldStack
  have destination := apart.toNat_newHeap
  have half := relocation.toNat_half
  obtain ⟨temporaryFits, permanentFits, apart⟩ := apart
  simp only [temporary, permanent, Region.bound] at temporaryFits permanentFits apart
  have target : (relocation.oldStack.base + UInt64.ofNat index).toNat = _ :=
    Memory.toNat_add_ofNat (by omega)
  -- the heap was copied first, but into the other range
  rw [copyHalves, Memory.byte_copy_inside _ _ _ _ inside, Memory.byte_copy_outside]
  · omega
  · omega

theorem copyHalves_elsewhere (apart : relocation.Apart) (memory : Memory) {address : UInt64}
    (outside : address.toNat < relocation.permanentBase.toNat ∨
      relocation.permanentBase.toNat + 2 * relocation.half.toNat ≤ address.toNat) :
    (relocation.copyHalves memory).byte address = memory.byte address := by
  have destination := apart.toNat_newHeap
  have half := relocation.toNat_half
  have fits := apart.permanent_fits
  simp only [permanent, Region.bound] at fits
  rw [copyHalves, Memory.byte_copy_outside, Memory.byte_copy_outside]
  · omega
  · omega
  · simp only [newStack]
    omega
  · simp only [newStack]
    omega

theorem copyHalves_outside (apart : relocation.Apart) (memory : Memory) {address : UInt64}
    (outside : relocation.permanent.contains address = false) :
    (relocation.copyHalves memory).byte address = memory.byte address := by
  have half := relocation.toNat_half
  rw [← Bool.not_eq_true, Region.contains_iff] at outside
  simp only [permanent, Region.bound] at outside
  exact copyHalves_elsewhere apart memory (by omega)

theorem read_copyHalves_stack (apart : relocation.Apart) (memory : Memory) :
    (relocation.copyHalves memory).read relocation.newStack.base relocation.half.toNat =
      memory.read relocation.oldStack.base relocation.half.toNat :=
  Memory.read_congr fun _ inside => copyHalves_stack apart memory inside

theorem read_copyHalves_heap (apart : relocation.Apart) (memory : Memory) :
    (relocation.copyHalves memory).read relocation.newHeap.base relocation.half.toNat =
      memory.read relocation.oldHeap.base relocation.half.toNat :=
  Memory.read_congr fun _ inside => copyHalves_heap apart memory inside

theorem readContext_copyHalves (apart : relocation.Apart) (memory : Memory) {address : UInt64}
    (lower : relocation.oldStack.base.toNat ≤ address.toNat)
    (upper : address.toNat + ContextRecord.size ≤ relocation.oldStack.bound) :
    (relocation.copyHalves memory).readContext (relocation.moveAddress address) =
      memory.readContext address := by
  obtain ⟨offset, offsetEq⟩ := Nat.exists_eq_add_of_le lower
  have inside : offset + ContextRecord.size ≤ relocation.half.toNat := by
    simp only [Region.bound, offsetEq] at upper
    exact Nat.le_of_add_le_add_left (Nat.add_assoc _ _ _ ▸ upper)
  have addressEq : address = relocation.oldStack.base + UInt64.ofNat offset := by
    rw [← Memory.ofNat_toNat_add, ← offsetEq, UInt64.ofNat_toNat]
  rw [addressEq, moveAddress_oldStack]
  exact Memory.readContext_congr (Memory.read_part (read_copyHalves_stack apart memory) inside)

structure Moves (relocation : Relocation) (before after : Migration) : Prop where
  heap : ∀ offset < relocation.size.toNat / 2,
    after.memory.byte (UInt64.ofNat
        (relocation.permanentBase.toNat + relocation.size.toNat / 2 + offset)) =
      before.memory.byte (UInt64.ofNat (relocation.temporaryBase.toNat + offset))
  stack : ∀ offset < relocation.size.toNat / 2,
    after.memory.byte (UInt64.ofNat (relocation.permanentBase.toNat + offset)) =
      before.memory.byte (UInt64.ofNat
        (relocation.temporaryBase.toNat + relocation.size.toNat / 2 + offset))
  elsewhere : ∀ address : UInt64, (address.toNat < relocation.permanentBase.toNat ∨
      relocation.permanentBase.toNat + 2 * (relocation.size.toNat / 2) ≤ address.toNat) →
    after.memory.byte address = before.memory.byte address
  temporary : ∀ address, relocation.temporary.contains address = true →
    after.memory.byte address = before.memory.byte address
  odd_byte : relocation.size.toNat % 2 = 1 →
    after.memory.byte (UInt64.ofNat (relocation.permanent.bound - 1)) =
      before.memory.byte (UInt64.ofNat (relocation.permanent.bound - 1))
  contextPointer : (after.contextPointer.toNat : Int) =
    (before.contextPointer.toNat + relocation.displacement.toInt) % 2 ^ 64
  context : relocation.temporaryBase.toNat + relocation.size.toNat / 2 ≤
        before.contextPointer.toNat →
      before.contextPointer.toNat + ContextRecord.size ≤
        relocation.temporaryBase.toNat + 2 * (relocation.size.toNat / 2) →
    after.memory.readContext after.contextPointer =
      before.memory.readContext before.contextPointer

theorem carryOut_moves (apart : relocation.Apart) (migration : Migration) :
    relocation.Moves migration (migration.carryOut relocation) := by
  have oldStack := apart.toNat_oldStack
  have newHeap := apart.toNat_newHeap
  have half := relocation.toNat_half
  have elsewhere (address : UInt64) (outside : address.toNat < relocation.permanentBase.toNat ∨
      relocation.permanentBase.toNat + 2 * (relocation.size.toNat / 2) ≤ address.toNat) :
      (relocation.copyHalves migration.memory).byte address = migration.memory.byte address :=
    copyHalves_elsewhere apart migration.memory (half ▸ outside)
  exact {
    heap := by
      intro offset inside
      rw [← newHeap, Memory.ofNat_toNat_add, Memory.ofNat_toNat_add]
      exact copyHalves_heap apart migration.memory (half ▸ inside)
    stack := by
      intro offset inside
      rw [← oldStack, Memory.ofNat_toNat_add, Memory.ofNat_toNat_add]
      exact copyHalves_stack apart migration.memory (half ▸ inside)
    elsewhere := elsewhere
    temporary := by
      intro address inside
      rw [Region.contains_iff] at inside
      apply elsewhere
      have disjoint := apart.apart
      simp only [temporary, permanent, Region.bound] at inside disjoint
      omega
    odd_byte := by
      intro odd
      apply elsewhere
      have fits := apart.permanent_fits
      have last : (UInt64.ofNat (relocation.permanent.bound - 1)).toNat =
          relocation.permanent.bound - 1 := UInt64.toNat_ofNat_of_lt (by omega)
      rw [last]
      simp only [permanent, Region.bound]
      omega
    contextPointer := toNat_moveAddress relocation migration.contextPointer
    context := by
      intro lower upper
      change (relocation.copyHalves migration.memory).readContext
        (relocation.moveAddress migration.contextPointer) = _
      have stop : relocation.oldStack.bound =
          relocation.temporaryBase.toNat + 2 * (relocation.size.toNat / 2) := by
        rw [Region.bound, oldStack]
        simp only [Relocation.oldStack]
        omega
      exact readContext_copyHalves apart migration.memory (oldStack ▸ lower) (stop ▸ upper) }

theorem migrate_moves {temporaryBase permanentBase size : UInt64} {relocation : Relocation}
    (planned : (plan temporaryBase permanentBase size).result = .ok relocation)
    (nonempty : 0 < size) (memory : Memory) {contextPointer : UInt64}
    (registered : contextPointer ≠ 0) :
    let before : Migration := ⟨memory, contextPointer, .runningInTemporary⟩
    (relocation.migrate before).1.result = .ok relocation.displacement ∧
      relocation.displacement.toInt ≡
        permanentBase.toNat - (temporaryBase.toNat + size.toNat / 2 : Nat) [ZMOD 2 ^ 64] ∧
      relocation.Moves before (relocation.migrate before).2 := by
  obtain ⟨rfl, apart⟩ := result_plan_eq_ok.mp planned
  have nonzero : size ≠ 0 := (UInt64.pos_iff_ne_zero.mp nonempty)
  refine ⟨?_, ?_, ?_⟩
  · simp [result_migrate, nonzero, registered]
  · rw [← apart.toNat_oldStack]
    exact displacement_modEq _
  · rw [state_migrate, if_neg (by simp), if_neg nonzero, if_neg registered]
    exact carryOut_moves apart _

def descent : Relocation := ⟨0xfffffffffffff000, 0x1000, 0xfff⟩

theorem descent_moves :
    let before : Migration :=
      ⟨⟨fun address => address.toUInt8⟩, 0xfffffffffffffa00, .runningInTemporary⟩
    (plan 0xfffffffffffff000 0x1000 0xfff).result = .ok descent ∧
      (descent.migrate before).1.result = .ok descent.displacement ∧
      descent.Moves before (descent.migrate before).2 := by
  have planned : (plan 0xfffffffffffff000 0x1000 0xfff).result = .ok descent := rfl
  obtain ⟨result, _, moves⟩ :=
    migrate_moves planned (by decide) ⟨fun address => address.toUInt8⟩
      (show (0xfffffffffffffa00 : UInt64) ≠ 0 by decide)
  exact ⟨planned, result, moves⟩

end Relocation

end EarlyBoot.Platform
