import EarlyBoot.Proofs.Boot.HandOver
import EarlyBoot.Proofs.Boot.Settlement

set_option autoImplicit false

namespace EarlyBoot.Boot

open BootRoutine (prepare)
open HandOff (BlockList Opening)
open Platform (Config MemoryPlan Publication Relocation)

theorem settles_of_prepare {supervisor : Supervisor} {image : Image} {bootHart deviceTree : UInt64}
    {memory : Memory} {plan : MemoryPlan} {list : BlockList} {relocation : Relocation}
    {machine : Machine}
    (reached : (prepare supervisor image bootHart deviceTree).Yields (.start memory)
      (plan, list, relocation) machine) :
    Settles image (image.content bootHart deviceTree memory) plan list relocation ∧
      machine.held = (written (image.content bootHart deviceTree memory) plan list relocation,
        image.contextAddress) := by
  obtain ⟨_, _, _, settles⟩ | ⟨failure, refused⟩ :=
    settles_or_refused image (image.content bootHart deviceTree memory)
  · obtain ⟨last, prepared, held⟩ := BootRoutine.prepare_of_settles supervisor settles
    obtain ⟨same, rfl⟩ := prepared.unique reached
    obtain ⟨rfl, rfl, rfl⟩ : _ ∧ _ ∧ _ := by simpa only [Prod.mk.injEq] using same
    exact ⟨settles, held⟩
  · obtain ⟨_, failed, _⟩ := BootRoutine.prepare_of_refused supervisor refused
    exact absurd failed reached.not_fails

structure SafeTarget (image : Image) (tree : DeviceTree) (plan : MemoryPlan) (list : BlockList)
    (relocation : Relocation) (opening : Opening) : Prop where
  permanent : relocation.permanent =
    ⟨plan.permanentMemory.base, Config.standard.temporaryRam.size⟩
  published : ∃ region attributes, .memoryRange region attributes ∈ list.blocks ∧
    relocation.permanent.Within region ∧ opening.memoryBottom = region.base ∧
      opening.memoryTop.toNat = region.bound
  clear_of_prefix : ¬relocation.permanent.Meets
    ⟨(Platform.Discovery.systemMemory tree).base, Config.standard.reservedPrefix⟩
  clear_of_reservation : ¬relocation.permanent.Meets
    (Platform.Discovery.reservedMemory tree Config.standard.reservedPath)
  clear_of_temporary : ¬relocation.permanent.Meets Config.standard.temporaryRam
  clear_of_image : ¬relocation.permanent.Meets image.region

section Target

variable {image : Image} {content : Memory} {plan : MemoryPlan} {list : BlockList}
  {relocation : Relocation}

theorem Settles.within (settles : Settles image content plan list relocation) :
    relocation.permanent.Within plan.permanentMemory := by
  have large := UInt64.le_iff_toNat_le.mp settles.large
  -- the size check is what keeps the copy inside the chosen memory
  rw [settles.apart.1]
  refine ⟨Nat.le_refl _, ?_⟩
  simp only [Relocation.permanent, Region.bound]
  omega

theorem Settles.clear_of_prefix {tree : DeviceTree}
    (settles : Settles image content plan list relocation)
    (published : Platform.Published .standard content image.contextAddress tree plan list) :
    ¬relocation.permanent.Meets
      ⟨(Platform.Discovery.systemMemory tree).base, Config.standard.reservedPrefix⟩ := by
  -- the permanent memory starts where the prefix ends, at the earliest
  intro meets
  have overlap := (Region.meets_iff.mp (meets.of_within settles.within)).2.2.1
  exact absurd overlap (Nat.not_lt.mpr (MemoryPlan.permanent_of_ofWindow published.planned).above)

theorem Settles.clear_of_reservation {tree : DeviceTree}
    (settles : Settles image content plan list relocation)
    (published : Platform.Published .standard content image.contextAddress tree plan list) :
    ¬relocation.permanent.Meets
      (Platform.Discovery.reservedMemory tree Config.standard.reservedPath) := by
  intro meets
  have chosen := MemoryPlan.permanent_of_ofWindow published.planned
  exact chosen.clear (meets.of_within settles.within)

theorem Settles.clear_of_temporary (settles : Settles image content plan list relocation) :
    ¬relocation.permanent.Meets Config.standard.temporaryRam := by
  obtain ⟨same, apart⟩ := settles.apart
  have disjoint := apart.apart
  rw [same] at disjoint ⊢
  rw [Region.meets_iff]
  simp only [Relocation.permanent, Relocation.temporary, Region.bound] at disjoint ⊢
  omega

theorem Settles.opening (settles : Settles image content plan list relocation) :
    let opening :=
      (written content plan list relocation).readOpening Config.standard.heap.base
    opening.memoryBottom = plan.permanentMemory.base ∧
      opening.memoryTop = plan.permanentMemory.base + plan.permanentMemory.size := by
  obtain ⟨_, apart⟩ := settles.apart
  -- the list lies in the old heap, and its addresses are those of the new one
  have short := settles.short_of_half
  have length := BlockList.length_encode list (introduced plan relocation)
  have small : (list.encode (introduced plan relocation)).length ≤ UInt64.size :=
    length.trans_le (short.trans relocation.half.toNat_lt.le)
  have holds := Memory.holds_write content Config.standard.heap.base small
  have newHeap : (introduced plan relocation).listAddress.toNat = _ := apart.toNat_newHeap
  have half := relocation.toNat_half
  have permanentFits := apart.permanent_fits
  simp only [Relocation.permanent, Region.bound] at permanentFits
  have fits : (introduced plan relocation).listAddress.toNat + list.encodedLength <
      UInt64.size := by omega
  dsimp only
  rw [written, HandOff.readOpening_of_holds holds fits]
  exact ⟨rfl, rfl⟩

end Target

theorem prepare_targets {supervisor : Supervisor} {image : Image} {bootHart deviceTree : UInt64}
    {memory : Memory} {plan : MemoryPlan} {list : BlockList} {relocation : Relocation}
    {machine : Machine}
    (reached : (prepare supervisor image bootHart deviceTree).Yields (.start memory)
      (plan, list, relocation) machine) :
    ∃ tree, DeviceTree.ofMemory (image.content bootHart deviceTree memory) deviceTree = .ok tree ∧
      SafeTarget image tree plan list relocation
        (machine.memory.readOpening Config.standard.heap.base) := by
  obtain ⟨settles, held⟩ := settles_of_prepare reached
  obtain ⟨_, tree, published⟩ := Publication.published settles.published
  have chosen := MemoryPlan.permanent_of_ofWindow published.planned
  have record : (image.content bootHart deviceTree memory).readContext image.contextAddress =
      .initial bootHart deviceTree := Memory.readContext_writeContext memory _ _
  have read := published.read
  rw [record] at read
  obtain ⟨bottom, top⟩ := settles.opening
  rw [← (Prod.mk.inj held).1] at bottom top
  refine ⟨tree, read, ?_⟩
  exact {
    permanent := by rw [settles.apart.1]; rfl
    published := by
      -- the published range is the permanent memory itself
      refine ⟨_, _, published.descriptors chosen.published, settles.within, bottom, ?_⟩
      rw [top]
      exact Region.toNat_base_add_size settles.fits
    clear_of_prefix := settles.clear_of_prefix published
    clear_of_reservation := settles.clear_of_reservation published
    clear_of_temporary := settles.clear_of_temporary
    clear_of_image := settles.permanent_apart }

-- the reservation starts right above the prefix
def guardedTree : List UInt8 :=
  let memory := (DeviceTree.Writer.empty.beginNode "").beginNode "memory"
  let described := (memory.textProperty "device_type" "memory").regionsProperty
    [(0x80000000, 0x4000000)]
  let reserved := (described.endNode.beginNode "reserved-memory").beginNode "mmode_resv0"
  (reserved.regionsProperty [(0x81000000, 0x80000)]).endNode.endNode.endNode.finish.1

def guardedMemory : Memory :=
  Memory.zero.write 0x10000 guardedTree

theorem guardedBoot_targets :
    ∃ plan list relocation machine tree,
      (prepare refusing smallImage 3 0x10000).Yields (.start guardedMemory)
        (plan, list, relocation) machine ∧
      relocation.permanentBase = 0x81080000 ∧
      SafeTarget smallImage tree plan list relocation
        (machine.memory.readOpening Config.standard.heap.base) := by
  have reaches : ((prepare refusing smallImage 3 0x10000 (.start guardedMemory)).1.result.map
      fun settled => settled.2.2.permanentBase) = .ok 0x81080000 := by
    decide +kernel
  cases ended : (prepare refusing smallImage 3 0x10000 (.start guardedMemory)).1.result with
  | error failure =>
    rw [ended] at reaches
    cases reaches
  | ok settled =>
    obtain ⟨plan, list, relocation⟩ := settled
    rw [ended] at reaches
    obtain ⟨tree, _, safe⟩ := prepare_targets ⟨ended, rfl⟩
    exact ⟨plan, list, relocation, _, tree, ⟨ended, rfl⟩, Except.ok.inj reaches, safe⟩

end EarlyBoot.Boot
