import EarlyBoot.DeviceTree.Writer
import EarlyBoot.Proofs.Boot.Settlement
import EarlyBoot.Proofs.HandOff.Walk

set_option autoImplicit false

namespace EarlyBoot.Boot

open HandOff (BlockList)
open Platform (Config MemoryPlan Publication Relocation)

/-- Later stages find the list that was published for them, with all its addresses in order. -/
structure HandsOver (plan : MemoryPlan) (list : BlockList) (relocation : Relocation)
    (memory : Memory) (opening : HandOff.Opening) : Prop where
  encoding : memory.Holds relocation.newHeap.base
    (list.encode ⟨plan.permanentMemory.base, opening.memoryTop, relocation.newHeap.base⟩)
  walk : HandOff.Walk memory relocation.newHeap.base opening.listEnd
  memoryBottom : opening.memoryBottom = plan.permanentMemory.base
  memoryTop : opening.memoryTop.toNat = plan.permanentMemory.bound
  freeTop : opening.freeTop = opening.memoryTop
  freeBottom : opening.freeBottom.toNat = opening.listEnd.toNat + HandOff.headerLength
  total : opening.freeBottom.toNat = relocation.newHeap.base.toNat + list.encodedLength
  stack_above_bottom : opening.memoryBottom.toNat ≤ relocation.newStack.bound
  list_above_stack : relocation.newStack.bound ≤ relocation.newHeap.base.toNat
  end_above_list : relocation.newHeap.base.toNat < opening.listEnd.toNat
  free_above_end : opening.listEnd.toNat < opening.freeBottom.toNat
  top_above_free : opening.freeBottom.toNat ≤ opening.freeTop.toNat

section Geometry

variable {image : Image} {content : Memory} {plan : MemoryPlan} {list : BlockList}
  {relocation : Relocation}

theorem handsOver_of_write (apart : relocation.Apart)
    (base : relocation.permanentBase = plan.permanentMemory.base)
    (large : relocation.size.toNat ≤ plan.permanentMemory.size.toNat)
    (fits : plan.permanentMemory.bound < UInt64.size)
    (short : list.encodedLength ≤ relocation.half.toNat) (memory : Memory) :
    let handed := relocation.copyHalves (memory.write relocation.oldHeap.base
      (list.encode ⟨plan.permanentMemory.base,
        plan.permanentMemory.base + plan.permanentMemory.size, relocation.newHeap.base⟩))
    HandsOver plan list relocation handed (handed.readOpening relocation.newHeap.base) := by
  intro handed
  have newHeap := apart.toNat_newHeap
  have half := relocation.toNat_half
  have top : (plan.permanentMemory.base + plan.permanentMemory.size).toNat = _ :=
    Region.toNat_base_add_size fits
  have stack : relocation.newStack.bound =
      plan.permanentMemory.base.toNat + relocation.half.toNat := by
    simp only [Relocation.newStack, Region.bound, base]
  rw [Region.bound] at fits top
  rw [base] at newHeap
  have within : relocation.newHeap.base.toNat + list.encodedLength < UInt64.size := by omega
  have encoding : handed.Holds relocation.newHeap.base _ :=
    Memory.holds_of_read (relocation.read_copyHalves_heap apart _)
      (by simpa using short) (Memory.holds_write memory relocation.oldHeap.base (by simp; omega))
  have freeBottom := Memory.toNat_add_ofNat within
  have listEnd : (relocation.newHeap.base +
      UInt64.ofNat (list.encodedLength - HandOff.headerLength)).toNat = _ :=
    Memory.toNat_add_ofNat (by omega)
  have header : HandOff.headerLength < list.encodedLength := by
    simp [BlockList.encodedLength, HandOff.introductionLength]
  have room : 0 < HandOff.headerLength := by decide
  rw [HandOff.readOpening_of_holds encoding within]
  exact {
    encoding := encoding
    walk := HandOff.walk_of_holds_encode encoding
    memoryBottom := rfl
    memoryTop := top
    freeTop := rfl
    freeBottom := by
      rw [freeBottom, listEnd]
      omega
    total := freeBottom
    stack_above_bottom := by
      rw [stack]
      exact Nat.le_add_right _ _
    list_above_stack := by rw [stack, newHeap, half]
    end_above_list := by
      rw [listEnd]
      omega
    free_above_end := by
      rw [freeBottom, listEnd]
      omega
    top_above_free := by
      rw [freeBottom, top]
      omega }

theorem readContext_of_write (apart : relocation.Apart) (memory : Memory) {bytes : List UInt8}
    {address : UInt64} (short : bytes.length ≤ relocation.half.toNat)
    (lower : relocation.oldStack.base.toNat ≤ address.toNat)
    (upper : address.toNat + ContextRecord.size ≤ relocation.oldStack.bound) :
    (relocation.copyHalves (memory.write relocation.oldHeap.base bytes)).readContext
        (relocation.moveAddress address) = memory.readContext address := by
  rw [Relocation.readContext_copyHalves apart _ lower upper]
  have oldStack := apart.toNat_oldStack
  have half := relocation.toNat_half
  have fits := apart.temporary_fits
  simp only [Relocation.oldStack, Relocation.temporary, Region.bound] at oldStack fits lower upper
  apply Memory.readContext_congr
  apply Memory.read_write_outside
  · simp only [Relocation.oldHeap]
    omega
  · omega
  · simp only [Relocation.oldHeap]
    omega

theorem Settles.heap (settles : Settles image content plan list relocation) :
    Config.standard.heap = relocation.oldHeap := by
  rw [settles.apart.1]
  rfl

theorem Settles.stack (settles : Settles image content plan list relocation) :
    Config.standard.stack = relocation.oldStack := by
  rw [settles.apart.1]
  rfl

theorem Settles.short_of_half (settles : Settles image content plan list relocation) :
    list.encodedLength ≤ relocation.half.toNat := by
  have short := settles.short
  rwa [settles.heap] at short

theorem Settles.handsOver (settles : Settles image content plan list relocation) :
    let handed := relocation.copyHalves (written content plan list relocation)
    HandsOver plan list relocation handed (handed.readOpening relocation.newHeap.base) := by
  obtain ⟨same, apart⟩ := settles.apart
  have base : relocation.permanentBase = plan.permanentMemory.base := by rw [same]
  have large : relocation.size.toNat ≤ plan.permanentMemory.size.toNat := by
    rw [same]
    exact UInt64.le_iff_toNat_le.mp settles.large
  -- the list was written into the half that becomes the new heap
  rw [written, settles.heap]
  exact handsOver_of_write apart base large settles.fits settles.short_of_half content

theorem Settles.keeps_record (settles : Settles image content plan list relocation)
    (lower : Config.standard.stack.base.toNat ≤ image.contextAddress.toNat)
    (upper : image.contextAddress.toNat + ContextRecord.size ≤ Config.standard.stack.bound) :
    (relocation.copyHalves (written content plan list relocation)).readContext
        (relocation.moveAddress image.contextAddress) =
      content.readContext image.contextAddress := by
  have short := (BlockList.length_encode list (introduced plan relocation)).trans_le
    settles.short_of_half
  rw [settles.stack] at lower upper
  rw [written, settles.heap]
  exact readContext_of_write settles.apart.2 content short lower upper

end Geometry

theorem told_of_handOver {supervisor : Supervisor} {image : Image}
    {bootHart deviceTree listAddress : UInt64} {machine handed : Machine}
    (handing : (BootRoutine.handOver supervisor image bootHart deviceTree).Yields machine
      listAddress handed) :
    (BootRoutine.flow supervisor image bootHart deviceTree machine).1.records.getLast? =
      some ⟨.info, .firmware,
        BootRoutine.arrival listAddress handed.context.deviceTree⟩ := by
  have records : (BootRoutine.flow supervisor image bootHart deviceTree machine).1.records = _ :=
    handing.records_bind BootRoutine.resume
  -- nothing but the two messages of the resumed boot follows
  rw [records]
  exact List.getLast?_append_of_ne_nil _ (List.cons_ne_nil _ _)

theorem flow_handsOver {supervisor : Supervisor} {image : Image} {bootHart deviceTree : UInt64}
    {memory : Memory}
    (done : (BootRoutine.flow supervisor image bootHart deviceTree (.start memory)).1.result =
      .ok ()) :
    let record := ContextRecord.initial bootHart deviceTree
    let entered := (Machine.start memory).registered image record
    let ended := BootRoutine.flow supervisor image bootHart deviceTree (.start memory)
    ∃ plan list relocation prepared handed,
      (Publication.platform .standard entered.memory image.contextAddress).Yields
        (.empty Platform.listCapacity) plan list ∧
      (BootRoutine.prepare supervisor image bootHart deviceTree).Yields (.start memory)
        (plan, list, relocation) prepared ∧
      (BootRoutine.migrate relocation).Yields prepared relocation.displacement handed ∧
      (BootRoutine.handOver supervisor image bootHart deviceTree).Yields (.start memory)
        relocation.newHeap.base handed ∧
      (BootRoutine.resume relocation.newHeap.base).Yields handed () ended.2 ∧
      ended.1.records.getLast? = some ⟨.info, .firmware,
        BootRoutine.arrival relocation.newHeap.base handed.context.deviceTree⟩ ∧
      HandsOver plan list relocation handed.memory
        (handed.memory.readOpening relocation.newHeap.base) ∧
      (Config.standard.stack.base.toNat ≤ image.contextAddress.toNat →
        image.contextAddress.toNat + ContextRecord.size ≤ Config.standard.stack.bound →
        handed.context = record) := by
  intro record entered ended
  obtain ⟨plan, list, relocation, settles⟩ := BootRoutine.settles_of_flow ⟨done, rfl⟩
  obtain ⟨prepared, handed, preparing, migrating, handing, held⟩ :=
    BootRoutine.handOver_of_settles supervisor settles
  obtain ⟨moved, pointer⟩ := Prod.mk.inj held
  have resuming := BootRoutine.resume_yields relocation.newHeap.base handed
  have last : handed = ended.2 := (handing.bind resuming).2.symm
  refine ⟨plan, list, relocation, prepared, handed, settles.published, preparing, migrating,
    handing, last ▸ resuming, told_of_handOver handing, ?_, fun lower upper => ?_⟩
  · rw [moved]
    exact settles.handsOver
  · rw [Machine.context, moved, pointer, settles.keeps_record lower upper]
    exact Memory.readContext_writeContext memory image.contextAddress record

def smallTree : List UInt8 :=
  let opened := (DeviceTree.Writer.empty.beginNode "").beginNode "memory"
  let described := (opened.textProperty "device_type" "memory").regionsProperty
    [(0x80000000, 0x2000000)]
  described.endNode.endNode.finish.1

def smallMemory : Memory :=
  Memory.zero.write 0x10000 smallTree

def smallImage : Image :=
  ⟨⟨0x80000000, 0x100000⟩, 0x80001000, 0x80002000, 0x80ffff00⟩

def refusing : Supervisor where
  answer _ _ := ⟨-2, 0⟩
  resets _ _ := false

theorem smallBoot_handsOver :
    (BootRoutine.flow refusing smallImage 3 0x10000 (.start smallMemory)).1.result = .ok () ∧
      ∃ plan list relocation handed,
        (BootRoutine.handOver refusing smallImage 3 0x10000).Yields (.start smallMemory)
          relocation.newHeap.base handed ∧
        (BootRoutine.flow refusing smallImage 3 0x10000 (.start smallMemory)).1.records.getLast? =
          some ⟨.info, .firmware, BootRoutine.arrival relocation.newHeap.base 0x10000⟩ ∧
        HandsOver plan list relocation handed.memory
          (handed.memory.readOpening relocation.newHeap.base) ∧
        handed.context = .initial 3 0x10000 := by
  have done : (BootRoutine.flow refusing smallImage 3 0x10000 (.start smallMemory)).1.result =
      .ok () := by
    decide +kernel
  obtain ⟨plan, list, relocation, _, handed, _, _, _, handing, _, told, handsOver, context⟩ :=
    flow_handsOver done
  have kept : handed.context = .initial 3 0x10000 := context (by decide) (by decide)
  rw [kept] at told
  exact ⟨done, plan, list, relocation, handed, handing, told, handsOver, kept⟩

end EarlyBoot.Boot
