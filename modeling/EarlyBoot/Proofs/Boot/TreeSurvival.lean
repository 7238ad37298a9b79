import EarlyBoot.Proofs.Boot.Target
import EarlyBoot.Proofs.Boot.Verdict
import EarlyBoot.Proofs.DeviceTree.Validation

set_option autoImplicit false

namespace EarlyBoot

namespace DeviceTree

theorem ofMemory_eq_ok {memory : Memory} {address : UInt64} {tree : DeviceTree}
    (read : ofMemory memory address = .ok tree) :
    address ≠ 0 ∧ Header.size ≤ tree.header.totalSize.toNat ∧
      Header.ofBytes (memory.read address Header.size) = .ok tree.header ∧
      ofBytes (memory.read address tree.header.totalSize.toNat) = .ok tree := by
  unfold ofMemory at read
  by_cases null : address = 0
  · rw [if_pos null] at read
    cases read
  rw [if_neg null] at read
  have reads := ofBytes_header (memory.read address Header.size)
  rw [if_neg (by simp [Header.size])] at reads
  cases found : Header.ofBytes (memory.read address Header.size) with
  | error error =>
    rw [found] at read
    cases read
  | ok header =>
    rw [found] at read reads
    change ofBytes (memory.read address header.totalSize.toNat) = .ok tree at read
    obtain ⟨framed, same, _⟩ := parts_of_ofBytes read
    -- the header that was read first is the front of the blob
    have long : Header.size ≤ header.totalSize.toNat := by
      simpa [Header.size] using framed.header
    have front : (memory.read address header.totalSize.toNat).take Header.size =
        memory.read address Header.size := by
      obtain ⟨rest, split⟩ := Nat.exists_eq_add_of_le long
      rw [split, Memory.read_add]
      exact List.take_left' (Memory.length_read memory address Header.size)
    have headers : header = tree.header := by
      rw [same, ← frame_take (Nat.le_refl Header.size), front]
      cases checked : (frame (memory.read address Header.size)).check with
      | error error =>
        rw [checked] at reads
        cases reads
      | ok _ =>
        rw [checked] at reads
        exact Except.ok.inj reads
    subst headers
    exact ⟨null, long, rfl, read⟩

theorem ofMemory_congr {first second : Memory} {address : UInt64} {tree : DeviceTree}
    (read : ofMemory first address = .ok tree)
    (same : second.read address tree.header.totalSize.toNat =
      first.read address tree.header.totalSize.toNat) :
    ofMemory second address = .ok tree := by
  obtain ⟨registered, long, header, blob⟩ := ofMemory_eq_ok read
  have front : second.read address Header.size = first.read address Header.size :=
    Memory.read_congr fun _ inside => Memory.byte_eq_of_read same (inside.trans_le long)
  unfold ofMemory
  rw [if_neg registered, front, header]
  change ofBytes (second.read address tree.header.totalSize.toNat) = .ok tree
  rw [same, blob]

end DeviceTree

namespace Boot

open BootRoutine (flow)
open HandOff (BlockList)
open Platform (Config MemoryPlan Publication Relocation)

/-- The address lies in none of the ranges that a boot writes. -/
structure Spares (image : Image) (list : BlockList) (relocation : Relocation)
    (address : UInt64) : Prop where
  record : ContextRecord.size ≤ (address - image.contextAddress).toNat
  list : list.encodedLength ≤ (address - Config.standard.heap.base).toNat
  permanent : relocation.permanent.contains address = false

structure Survival (image : Image) (bootHart deviceTree : UInt64) (memory last : Memory)
    (tree : DeviceTree) (list : BlockList) (relocation : Relocation) : Prop where
  read : DeviceTree.ofMemory (image.content bootHart deviceTree memory) deviceTree = .ok tree
  published : .generic .deviceTree deviceTree ∈ list.blocks
  untouched : ∀ address, Spares image list relocation address →
    last.byte address = memory.byte address
  intact : (∀ index < tree.header.totalSize.toNat,
      Spares image list relocation (deviceTree + UInt64.ofNat index)) →
    last.read deviceTree tree.header.totalSize.toNat =
        memory.read deviceTree tree.header.totalSize.toNat ∧
      DeviceTree.ofMemory last deviceTree = .ok tree
  sheltered : image.RecordOnStack → ∀ address,
    Config.standard.temporaryRam.contains address = false →
    Region.contains ⟨(Platform.Discovery.systemMemory tree).base, Config.standard.reservedPrefix⟩
        address = true ∨
      (Platform.Discovery.reservedMemory tree Config.standard.reservedPath).contains address =
        true →
    Spares image list relocation address

section Survival

variable {image : Image} {bootHart deviceTree : UInt64} {memory : Memory} {plan : MemoryPlan}
  {list : BlockList} {relocation : Relocation} {address : UInt64}

theorem byte_of_spares (apart : relocation.Apart) (spares : Spares image list relocation address) :
    (relocation.copyHalves (written (image.content bootHart deviceTree memory) plan list
      relocation)).byte address = memory.byte address := by
  rw [Relocation.copyHalves_outside apart _ spares.permanent, written,
    Memory.byte_write_of_length_le, Image.content, Memory.writeContext,
    Memory.byte_write_of_length_le]
  · rw [ContextRecord.length_encode]
    exact spares.record
  · rw [BlockList.length_encode]
    exact spares.list

theorem le_sub_of_temporary {start : UInt64} {length : Nat}
    (lower : Config.standard.temporaryRam.base.toNat ≤ start.toNat)
    (upper : start.toNat + length ≤ Config.standard.temporaryRam.bound)
    (outside : Config.standard.temporaryRam.contains address = false) :
    length ≤ (address - start).toNat := by
  have top : Config.standard.temporaryRam.bound < UInt64.size := by decide
  rw [← Bool.not_eq_true, Region.contains_iff] at outside
  exact Memory.length_le_sub (by omega) (by omega)

theorem Settles.spares {tree : DeviceTree} {content : Memory}
    (settles : Settles image content plan list relocation)
    (published : Platform.Published .standard content image.contextAddress tree plan list)
    (seated : image.RecordOnStack)
    (outside : Config.standard.temporaryRam.contains address = false)
    (kept : Region.contains
          ⟨(Platform.Discovery.systemMemory tree).base, Config.standard.reservedPrefix⟩
          address = true ∨
        (Platform.Discovery.reservedMemory tree Config.standard.reservedPath).contains address =
          true) :
    Spares image list relocation address where
  record := by
    -- the stack is the upper half of the temporary memory
    have stack : Config.standard.temporaryRam.base.toNat ≤ Config.standard.stack.base.toNat ∧
        Config.standard.stack.bound ≤ Config.standard.temporaryRam.bound := by decide
    exact le_sub_of_temporary (stack.1.trans seated.1) (seated.2.trans stack.2) outside
  list := by
    have heap : Config.standard.heap.bound ≤ Config.standard.temporaryRam.bound := by decide
    exact le_sub_of_temporary (Nat.le_refl _)
      ((Nat.add_le_add_left settles.short _).trans heap) outside
  permanent := by
    rcases kept with low | reserved
    · exact Region.not_contains_of_not_meets (settles.clear_of_prefix published) low
    · exact Region.not_contains_of_not_meets (settles.clear_of_reservation published) reserved

end Survival

theorem flow_spares_tree {supervisor : Supervisor} {image : Image} {bootHart deviceTree : UInt64}
    {memory : Memory} {last : Machine}
    (done : (flow supervisor image bootHart deviceTree).Yields (.start memory) () last) :
    ∃ plan list relocation tree,
      Settles image (image.content bootHart deviceTree memory) plan list relocation ∧
      Survival image bootHart deviceTree memory last.memory tree list relocation := by
  obtain ⟨plan, list, relocation, settles⟩ := BootRoutine.settles_of_flow done
  obtain ⟨machine, yields, held⟩ := BootRoutine.flow_of_settles supervisor settles
  obtain ⟨_, rfl⟩ := yields.unique done
  have lastMemory := (Prod.mk.inj held).1
  obtain ⟨_, apart⟩ := settles.apart
  obtain ⟨_, tree, published⟩ := Publication.published settles.published
  have told := Publication.tells_tree settles.published
  have record : (image.content bootHart deviceTree memory).readContext image.contextAddress =
      .initial bootHart deviceTree := Memory.readContext_writeContext memory _ _
  have read := published.read
  rw [record] at told read
  have untouched (address : UInt64) (spares : Spares image list relocation address) :
      machine.memory.byte address = memory.byte address := by
    rw [lastMemory]
    exact byte_of_spares apart spares
  refine ⟨plan, list, relocation, tree, settles, ?_⟩
  exact {
    read := read
    published := told
    untouched := untouched
    intact := by
      intro spared
      -- nor has the record been written into the tree
      have entered : (image.content bootHart deviceTree memory).read deviceTree
          tree.header.totalSize.toNat = memory.read deviceTree tree.header.totalSize.toNat :=
        Memory.read_congr fun index inside => by
          rw [Image.content, Memory.writeContext, Memory.byte_write_of_length_le]
          rw [ContextRecord.length_encode]
          exact (spared index inside).record
      have kept : machine.memory.read deviceTree tree.header.totalSize.toNat =
          memory.read deviceTree tree.header.totalSize.toNat :=
        Memory.read_congr fun index inside => untouched _ (spared index inside)
      exact ⟨kept, DeviceTree.ofMemory_congr read (kept.trans entered.symm)⟩
    sheltered := fun seated _ outside kept => settles.spares published seated outside kept }

-- the tree lies in the firmware prefix, below the temporary memory
def shelteredMemory : Memory :=
  Memory.zero.write 0x80400000 smallTree

theorem shelteredBoot_spares_tree :
    ∃ last tree, (flow refusing smallImage 3 0x80400000).Yields (.start shelteredMemory) () last ∧
      last.memory.read 0x80400000 smallTree.length = smallTree ∧
      DeviceTree.ofMemory last.memory 0x80400000 = .ok tree := by
  have done : (flow refusing smallImage 3 0x80400000 (.start shelteredMemory)).1.result =
      .ok () := by
    decide +kernel
  obtain ⟨plan, list, relocation, tree, settles, survival⟩ := flow_spares_tree ⟨done, rfl⟩
  have known : (DeviceTree.ofMemory (smallImage.content 3 0x80400000 shelteredMemory)
      0x80400000).map (fun tree =>
        ((Platform.Discovery.systemMemory tree).base, tree.header.totalSize.toNat)) =
      .ok (0x80000000, smallTree.length) := by
    decide +kernel
  rw [survival.read] at known
  obtain ⟨base, total⟩ := Prod.mk.inj (Except.ok.inj known)
  have spared (index : Nat) (inside : index < tree.header.totalSize.toNat) :
      Spares smallImage list relocation (0x80400000 + UInt64.ofNat index) := by
    have short : smallTree.length = 152 := by decide +kernel
    have address : ((0x80400000 : UInt64) + UInt64.ofNat index).toNat = 0x80400000 + index :=
      Memory.toNat_add_ofNat (by rw [total, short] at inside; simp [UInt64.size]; omega)
    refine survival.sheltered ⟨by decide, by decide⟩ _ ?_ (.inl ?_)
    · rw [← Bool.not_eq_true, Region.contains_iff, address]
      have lower : 0x80e00000 = Config.standard.temporaryRam.base.toNat := rfl
      omega
    · rw [Region.contains_iff, address, base]
      simp [Region.bound, Config.standard]
      omega
  obtain ⟨kept, again⟩ := survival.intact spared
  rw [total] at kept
  refine ⟨_, tree, ⟨done, rfl⟩, kept.trans ?_, again⟩
  exact Memory.holds_write _ _ (by decide +kernel)

-- the tree lies where the permanent memory will start
def floodedMemory : Memory :=
  Memory.zero.write 0x81000000 smallTree

theorem floodedBoot_loses_tree :
    let ended := flow refusing smallImage 3 0x81000000 (.start floodedMemory)
    ended.1.result = .ok () ∧
      (DeviceTree.ofMemory floodedMemory 0x81000000).map (·.header.totalSize.toNat) =
        .ok smallTree.length ∧
      floodedMemory.read 0x81000000 smallTree.length = smallTree ∧
      ended.2.memory.read 0x81000000 smallTree.length ≠ smallTree ∧
      (DeviceTree.ofMemory ended.2.memory 0x81000000).map (·.header.totalSize.toNat) =
        .error (.badMagic 0) := by
  decide +kernel

end Boot

end EarlyBoot
