import EarlyBoot.HandOff.Encoding
import EarlyBoot.Proofs.Platform.Publication

set_option autoImplicit false

namespace EarlyBoot

namespace HandOff.BlockList

theorem bodyLength_le (blocks : List Block) : bodyLength blocks ≤ 48 * blocks.length := by
  induction blocks with
  | nil => exact Nat.le_refl 0
  | cons block rest ih =>
    have longest : block.length ≤ 48 := by cases block <;> simp [Block.length]
    simp only [bodyLength, List.length_cons]
    omega

theorem encodedLength_le {list : BlockList} (sound : list.Sound) :
    list.encodedLength ≤ introductionLength + 48 * list.capacity + headerLength := by
  have body := bodyLength_le list.blocks
  have room := sound.capacity
  rw [encodedLength]
  omega

end HandOff.BlockList

theorem DeviceTree.ofMemory_zero (content : Memory) :
    ofMemory content 0 = .error .nullPointer := rfl

namespace Platform

open HandOff (BlockList)

theorem Discovery.scanContext_eq_ok {content : Memory} {contextPointer : UInt64} {path : String}
    {found : Window} :
    (scanContext content contextPointer path).result = .ok found ↔
      contextPointer ≠ 0 ∧ ∃ tree,
        DeviceTree.ofMemory content (content.readContext contextPointer).deviceTree = .ok tree ∧
          window tree path = found := by
  unfold scanContext scanAt
  by_cases missing : contextPointer = 0
  · rw [if_pos missing]
    exact iff_of_false nofun fun known => known.1 missing
  rw [if_neg missing]
  by_cases null : (content.readContext contextPointer).deviceTree = 0
  · rw [if_pos null]
    refine iff_of_false nofun fun known => ?_
    obtain ⟨_, tree, read, _⟩ := known
    rw [null, DeviceTree.ofMemory_zero] at read
    cases read
  rw [if_neg null]
  cases read : DeviceTree.ofMemory content (content.readContext contextPointer).deviceTree with
  | error error => exact iff_of_false nofun (by simp)
  | ok tree => simp [scan, missing]

structure Published (config : Config) (content : Memory) (contextPointer : UInt64)
    (tree : DeviceTree) (plan : MemoryPlan) (list : BlockList) : Prop where
  registered : contextPointer ≠ 0
  read : DeviceTree.ofMemory content (content.readContext contextPointer).deviceTree = .ok tree
  planned : (MemoryPlan.ofWindow (Discovery.window tree config.reservedPath)
    config.reservedPrefix).result = .ok plan
  descriptors : plan.descriptors ⊆ list.blocks
  sound : list.Sound

theorem Publication.queued {config : Config} {content : Memory} {contextPointer : UInt64}
    {capacity : Nat} {plan : MemoryPlan} {list : BlockList}
    (yields : (platform config content contextPointer).Yields (.empty capacity) plan list) :
    (planned config content contextPointer).result = .ok plan ∧ list.Sound ∧
      list = (BlockList.empty capacity).extend
        (queue config plan (content.readContext contextPointer).deviceTree) := by
  obtain ⟨result, after⟩ := yields
  cases made : (planned config content contextPointer).result with
  | error failure =>
    rw [(platform_of_error made _).1] at result
    cases result
  | ok value =>
    obtain ⟨ends, leaves⟩ := platform_of_ok made (.empty capacity)
    rw [ends] at result
    rw [leaves] at after
    obtain rfl := result_publish result
    have delivers := delivers_publish config plan (content.readContext contextPointer).deviceTree
    have succeeds : Succeeds (publish config plan _) (.empty capacity) := ⟨plan, result⟩
    have whole := delivers.after succeeds
    rw [after] at whole
    exact ⟨rfl, whole ▸ (delivers.wholly _ (BlockList.sound_empty capacity)).mp succeeds, whole⟩

theorem Publication.published {config : Config} {content : Memory} {contextPointer : UInt64}
    {capacity : Nat} {plan : MemoryPlan} {list : BlockList}
    (yields : (platform config content contextPointer).Yields (.empty capacity) plan list) :
    list.capacity = capacity ∧
      ∃ tree, Published config content contextPointer tree plan list := by
  obtain ⟨made, sound, rfl⟩ := queued yields
  obtain ⟨window, scanned, fromWindow⟩ := planned_eq_ok_iff.mp made
  obtain ⟨registered, tree, read, rfl⟩ := Discovery.scanContext_eq_ok.mp scanned
  -- the blocks of the plan are the first that are queued
  exact ⟨rfl, tree, {
    registered := registered
    read := read
    planned := fromWindow
    descriptors := List.subset_append_left _ _
    sound := sound }⟩

theorem Publication.tells_tree {config : Config} {content : Memory} {contextPointer : UInt64}
    {capacity : Nat} {plan : MemoryPlan} {list : BlockList}
    (yields : (platform config content contextPointer).Yields (.empty capacity) plan list) :
    .generic .deviceTree (content.readContext contextPointer).deviceTree ∈ list.blocks := by
  obtain ⟨_, _, rfl⟩ := queued yields
  simp [queue, BlockList.extend, BlockList.empty]

end Platform

end EarlyBoot
