import EarlyBoot.Proofs.Platform.MemoryPlan

set_option autoImplicit false

namespace EarlyBoot

open HandOff (Block)

def HandOff.Block.memoryRange? : Block → Option Region
  | .memoryRange region _ => some region
  | _ => none

def HandOff.Block.reservedRange? : Block → Option Region
  | .reservedRange region _ => some region
  | _ => none

def HandOff.Block.range? (block : Block) : Option Region :=
  block.memoryRange?.or block.reservedRange?

namespace Platform.MemoryPlan

open Region (Tiles)

def memoryRanges (plan : MemoryPlan) : List Region :=
  plan.descriptors.filterMap Block.memoryRange?

def reservedRanges (plan : MemoryPlan) : List Region :=
  plan.descriptors.filterMap Block.reservedRange?

def ranges (plan : MemoryPlan) : List Region :=
  plan.descriptors.filterMap Block.range?

structure Covers (window : Window) (start : Nat) (plan : MemoryPlan) : Prop where
  tiles : Tiles start window.system.bound plan.ranges
  ascending : plan.ranges.Pairwise fun lower upper => lower.bound ≤ upper.base.toNat
  memory_iff : ∀ address, (∃ region ∈ plan.memoryRanges, region.contains address = true) ↔
    (start ≤ address.toNat ∧ address.toNat < window.system.bound) ∧
      window.reserved.contains address = false
  reserved_iff : ∀ address, (∃ region ∈ plan.reservedRanges, region.contains address = true) ↔
    start < window.reserved.bound ∧ window.reserved.contains address = true
  allocations : plan.descriptors.filter Block.isAllocation =
    if plan.reservedRanges = [] then [] else [.memoryAllocation window.system .reserved]
  allocation_last : plan.reservedRanges ≠ [] →
    plan.descriptors.getLast? = some (.memoryAllocation window.system .reserved)
  permanent_nonempty : plan.permanentMemory.isEmpty = false
  permanent_published : plan.permanentMemory ∈ plan.memoryRanges
  permanent_lowest : ∀ region ∈ plan.memoryRanges, plan.permanentMemory.base ≤ region.base
  sums : window.system.bound < UInt64.size ∧ start < UInt64.size ∧
    window.reserved.bound < UInt64.size
  differences : start < window.system.bound ∧
    (plan.reservedRanges ≠ [] →
      start ≤ window.reserved.base.toNat ∧ window.reserved.bound ≤ window.system.bound)

theorem contains_eq_false_of_le {window : Window} {start : Nat}
    (ignored : window.reserved.isEmpty = true ∨ window.reserved.bound ≤ start) {address : UInt64}
    (above : start ≤ address.toNat) : window.reserved.contains address = false := by
  rw [← Bool.not_eq_true, Region.contains_iff]
  rcases ignored with empty | below
  · rw [Region.isEmpty_iff] at empty
    rw [Region.bound]
    omega
  · omega

theorem undivided_covers {window : Window} {start stop : UInt64}
    (stopEq : stop.toNat = window.system.bound) (order : start.toNat < stop.toNat)
    (reservedFits : window.reserved.bound < UInt64.size)
    (ignored : window.reserved.isEmpty = true ∨ window.reserved.bound ≤ start.toNat) :
    Covers window start.toNat (undivided window (.between start stop)) := by
  have bound := Region.bound_between (Nat.le_of_lt order)
  have nonempty : 0 < (Region.between start stop).size.toNat := by
    rw [Region.size_between]
    omega
  have memory : (undivided window (.between start stop)).memoryRanges = [.between start stop] := rfl
  have reserved : (undivided window (.between start stop)).reservedRanges = [] := rfl
  have tiles : Tiles start.toNat window.system.bound [.between start stop] :=
    ⟨rfl, nonempty, bound.trans stopEq⟩
  exact {
    tiles := tiles
    ascending := List.pairwise_singleton _ _
    memory_iff := by
      intro address
      rw [memory, tiles.exists_contains_iff address, iff_self_and]
      exact fun within => contains_eq_false_of_le ignored within.1
    reserved_iff := by
      intro address
      rw [reserved]
      constructor
      · rintro ⟨_, member, _⟩
        contradiction
      · rintro ⟨reaches, inside⟩
        have above := (Region.contains_iff.mp inside).1
        have outside : window.reserved.contains address = false :=
          contains_eq_false_of_le (ignored.imp_right fun below => by omega) above
        exact absurd inside (by simp [outside])
    allocations := rfl
    allocation_last := fun published => absurd reserved published
    permanent_nonempty := Region.isEmpty_eq_false_iff.mpr nonempty
    permanent_published := List.mem_singleton.mpr rfl
    permanent_lowest := by
      intro region member
      rw [memory, List.mem_singleton] at member
      exact UInt64.le_of_eq (congrArg Region.base member.symm)
    sums := ⟨stopEq ▸ stop.toNat_lt, start.toNat_lt, reservedFits⟩
    differences := ⟨stopEq ▸ order, fun published => absurd reserved published⟩ }

@[simp]
theorem memoryRanges_usableRange (region : Region) :
    (usableRange region).filterMap Block.memoryRange? = region.occupied := by
  unfold usableRange Region.occupied
  split <;> rfl

@[simp]
theorem reservedRanges_usableRange (region : Region) :
    (usableRange region).filterMap Block.reservedRange? = [] := by
  unfold usableRange
  split <;> rfl

@[simp]
theorem ranges_usableRange (region : Region) :
    (usableRange region).filterMap Block.range? = region.occupied := by
  unfold usableRange Region.occupied
  split <;> rfl

theorem divided_covers {window : Window} {start stop reservedStop : UInt64}
    (stopEq : stop.toNat = window.system.bound)
    (reservedEq : reservedStop.toNat = window.reserved.bound)
    (nonempty : window.reserved.isEmpty = false)
    (lower : start.toNat ≤ window.reserved.base.toNat)
    (upper : reservedStop.toNat ≤ stop.toNat)
    {plan : MemoryPlan}
    (planEq : plan = divided window (.between start window.reserved.base)
      (.between reservedStop stop))
    (permanent : plan.permanentMemory.isEmpty = false) :
    Covers window start.toNat plan := by
  have memory : plan.memoryRanges = (Region.between start window.reserved.base).occupied ++
      (Region.between reservedStop stop).occupied := by
    simp [planEq, memoryRanges, divided, List.filterMap_cons, Block.memoryRange?,
      Block.reservedMemory]
  have reserved : plan.reservedRanges = [window.reserved] := by
    simp [planEq, reservedRanges, divided, List.filterMap_cons, Block.reservedRange?,
      Block.reservedMemory]
  have ranges : plan.ranges = (Region.between start window.reserved.base).occupied ++
      [window.reserved] ++ (Region.between reservedStop stop).occupied := by
    simp [planEq, ranges, divided, Block.range?, Block.memoryRange?,
      Block.reservedRange?, Block.reservedMemory]
  have chosen : plan.permanentMemory =
      if (Region.between start window.reserved.base).isEmpty then .between reservedStop stop
      else .between start window.reserved.base := by
    rw [planEq, divided]
  have below := Region.tiles_occupied lower
  have above := Region.tiles_occupied upper
  rw [reservedEq, stopEq] at above
  have inhabited := Region.isEmpty_eq_false_iff.mp nonempty
  have middle : Tiles window.reserved.base.toNat window.reserved.bound [window.reserved] :=
    ⟨rfl, inhabited, rfl⟩
  have tiles : Tiles start.toNat window.system.bound plan.ranges :=
    ranges ▸ (below.append middle).append above
  have order : window.reserved.base.toNat < window.reserved.bound :=
    Nat.lt_add_of_pos_right inhabited
  exact {
    tiles := tiles
    ascending := tiles.pairwise
    memory_iff := by
      intro address
      simp only [memory, List.mem_append, or_and_right, exists_or, below.exists_contains_iff,
        above.exists_contains_iff]
      rw [← Bool.not_eq_true, Region.contains_iff]
      omega
    reserved_iff := by
      intro address
      simp only [reserved, List.mem_singleton, exists_eq_left, iff_and_self]
      omega
    allocations := by
      rw [reserved, planEq, divided]
      simp [List.filter_cons, Block.isAllocation, Block.reservedMemory]
    allocation_last := by
      intro _
      rw [planEq, divided]
      exact List.getLast?_concat
    permanent_nonempty := permanent
    permanent_published := by
      rw [memory, List.mem_append, Region.mem_occupied, Region.mem_occupied]
      split at chosen
      next => exact .inr ⟨chosen ▸ permanent, chosen⟩
      next => exact .inl ⟨chosen ▸ permanent, chosen⟩
    permanent_lowest := by
      intro region member
      rw [memory, List.mem_append, Region.mem_occupied, Region.mem_occupied] at member
      rcases member with ⟨occupied, rfl⟩ | ⟨_, rfl⟩
      · rw [chosen, occupied]
        exact UInt64.le_refl _
      · rw [chosen, UInt64.le_iff_toNat_le]
        split
        next => exact Nat.le_refl _
        next => rw [Region.base_between, Region.base_between, reservedEq]; omega
    sums := ⟨stopEq ▸ stop.toNat_lt, start.toNat_lt, reservedEq ▸ reservedStop.toNat_lt⟩
    differences := ⟨by have := above.le; omega, fun _ => ⟨lower, above.le⟩⟩ }

theorem ofWindow_covers {window : Window} {reservedPrefix : UInt64} {plan : MemoryPlan}
    (planned : (ofWindow window reservedPrefix).result = .ok plan) :
    Covers window (window.system.base.toNat + reservedPrefix.toNat) plan := by
  obtain ⟨systemFits, order, reservedFits, nested, carved⟩ := carved_of_ofWindow planned
  have stopEq := Region.toNat_base_add_size systemFits
  have reservedEq := Region.toNat_base_add_size reservedFits
  have startEq := Word.toNat_add_of_lt (order.trans systemFits)
  rw [← startEq] at order ⊢
  rw [result_carve] at carved
  split at carved
  next ignored =>
    obtain rfl := Except.ok.inj carved
    rw [UInt64.le_iff_toNat_le, reservedEq] at ignored
    exact undivided_covers stopEq (stopEq ▸ order) reservedFits ignored
  next active =>
    obtain ⟨nonempty, _⟩ := not_or.mp active
    split_ifs at carved with straddles
    dsimp only at carved
    split_ifs at carved with underflow
    rw [Bool.not_eq_true] at nonempty underflow
    rw [UInt64.not_lt, UInt64.le_iff_toNat_le] at straddles
    rcases nested with empty | ⟨_, upper⟩
    · simp [empty] at nonempty
    · exact divided_covers stopEq reservedEq nonempty straddles
        (by rwa [reservedEq, stopEq]) (Except.ok.inj carved).symm (Except.ok.inj carved ▸ underflow)

def topWindow : Window where
  system := ⟨0xfffffffffff00000, 0xfffff⟩
  reserved := ⟨0xffffffffffff0000, 0xffff⟩

theorem topWindow_covers :
    ∃ plan, (ofWindow topWindow 0x80000).result = .ok plan ∧
      Covers topWindow 0xfffffffffff80000 plan := by
  have planned : (ofWindow topWindow 0x80000).result = .ok (divided topWindow
      (.between 0xfffffffffff80000 0xffffffffffff0000)
      (.between 0xffffffffffffffff 0xffffffffffffffff)) := rfl
  exact ⟨_, planned, ofWindow_covers planned⟩

end Platform.MemoryPlan

end EarlyBoot
