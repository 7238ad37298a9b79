import EarlyBoot.Platform.MemoryPlan
import EarlyBoot.Proofs.Attempt
import EarlyBoot.Proofs.Memory.Region

set_option autoImplicit false

namespace EarlyBoot.Platform.MemoryPlan

open HandOff (Block)

@[simp]
theorem result_refuse {α : Type} (text : String) (failure : Failure) :
    (refuse text failure : Attempt α).result = .error failure := rfl

theorem result_stopOf_bind {α : Type} (region : Region) (next : UInt64 → Attempt α) :
    (stopOf region >>= next).result =
      if UInt64.size ≤ region.bound then .error .addressOverflow
      else (next (region.base + region.size)).result := by
  rw [Attempt.result_bind, stopOf]
  split_ifs with overflow
  · rw [Region.stop?_eq_none_iff.mpr overflow]
    rfl
  · rw [Region.stop?_of_lt (Nat.not_le.mp overflow)]
    rfl

theorem result_carve (window : Window) (start stop reservedStop : UInt64) :
    (carve window start stop reservedStop).result =
      if window.reserved.isEmpty = true ∨ reservedStop ≤ start then
        .ok (undivided window (.between start stop))
      else if window.reserved.base < start then .error .usableWindowUnderflow
      else
        let plan := divided window (.between start window.reserved.base)
          (.between reservedStop stop)
        if plan.permanentMemory.isEmpty = true then .error .usableWindowUnderflow
        else .ok plan := by
  unfold carve
  simp only [Bool.or_eq_true, decide_eq_true_eq]
  split_ifs <;> rfl

theorem result_ofWindow (window : Window) (reservedPrefix : UInt64) :
    (ofWindow window reservedPrefix).result =
      if window.system.isEmpty = true then .error .noSystemMemory
      else if UInt64.size ≤ window.system.bound then .error .addressOverflow
      else if UInt64.size ≤ window.system.base.toNat + reservedPrefix.toNat then
        .error .addressOverflow
      else if window.system.bound ≤ window.system.base.toNat + reservedPrefix.toNat then
        .error .usableWindowUnderflow
      else if UInt64.size ≤ window.reserved.bound then .error .addressOverflow
      else if window.reserved.isEmpty = false ∧
          (window.reserved.base < window.system.base ∨
            window.system.bound < window.reserved.bound) then
        .error (.reservedOutsideSystemMemory window.reserved)
      else
        (carve window (window.system.base + reservedPrefix)
          (window.system.base + window.system.size)
          (window.reserved.base + window.reserved.size)).result := by
  unfold ofWindow
  by_cases empty : window.system.isEmpty = true
  · simp [empty]
  rw [if_neg empty, if_neg empty, result_stopOf_bind]
  by_cases overflow : UInt64.size ≤ window.system.bound
  · rw [if_pos overflow, if_pos overflow]
  rw [if_neg overflow, if_neg overflow, result_stopOf_bind]
  change (if UInt64.size ≤ window.system.base.toNat + reservedPrefix.toNat then _ else _) = _
  by_cases prefixOverflow : UInt64.size ≤ window.system.base.toNat + reservedPrefix.toNat
  · rw [if_pos prefixOverflow, if_pos prefixOverflow]
  rw [if_neg prefixOverflow, if_neg prefixOverflow]
  have stop := Region.toNat_base_add_size (Nat.not_le.mp overflow)
  have start := Word.toNat_add_of_lt (Nat.not_le.mp prefixOverflow)
  simp only [UInt64.le_iff_toNat_le, stop, start]
  by_cases underflow : window.system.bound ≤ window.system.base.toNat + reservedPrefix.toNat
  · rw [if_pos underflow, if_pos underflow, result_refuse]
  rw [if_neg underflow, if_neg underflow, result_stopOf_bind]
  by_cases reservedOverflow : UInt64.size ≤ window.reserved.bound
  · rw [if_pos reservedOverflow, if_pos reservedOverflow]
  rw [if_neg reservedOverflow, if_neg reservedOverflow]
  have reservedStop := Region.toNat_base_add_size (Nat.not_le.mp reservedOverflow)
  simp only [isOutside, Bool.and_eq_true, Bool.or_eq_true, Bool.not_eq_true', decide_eq_true_eq,
    UInt64.lt_iff_toNat_lt, stop, reservedStop]
  split_ifs <;> rfl

theorem carved_of_ofWindow {window : Window} {reservedPrefix : UInt64} {plan : MemoryPlan}
    (planned : (ofWindow window reservedPrefix).result = .ok plan) :
    window.system.bound < UInt64.size ∧
      window.system.base.toNat + reservedPrefix.toNat < window.system.bound ∧
      window.reserved.bound < UInt64.size ∧
      (window.reserved.isEmpty = true ∨
        window.system.base.toNat ≤ window.reserved.base.toNat ∧
          window.reserved.bound ≤ window.system.bound) ∧
      (carve window (window.system.base + reservedPrefix)
        (window.system.base + window.system.size)
        (window.reserved.base + window.reserved.size)).result = .ok plan := by
  rw [result_ofWindow] at planned
  split_ifs at planned with _ overflow _ underflow reservedOverflow outside
  refine ⟨Nat.not_le.mp overflow, Nat.not_le.mp underflow, Nat.not_le.mp reservedOverflow, ?_,
    planned⟩
  by_cases empty : window.reserved.isEmpty = true
  · exact .inl empty
  · rw [Bool.not_eq_true] at empty
    simp only [empty, true_and, not_or, UInt64.lt_iff_toNat_lt] at outside
    exact .inr (by omega)

inductive Shaped (window : Window) (start stop : UInt64) : MemoryPlan → Prop where
  | whole (ignored : window.reserved.isEmpty = true ∨ window.reserved.bound ≤ start.toNat) :
      Shaped window start stop (undivided window (.between start stop))
  | split {reservedStop : UInt64} (reservedEq : reservedStop.toNat = window.reserved.bound)
      (occupied : 0 < window.reserved.size.toNat)
      (lower : start.toNat ≤ window.reserved.base.toNat)
      (upper : reservedStop.toNat ≤ stop.toNat)
      (permanent : (divided window (.between start window.reserved.base)
        (.between reservedStop stop)).permanentMemory.isEmpty = false) :
      Shaped window start stop (divided window (.between start window.reserved.base)
        (.between reservedStop stop))

theorem shaped_of_ofWindow {window : Window} {reservedPrefix : UInt64} {plan : MemoryPlan}
    (planned : (ofWindow window reservedPrefix).result = .ok plan) :
    ∃ start stop : UInt64, start.toNat = window.system.base.toNat + reservedPrefix.toNat ∧
      stop.toNat = window.system.bound ∧ start.toNat < stop.toNat ∧
      Shaped window start stop plan := by
  obtain ⟨systemFits, order, reservedFits, nested, carved⟩ := carved_of_ofWindow planned
  have stopEq := Region.toNat_base_add_size systemFits
  have reservedEq := Region.toNat_base_add_size reservedFits
  have startEq : (window.system.base + reservedPrefix).toNat = _ :=
    Word.toNat_add_of_lt (order.trans systemFits)
  refine ⟨_, _, startEq, stopEq, by omega, ?_⟩
  rw [result_carve] at carved
  split at carved
  next ignored =>
    obtain rfl := Except.ok.inj carved
    rw [UInt64.le_iff_toNat_le, reservedEq] at ignored
    exact .whole ignored
  next active =>
    obtain ⟨occupied, _⟩ := not_or.mp active
    split_ifs at carved with straddles
    dsimp only at carved
    split_ifs at carved with underflow
    obtain rfl := Except.ok.inj carved
    rw [UInt64.not_lt, UInt64.le_iff_toNat_le] at straddles
    -- a reservation that is not empty lies inside system memory
    have upper := (nested.resolve_left occupied).2
    rw [Bool.not_eq_true] at occupied underflow
    exact .split reservedEq (Region.isEmpty_eq_false_iff.mp occupied) straddles
      (by rwa [reservedEq, stopEq]) underflow

structure Publishable (window : Window) (plan : MemoryPlan) : Prop where
  length : plan.descriptors.length ≤ 4
  regions : ∀ block ∈ plan.descriptors, ∀ region ∈ block.region?,
    0 < region.size.toNat ∧ region.bound < UInt64.size
  allocations : plan.descriptors.filter Block.isAllocation = [] ∨
    plan.descriptors.filter Block.isAllocation = [.memoryAllocation window.system .reserved]

theorem length_usableRange (region : Region) : (usableRange region).length ≤ 1 := by
  unfold usableRange
  split <;> simp

theorem region_of_mem_usableRange {region : Region} {block : Block}
    (member : block ∈ usableRange region) :
    0 < region.size.toNat ∧ block.region? = some region := by
  unfold usableRange at member
  split at member
  next => contradiction
  next nonempty =>
    rw [Bool.not_eq_true, Region.isEmpty_eq_false_iff] at nonempty
    exact ⟨nonempty, List.mem_singleton.mp member ▸ rfl⟩

@[simp]
theorem allocations_usableRange (region : Region) :
    (usableRange region).filter Block.isAllocation = [] := by
  unfold usableRange
  split <;> rfl

theorem undivided_publishable {window : Window} {start stop : UInt64}
    (order : start.toNat < stop.toNat) :
    Publishable window (undivided window (.between start stop)) where
  length := by simp [undivided]
  regions := by
    intro block member region found
    obtain rfl := List.mem_singleton.mp member
    obtain rfl := Option.some.inj found
    have nonempty : 0 < (Region.between start stop).size.toNat := by
      rw [Region.size_between]
      omega
    exact ⟨nonempty, Region.bound_between_lt nonempty⟩
  allocations := .inl rfl

theorem divided_publishable {window : Window} {start stop reservedStop : UInt64}
    (systemNonempty : 0 < window.system.size.toNat)
    (systemFits : window.system.bound < UInt64.size)
    (reservedNonempty : 0 < window.reserved.size.toNat)
    (reservedFits : window.reserved.bound < UInt64.size) :
    Publishable window (divided window (.between start window.reserved.base)
      (.between reservedStop stop)) where
  length := by
    have below := length_usableRange (.between start window.reserved.base)
    have above := length_usableRange (.between reservedStop stop)
    simp only [divided, List.length_append, List.length_singleton]
    omega
  regions := by
    intro block member region found
    simp only [divided, List.mem_append, List.mem_singleton] at member
    obtain ((below | rfl) | above) | rfl := member
    · obtain ⟨nonempty, same⟩ := region_of_mem_usableRange below
      obtain rfl := Option.some.inj (same.symm.trans found)
      exact ⟨nonempty, Region.bound_between_lt nonempty⟩
    · obtain rfl := Option.some.inj found
      exact ⟨reservedNonempty, reservedFits⟩
    · obtain ⟨nonempty, same⟩ := region_of_mem_usableRange above
      obtain rfl := Option.some.inj (same.symm.trans found)
      exact ⟨nonempty, Region.bound_between_lt nonempty⟩
    · obtain rfl := Option.some.inj found
      exact ⟨systemNonempty, systemFits⟩
  allocations := by
    right
    simp [divided, List.filter_cons, Block.isAllocation, Block.reservedMemory]

theorem publishable_of_ofWindow {window : Window} {reservedPrefix : UInt64} {plan : MemoryPlan}
    (planned : (ofWindow window reservedPrefix).result = .ok plan) : Publishable window plan := by
  obtain ⟨systemFits, order, reservedFits, _, _⟩ := carved_of_ofWindow planned
  obtain ⟨start, stop, _, _, above, shaped⟩ := shaped_of_ofWindow planned
  cases shaped with
  | whole => exact undivided_publishable above
  | split _ occupied =>
    have systemNonempty : 0 < window.system.size.toNat := by
      rw [Region.bound] at order
      omega
    exact divided_publishable systemNonempty systemFits occupied reservedFits

theorem mem_usableRange {region : Region} (nonempty : region.isEmpty = false) :
    .usableMemory region ∈ usableRange region := by
  rw [usableRange, nonempty]
  exact List.mem_singleton.mpr rfl

structure Permanent (window : Window) (start : Nat) (plan : MemoryPlan) : Prop where
  published : .usableMemory plan.permanentMemory ∈ plan.descriptors
  above : start ≤ plan.permanentMemory.base.toNat
  inside : plan.permanentMemory.bound ≤ window.system.bound
  clear : ¬plan.permanentMemory.Meets window.reserved

theorem undivided_permanent {window : Window} {start stop : UInt64}
    (stopEq : stop.toNat = window.system.bound) (order : start.toNat < stop.toNat)
    (ignored : window.reserved.isEmpty = true ∨ window.reserved.bound ≤ start.toNat) :
    Permanent window start.toNat (undivided window (.between start stop)) where
  published := List.mem_singleton.mpr rfl
  above := Nat.le_refl _
  inside := Nat.le_of_eq ((Region.bound_between (Nat.le_of_lt order)).trans stopEq)
  clear := by
    intro meets
    obtain ⟨_, occupied, below, _⟩ := Region.meets_iff.mp meets
    change start.toNat < _ at below
    rcases ignored with empty | behind
    · rw [Region.isEmpty_iff] at empty
      omega
    · -- the reservation ends before the usable memory starts
      omega

theorem divided_permanent {window : Window} {start stop reservedStop : UInt64}
    (stopEq : stop.toNat = window.system.bound)
    (reservedEq : reservedStop.toNat = window.reserved.bound)
    (lower : start.toNat ≤ window.reserved.base.toNat)
    (upper : reservedStop.toNat ≤ stop.toNat)
    {plan : MemoryPlan}
    (planEq : plan = divided window (.between start window.reserved.base)
      (.between reservedStop stop))
    (permanent : plan.permanentMemory.isEmpty = false) : Permanent window start.toNat plan := by
  have below := Region.bound_between lower
  have above := Region.bound_between upper
  have reserved : window.reserved.bound =
      window.reserved.base.toNat + window.reserved.size.toNat := rfl
  -- what lies below the reservation is chosen, unless it is empty
  by_cases empty : (Region.between start window.reserved.base).isEmpty = true
  · have chosen : plan.permanentMemory = .between reservedStop stop := by
      rw [planEq, divided]
      exact if_pos empty
    rw [chosen] at permanent
    exact {
      published := by
        rw [chosen, planEq]
        simp [divided, mem_usableRange permanent]
      above := by
        rw [chosen, Region.base_between]
        omega
      inside := by
        rw [chosen]
        omega
      clear := by
        rw [chosen, Region.meets_iff, Region.base_between]
        omega }
  · have chosen : plan.permanentMemory = .between start window.reserved.base := by
      rw [planEq, divided]
      exact if_neg empty
    rw [Bool.not_eq_true] at empty
    exact {
      published := by
        rw [chosen, planEq]
        simp [divided, mem_usableRange empty]
      above := by rw [chosen, Region.base_between]
      inside := by
        rw [chosen]
        omega
      clear := by
        rw [chosen, Region.meets_iff]
        omega }

theorem permanent_of_ofWindow {window : Window} {reservedPrefix : UInt64} {plan : MemoryPlan}
    (planned : (ofWindow window reservedPrefix).result = .ok plan) :
    Permanent window (window.system.base.toNat + reservedPrefix.toNat) plan := by
  obtain ⟨start, stop, startEq, stopEq, order, shaped⟩ := shaped_of_ofWindow planned
  rw [← startEq]
  cases shaped with
  | whole ignored => exact undivided_permanent stopEq order ignored
  | split reservedEq _ lower upper permanent =>
    exact divided_permanent stopEq reservedEq lower upper rfl permanent

end EarlyBoot.Platform.MemoryPlan
