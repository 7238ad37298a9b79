import EarlyBoot.Proofs.Platform.Relocation

set_option autoImplicit false

namespace EarlyBoot.Platform.Relocation

variable {relocation : Relocation}

theorem apart_iff :
    relocation.Apart ↔
      relocation.temporaryBase.toNat + relocation.size.toNat ≤ 2 ^ 64 - 1 ∧
        relocation.permanentBase.toNat + relocation.size.toNat ≤ 2 ^ 64 - 1 ∧
        ¬relocation.temporary.Meets relocation.permanent := by
  have top : UInt64.size = 2 ^ 64 := rfl
  rw [Region.meets_iff]
  constructor
  · intro apart
    have temporaryFits := apart.temporary_fits
    have permanentFits := apart.permanent_fits
    have disjoint := apart.apart
    simp only [temporary, permanent, Region.bound] at temporaryFits permanentFits disjoint ⊢
    omega
  · intro conditions
    simp only [temporary, permanent, Region.bound] at conditions
    constructor <;> simp only [temporary, permanent, Region.bound] <;> omega

def halves (relocation : Relocation) : List Region :=
  [relocation.oldHeap, relocation.oldStack, relocation.newStack, relocation.newHeap]

theorem size_of_mem_halves {region : Region} (member : region ∈ relocation.halves) :
    region.size.toNat = relocation.size.toNat / 2 := by
  rw [← toNat_half]
  simp only [halves, List.mem_cons, List.not_mem_nil, or_false] at member
  rcases member with rfl | rfl | rfl | rfl <;> rfl

structure Mapped (relocation : Relocation) : Prop where
  oldHeap : relocation.oldHeap.base.toNat = relocation.temporaryBase.toNat
  oldStack : relocation.oldStack.base.toNat =
    relocation.temporaryBase.toNat + relocation.size.toNat / 2
  newStack : relocation.newStack.base.toNat = relocation.permanentBase.toNat
  newHeap : relocation.newHeap.base.toNat =
    relocation.permanentBase.toNat + relocation.size.toNat / 2
  sizes : ∀ region ∈ relocation.halves, region.size.toNat = relocation.size.toNat / 2
  fits : ∀ region ∈ relocation.halves, region.bound ≤ 2 ^ 64 - 1
  from_temporary : relocation.oldHeap.Within relocation.temporary ∧
    relocation.oldStack.Within relocation.temporary
  to_permanent : relocation.newStack.Within relocation.permanent ∧
    relocation.newHeap.Within relocation.permanent
  disjoint : relocation.halves.Pairwise fun first second => ¬first.Meets second
  exact_offset : ∀ address : UInt64, relocation.oldStack.base.toNat ≤ address.toNat →
    address.toNat ≤ relocation.oldStack.base.toNat + relocation.size.toNat →
    (relocation.moveAddress address).toNat =
      relocation.newStack.base.toNat + (address.toNat - relocation.oldStack.base.toNat)
  onto : Set.BijOn relocation.moveAddress
    {address | relocation.oldStack.contains address = true}
    {address | relocation.newStack.contains address = true}

namespace Apart

theorem halves_within (apart : relocation.Apart) :
    (relocation.oldHeap.Within relocation.temporary ∧
      relocation.oldStack.Within relocation.temporary) ∧
    relocation.newStack.Within relocation.permanent ∧
      relocation.newHeap.Within relocation.permanent := by
  have oldStack := apart.toNat_oldStack
  have newHeap := apart.toNat_newHeap
  have half := relocation.toNat_half
  simp only [Relocation.oldStack, Relocation.newHeap] at oldStack newHeap
  simp only [Region.Within, Region.bound, temporary, permanent, oldHeap, Relocation.oldStack,
    newStack, Relocation.newHeap, oldStack, newHeap, half]
  omega

theorem halves_fit (apart : relocation.Apart) {region : Region}
    (member : region ∈ relocation.halves) : region.bound ≤ 2 ^ 64 - 1 := by
  obtain ⟨⟨oldHeap, oldStack⟩, newStack, newHeap⟩ := apart.halves_within
  have temporaryFits := Nat.le_sub_one_of_lt apart.temporary_fits
  have permanentFits := Nat.le_sub_one_of_lt apart.permanent_fits
  simp only [halves, List.mem_cons, List.not_mem_nil, or_false] at member
  rcases member with rfl | rfl | rfl | rfl
  · exact oldHeap.2.trans temporaryFits
  · exact oldStack.2.trans temporaryFits
  · exact newStack.2.trans permanentFits
  · exact newHeap.2.trans permanentFits

theorem halves_disjoint (apart : relocation.Apart) :
    relocation.halves.Pairwise fun first second => ¬first.Meets second := by
  have oldStack := apart.toNat_oldStack
  have newHeap := apart.toNat_newHeap
  have half := relocation.toNat_half
  have disjoint := apart.apart
  simp only [temporary, permanent, Region.bound] at disjoint
  simp only [Relocation.oldStack, Relocation.newHeap] at oldStack newHeap
  simp only [halves, List.pairwise_cons, List.mem_cons, List.not_mem_nil, or_false, forall_eq_or_imp,
    forall_eq, Region.meets_iff, Region.bound, oldHeap, Relocation.oldStack, newStack,
    Relocation.newHeap, oldStack, newHeap, half]
  simp only [false_imp_iff, implies_true, List.Pairwise.nil, and_true]
  omega

theorem toNat_moveAddress (apart : relocation.Apart) {address : UInt64}
    (above : relocation.oldStack.base.toNat ≤ address.toNat)
    (within : address.toNat ≤ relocation.oldStack.base.toNat + relocation.size.toNat) :
    (relocation.moveAddress address).toNat =
      relocation.newStack.base.toNat + (address.toNat - relocation.oldStack.base.toNat) := by
  have offset : (address - relocation.oldStack.base).toNat =
      address.toNat - relocation.oldStack.base.toNat :=
    UInt64.toNat_sub_of_le _ _ (UInt64.le_iff_toNat_le.mpr above)
  have fits := apart.permanent_fits
  simp only [permanent, Region.bound] at fits
  have moved := relocation.moveAddress_oldStack (address - relocation.oldStack.base)
  rw [add_sub_cancel] at moved
  rw [moved, Word.toNat_add_of_lt, offset]
  rw [offset]
  simp only [newStack]
  omega

theorem contains_moveAddress (apart : relocation.Apart) (address : UInt64) :
    relocation.newStack.contains (relocation.moveAddress address) = true ↔
      relocation.oldStack.contains address = true := by
  have oldFits : relocation.oldStack.bound < UInt64.size :=
    apart.halves_within.1.2.2.trans_lt apart.temporary_fits
  have newFits : relocation.newStack.bound < UInt64.size :=
    apart.halves_within.2.1.2.trans_lt apart.permanent_fits
  -- both stacks have one size, so the offset decides on either side
  obtain ⟨offset, rfl⟩ : ∃ offset, address = relocation.oldStack.base + offset :=
    ⟨address - relocation.oldStack.base, (add_sub_cancel _ _).symm⟩
  rw [moveAddress_oldStack, Region.contains_base_add_iff newFits,
    Region.contains_base_add_iff oldFits]
  rfl

theorem bijOn_moveAddress (apart : relocation.Apart) :
    Set.BijOn relocation.moveAddress {address | relocation.oldStack.contains address = true}
      {address | relocation.newStack.contains address = true} := by
  have translation : relocation.moveAddress =
      Equiv.addRight (relocation.newStack.base - relocation.oldStack.base) :=
    funext relocation.moveAddress_eq
  rw [translation]
  apply Equiv.bijOn
  intro address
  rw [← translation]
  exact apart.contains_moveAddress address

theorem mapped (apart : relocation.Apart) : relocation.Mapped where
  oldHeap := rfl
  oldStack := apart.toNat_oldStack
  newStack := rfl
  newHeap := apart.toNat_newHeap
  sizes := fun _ => size_of_mem_halves
  fits := fun _ => apart.halves_fit
  from_temporary := apart.halves_within.1
  to_permanent := apart.halves_within.2
  disjoint := apart.halves_disjoint
  exact_offset := fun _ => apart.toNat_moveAddress
  onto := apart.bijOn_moveAddress

end Apart

theorem plan_mapped (temporaryBase permanentBase size : UInt64) :
    let relocation : Relocation := ⟨temporaryBase, permanentBase, size⟩
    ((∃ planned, (plan temporaryBase permanentBase size).result = .ok planned) ↔
      temporaryBase.toNat + size.toNat ≤ 2 ^ 64 - 1 ∧
        permanentBase.toNat + size.toNat ≤ 2 ^ 64 - 1 ∧
        ¬Region.Meets ⟨temporaryBase, size⟩ ⟨permanentBase, size⟩) ∧
      ∀ planned, (plan temporaryBase permanentBase size).result = .ok planned →
        planned = relocation ∧ relocation.Mapped := by
  intro relocation
  have conditions : relocation.Apart ↔ _ := apart_iff
  constructor
  · simp only [result_plan_eq_ok, exists_eq_left]
    exact conditions
  · intro planned made
    obtain ⟨rfl, apart⟩ := result_plan_eq_ok.mp made
    exact ⟨rfl, apart.mapped⟩

-- the distance is not a signed 64-bit number
def ascent : Relocation := ⟨0x1000, 0xffffffffffff0000, 0x1001⟩

theorem ascent_mapped :
    (plan 0x1000 0xffffffffffff0000 0x1001).result = .ok ascent ∧ ascent.Mapped ∧
      (2 ^ 63 : Int) ≤ ascent.newStack.base.toNat - ascent.oldStack.base.toNat ∧
      ascent.displacement.toInt < 0 := by
  have planned : (plan 0x1000 0xffffffffffff0000 0x1001).result = .ok ascent := rfl
  have mapped := (plan_mapped 0x1000 0xffffffffffff0000 0x1001).2 ascent planned
  exact ⟨planned, mapped.2, by decide, by decide⟩

end EarlyBoot.Platform.Relocation
