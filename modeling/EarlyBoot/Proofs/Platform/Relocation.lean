import EarlyBoot.Platform.Relocation
import EarlyBoot.Proofs.Attempt
import EarlyBoot.Proofs.Memory.Region

set_option autoImplicit false

namespace EarlyBoot.Platform.Relocation

@[simp]
theorem result_error {α : Type} (text : String) (failure : Failure) :
    (error text failure : Attempt α).result = .error failure := rfl

theorem result_plan (temporaryBase permanentBase size : UInt64) :
    (plan temporaryBase permanentBase size).result =
      let relocation : Relocation := ⟨temporaryBase, permanentBase, size⟩
      if UInt64.size ≤ relocation.temporary.bound ∨ UInt64.size ≤ relocation.permanent.bound then
        .error .addressOverflow
      else if relocation.temporary.overlaps relocation.permanent = true then
        .error .relocationOverlap
      else .ok relocation := by
  unfold plan
  dsimp only
  set relocation : Relocation := ⟨temporaryBase, permanentBase, size⟩
  by_cases temporaryOverflow : UInt64.size ≤ relocation.temporary.bound
  · have overflow := Or.intro_left (UInt64.size ≤ relocation.permanent.bound) temporaryOverflow
    rw [Region.stop?_eq_none_iff.mpr temporaryOverflow, if_pos overflow]
    rfl
  rw [Region.stop?_of_lt (Nat.not_le.mp temporaryOverflow)]
  by_cases permanentOverflow : UInt64.size ≤ relocation.permanent.bound
  · have overflow := Or.intro_right (UInt64.size ≤ relocation.temporary.bound) permanentOverflow
    rw [Region.stop?_eq_none_iff.mpr permanentOverflow, if_pos overflow]
    rfl
  rw [Region.stop?_of_lt (Nat.not_le.mp permanentOverflow),
    if_neg (not_or.mpr ⟨temporaryOverflow, permanentOverflow⟩)]
  dsimp only
  split_ifs <;> rfl

structure Apart (relocation : Relocation) : Prop where
  temporary_fits : relocation.temporary.bound < UInt64.size
  permanent_fits : relocation.permanent.bound < UInt64.size
  apart : relocation.size.toNat = 0 ∨ relocation.temporary.bound ≤ relocation.permanentBase.toNat ∨
    relocation.permanent.bound ≤ relocation.temporaryBase.toNat

theorem result_plan_eq_ok {temporaryBase permanentBase size : UInt64} {relocation : Relocation} :
    (plan temporaryBase permanentBase size).result = .ok relocation ↔
      relocation = ⟨temporaryBase, permanentBase, size⟩ ∧ relocation.Apart := by
  rw [result_plan]
  constructor
  · intro planned
    dsimp only at planned
    split_ifs at planned with overflow overlap
    obtain rfl := Except.ok.inj planned
    obtain ⟨temporaryFits, permanentFits⟩ := not_or.mp overflow
    rw [Nat.not_le] at temporaryFits permanentFits
    rw [Region.overlaps_iff temporaryFits] at overlap
    refine ⟨rfl, temporaryFits, permanentFits, ?_⟩
    simp only [temporary, permanent] at overlap ⊢
    omega
  · rintro ⟨rfl, temporaryFits, permanentFits, apart⟩
    have overlap : ¬Region.overlaps (temporary ⟨temporaryBase, permanentBase, size⟩)
        (permanent ⟨temporaryBase, permanentBase, size⟩) = true := by
      rw [Region.overlaps_iff temporaryFits]
      simp only [temporary, permanent] at apart ⊢
      omega
    dsimp only
    rw [if_neg (by omega), if_neg overlap]

theorem result_checkRange_eq_ok {image range : Region} {name : String} {value : Unit} :
    (checkRange image name range).result = .ok value ↔ range.overlaps image = false := by
  unfold checkRange
  split_ifs with overlap
  · simp [overlap]
  · simp [overlap]

theorem toNat_half (relocation : Relocation) :
    relocation.half.toNat = relocation.size.toNat / 2 := by
  simp [half, Nat.shiftRight_eq_div_pow]

namespace Apart

variable {relocation : Relocation}

theorem toNat_oldStack (apart : relocation.Apart) :
    relocation.oldStack.base.toNat =
      relocation.temporaryBase.toNat + relocation.size.toNat / 2 := by
  have fits := apart.temporary_fits
  have half := relocation.toNat_half
  simp only [temporary, Region.bound] at fits
  rw [← half]
  exact Word.toNat_add_of_lt (by omega)

theorem toNat_newHeap (apart : relocation.Apart) :
    relocation.newHeap.base.toNat =
      relocation.permanentBase.toNat + relocation.size.toNat / 2 := by
  have fits := apart.permanent_fits
  have half := relocation.toNat_half
  simp only [permanent, Region.bound] at fits
  rw [← half]
  exact Word.toNat_add_of_lt (by omega)

end Apart

theorem moveAddress_eq (relocation : Relocation) (address : UInt64) :
    relocation.moveAddress address =
      address + (relocation.newStack.base - relocation.oldStack.base) := by
  simp [moveAddress, displacement]

theorem toInt_toInt64_modEq (word : UInt64) : word.toInt64.toInt ≡ word.toNat [ZMOD 2 ^ 64] := by
  change word.toBitVec.toInt % 2 ^ 64 = word.toNat % 2 ^ 64
  rw [BitVec.toInt_eq_toNat_bmod]
  exact Int.bmod_emod

theorem displacement_modEq (relocation : Relocation) :
    relocation.displacement.toInt ≡
      relocation.newStack.base.toNat - relocation.oldStack.base.toNat [ZMOD 2 ^ 64] := by
  refine (toInt_toInt64_modEq _).trans ?_
  have bound := relocation.oldStack.base.toNat_lt
  rw [UInt64.toNat_sub, Int.ModEq]
  omega

theorem toNat_moveAddress (relocation : Relocation) (address : UInt64) :
    ((relocation.moveAddress address).toNat : Int) =
      (address.toNat + relocation.displacement.toInt) % 2 ^ 64 := by
  have bound := relocation.oldStack.base.toNat_lt
  have displaced := relocation.displacement_modEq
  rw [moveAddress_eq, UInt64.toNat_add, UInt64.toNat_sub]
  rw [Int.ModEq] at displaced
  omega

theorem moveAddress_oldStack (relocation : Relocation) (offset : UInt64) :
    relocation.moveAddress (relocation.oldStack.base + offset) =
      relocation.newStack.base + offset := by
  rw [moveAddress_eq]
  abel

end EarlyBoot.Platform.Relocation
