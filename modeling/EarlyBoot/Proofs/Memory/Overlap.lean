import EarlyBoot.Proofs.Memory.Region

set_option autoImplicit false

namespace EarlyBoot.Region

theorem eq_last_iff {address : UInt64} :
    address = Word.last ↔ UInt64.size - 1 ≤ address.toNat := by
  have bound := address.toNat_lt
  have top : Word.last.toNat = UInt64.size - 1 := rfl
  rw [← UInt64.toNat_inj, top]
  simp only [UInt64.size]
  omega

theorem contains_last_iff {region : Region} :
    region.contains Word.last = true ↔ UInt64.size ≤ region.bound := by
  have base := region.base.toNat_lt
  have top : Word.last.toNat = UInt64.size - 1 := rfl
  rw [contains_iff, top]
  simp only [UInt64.size]
  omega

def trimmed (region : Region) : Region :=
  between region.base region.clippedStop

section Trimmed

variable {region a b : Region}

@[simp]
theorem base_trimmed (region : Region) : region.trimmed.base = region.base := rfl

theorem size_trimmed (region : Region) :
    region.trimmed.size.toNat = region.clippedStop.toNat - region.base.toNat :=
  size_between region.base region.clippedStop

theorem bound_trimmed (region : Region) :
    region.trimmed.bound = min region.bound (UInt64.size - 1) := by
  have base := region.base.toNat_lt
  have stop := toNat_clippedStop region
  have order : region.base.toNat ≤ region.clippedStop.toNat := by
    rw [stop, bound]
    simp only [UInt64.size]
    omega
  rw [trimmed, bound_between order, stop]

theorem contains_trimmed_iff {address : UInt64} :
    region.trimmed.contains address = true ↔
      region.contains address = true ∧ address ≠ Word.last := by
  rw [contains_iff, contains_iff, bound_trimmed, base_trimmed, ne_eq, eq_last_iff]
  omega

theorem overlaps_iff_trimmed_meets : a.overlaps b = true ↔ a.trimmed.Meets b.trimmed := by
  have aStop := toNat_clippedStop a
  have bStop := toNat_clippedStop b
  rw [meets_iff, bound_trimmed, bound_trimmed, size_trimmed, size_trimmed, base_trimmed,
    base_trimmed]
  simp only [overlaps, Bool.and_eq_true, Bool.not_eq_true', isEmpty_eq_false_iff,
    decide_eq_true_eq, UInt64.lt_iff_toNat_lt, and_assoc]
  simp only [bound] at aStop bStop ⊢
  omega

theorem overlaps_comm (a b : Region) : a.overlaps b = b.overlaps a := by
  rw [Bool.eq_iff_iff, overlaps_iff_trimmed_meets, overlaps_iff_trimmed_meets]
  exact ⟨Meets.symm, Meets.symm⟩

theorem overlaps_self_iff :
    region.overlaps region = true ↔ region.isEmpty = false ∧ region.base ≠ Word.last := by
  have stop := toNat_clippedStop region
  rw [overlaps_iff_trimmed_meets, meets_iff, bound_trimmed, size_trimmed, base_trimmed, stop,
    isEmpty_eq_false_iff, ne_eq, eq_last_iff, bound]
  omega

theorem meets_and_not_overlaps_iff :
    a.Meets b ∧ a.overlaps b = false ↔
      (a.contains Word.last = true ∧ b.contains Word.last = true) ∧
        (a.base = Word.last ∨ b.base = Word.last) := by
  have aBase := a.base.toNat_lt
  have bBase := b.base.toNat_lt
  have aStop := toNat_clippedStop a
  have bStop := toNat_clippedStop b
  rw [← Bool.not_eq_true, overlaps_iff_trimmed_meets, meets_iff, meets_iff, contains_last_iff,
    contains_last_iff, eq_last_iff, eq_last_iff, bound_trimmed, bound_trimmed, size_trimmed,
    size_trimmed, base_trimmed, base_trimmed]
  simp only [bound, UInt64.size] at aStop bStop ⊢
  omega

end Trimmed

theorem overlaps_decides (a b : Region) :
    (a.overlaps b = true ↔ ∃ address, (a.contains address = true ∧ b.contains address = true) ∧
      address ≠ Word.last) ∧
    (a.Meets b ∧ a.overlaps b = false ↔
      (a.contains Word.last = true ∧ b.contains Word.last = true) ∧
        (a.base = Word.last ∨ b.base = Word.last)) ∧
    (a.contains Word.last = true ↔ UInt64.size ≤ a.bound) ∧
    a.overlaps b = b.overlaps a ∧
    (a.overlaps a = true ↔ a.isEmpty = false ∧ a.base ≠ Word.last) := by
  refine ⟨?_, meets_and_not_overlaps_iff, contains_last_iff, overlaps_comm a b,
    overlaps_self_iff⟩
  rw [overlaps_iff_trimmed_meets, Meets]
  simp only [contains_trimmed_iff]
  exact exists_congr fun address => and_and_and_comm.trans (by rw [and_self])

def lastByte : Region := ⟨Word.last, 1⟩

theorem lastByte_misses_itself :
    lastByte.isEmpty = false ∧ lastByte.contains Word.last = true ∧
      lastByte.overlaps lastByte = false := by
  decide

end EarlyBoot.Region
