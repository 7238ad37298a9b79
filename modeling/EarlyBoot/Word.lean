set_option autoImplicit false

namespace EarlyBoot.Word

def last : UInt64 := 0xffffffffffffffff

def add? (a b : UInt64) : Option UInt64 :=
  if a.toNat + b.toNat < UInt64.size then some (a + b) else none

def addClipped (a b : UInt64) : UInt64 :=
  if a.toNat + b.toNat < UInt64.size then a + b else last

def subClipped (a b : UInt64) : UInt64 :=
  if b ≤ a then a - b else 0

theorem toNat_add_of_lt {a b : UInt64} (fits : a.toNat + b.toNat < UInt64.size) :
    (a + b).toNat = a.toNat + b.toNat := by
  rw [UInt64.toNat_add]
  exact Nat.mod_eq_of_lt fits

theorem add?_eq_some_iff {a b sum : UInt64} :
    add? a b = some sum ↔ sum.toNat = a.toNat + b.toNat := by
  unfold add?
  split
  next fits =>
    rw [Option.some.injEq, ← UInt64.toNat_inj, toNat_add_of_lt fits]
    exact eq_comm
  next exceeds =>
    have bound := sum.toNat_lt
    simp only [UInt64.size] at exceeds
    simp only [reduceCtorEq, false_iff]
    omega

theorem add?_eq_none_iff {a b : UInt64} :
    add? a b = none ↔ UInt64.size ≤ a.toNat + b.toNat := by
  unfold add?
  split <;> simp <;> omega

theorem toNat_addClipped (a b : UInt64) :
    (addClipped a b).toNat = min (a.toNat + b.toNat) (UInt64.size - 1) := by
  unfold addClipped
  split
  next fits => rw [toNat_add_of_lt fits]; omega
  next exceeds =>
    have top : last.toNat = UInt64.size - 1 := rfl
    omega

theorem toNat_subClipped (a b : UInt64) : (subClipped a b).toNat = a.toNat - b.toNat := by
  unfold subClipped
  split
  next within => exact UInt64.toNat_sub_of_le a b within
  next beyond =>
    have order : a.toNat < b.toNat := by
      simpa [UInt64.le_iff_toNat_le] using beyond
    simp only [UInt64.toNat_zero]
    omega

end EarlyBoot.Word
