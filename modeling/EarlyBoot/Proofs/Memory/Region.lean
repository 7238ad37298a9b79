import Mathlib
import EarlyBoot.Memory.Region

set_option autoImplicit false

namespace EarlyBoot.Region

-- need not be an address
def bound (region : Region) : Nat :=
  region.base.toNat + region.size.toNat

theorem isEmpty_iff {region : Region} : region.isEmpty = true ↔ region.size.toNat = 0 := by
  simp [isEmpty, ← UInt64.toNat_inj]

theorem isEmpty_eq_false_iff {region : Region} :
    region.isEmpty = false ↔ 0 < region.size.toNat := by
  rw [← Bool.not_eq_true, isEmpty_iff]
  omega

theorem stop?_eq_some_iff {region : Region} {stop : UInt64} :
    region.stop? = some stop ↔ stop.toNat = region.bound :=
  Word.add?_eq_some_iff

theorem stop?_eq_none_iff {region : Region} : region.stop? = none ↔ UInt64.size ≤ region.bound :=
  Word.add?_eq_none_iff

theorem toNat_base_add_size {region : Region} (fits : region.bound < UInt64.size) :
    (region.base + region.size).toNat = region.bound :=
  Word.toNat_add_of_lt fits

theorem stop?_of_lt {region : Region} (fits : region.bound < UInt64.size) :
    region.stop? = some (region.base + region.size) :=
  stop?_eq_some_iff.mpr (toNat_base_add_size fits)

theorem toNat_clippedStop (region : Region) :
    region.clippedStop.toNat = min region.bound (UInt64.size - 1) :=
  Word.toNat_addClipped region.base region.size

theorem toNat_clippedStop_of_fits {region : Region} (fits : region.bound < UInt64.size) :
    region.clippedStop.toNat = region.bound := by
  rw [toNat_clippedStop]
  omega

theorem contains_iff {region : Region} {address : UInt64} :
    region.contains address = true ↔
      region.base.toNat ≤ address.toNat ∧ address.toNat < region.bound := by
  have difference : region.base ≤ address →
      (address - region.base).toNat = address.toNat - region.base.toNat :=
    UInt64.toNat_sub_of_le address region.base
  simp only [contains, Bool.and_eq_true, decide_eq_true_eq, bound]
  constructor
  · rintro ⟨above, within⟩
    rw [UInt64.lt_iff_toNat_lt, difference above] at within
    rw [UInt64.le_iff_toNat_le] at above
    omega
  · rintro ⟨above, within⟩
    have order : region.base ≤ address := UInt64.le_iff_toNat_le.mpr above
    refine ⟨order, ?_⟩
    rw [UInt64.lt_iff_toNat_lt, difference order]
    omega

theorem contains_base_add_iff {region : Region} (fits : region.bound < UInt64.size)
    {offset : UInt64} :
    region.contains (region.base + offset) = true ↔ offset < region.size := by
  simp only [contains, add_sub_cancel_left, Bool.and_eq_true, decide_eq_true_eq,
    and_iff_right_iff_imp]
  intro inside
  rw [bound] at fits
  rw [UInt64.lt_iff_toNat_lt] at inside
  rw [UInt64.le_iff_toNat_le, Word.toNat_add_of_lt (by omega)]
  exact Nat.le_add_right _ _

theorem overlaps_iff {a b : Region} (fits : a.bound < UInt64.size) :
    a.overlaps b = true ↔
      0 < a.size.toNat ∧ 0 < b.size.toNat ∧ a.base.toNat < b.bound ∧ b.base.toNat < a.bound := by
  have aStop := toNat_clippedStop_of_fits fits
  have bStop := toNat_clippedStop b
  simp only [overlaps, Bool.and_eq_true, Bool.not_eq_true', isEmpty_eq_false_iff,
    decide_eq_true_eq, UInt64.lt_iff_toNat_lt, aStop, and_assoc]
  rw [bound] at fits
  omega

def Meets (a b : Region) : Prop :=
  ∃ address, a.contains address = true ∧ b.contains address = true

theorem Meets.symm {a b : Region} (meets : a.Meets b) : b.Meets a := by
  obtain ⟨address, first, second⟩ := meets
  exact ⟨address, second, first⟩

theorem meets_iff {a b : Region} :
    a.Meets b ↔
      0 < a.size.toNat ∧ 0 < b.size.toNat ∧ a.base.toNat < b.bound ∧ b.base.toNat < a.bound := by
  unfold Meets
  simp only [contains_iff]
  constructor
  · intro ⟨address, first, second⟩
    simp only [bound] at first second ⊢
    omega
  · intro ⟨aSize, bSize, first, second⟩
    by_cases order : a.base.toNat ≤ b.base.toNat
    · exact ⟨b.base, ⟨order, second⟩, Nat.le_refl _, Nat.lt_add_of_pos_right bSize⟩
    · exact ⟨a.base, ⟨Nat.le_refl _, Nat.lt_add_of_pos_right aSize⟩, by omega, first⟩

theorem Meets.nonempty {a b : Region} (meets : a.Meets b) : a.isEmpty = false :=
  isEmpty_eq_false_iff.mpr (meets_iff.mp meets).1

theorem overlaps_iff_meets {a b : Region} (fits : a.bound < UInt64.size) :
    a.overlaps b = true ↔ a.Meets b :=
  (overlaps_iff fits).trans meets_iff.symm

theorem meets_iff_of_fits {a b : Region} (nonempty : 0 < a.size.toNat)
    (otherNonempty : 0 < b.size.toNat) (fits : a.bound < UInt64.size)
    (otherFits : b.bound < UInt64.size) :
    a.Meets b ↔ a.base < b.clippedStop ∧ b.base < a.base + a.size := by
  rw [meets_iff, UInt64.lt_iff_toNat_lt, UInt64.lt_iff_toNat_lt,
    toNat_clippedStop_of_fits otherFits, toNat_base_add_size fits]
  exact ⟨fun meets => meets.2.2, fun order => ⟨nonempty, otherNonempty, order⟩⟩

theorem overlaps_eq_false_iff {a b : Region} (fits : a.bound < UInt64.size) :
    a.overlaps b = false ↔ ¬a.Meets b := by
  rw [← Bool.not_eq_true, overlaps_iff_meets fits]

theorem not_contains_of_not_meets {a b : Region} {address : UInt64} (apart : ¬a.Meets b)
    (inside : b.contains address = true) : a.contains address = false := by
  rw [← Bool.not_eq_true]
  exact fun shared => apart ⟨address, shared, inside⟩

def Within (a b : Region) : Prop :=
  b.base.toNat ≤ a.base.toNat ∧ a.bound ≤ b.bound

theorem Meets.of_within {a b other : Region} (meets : a.Meets other) (within : a.Within b) :
    b.Meets other := by
  obtain ⟨address, inside, shared⟩ := meets
  rw [contains_iff] at inside
  exact ⟨address, contains_iff.mpr ⟨within.1.trans inside.1, inside.2.trans_le within.2⟩, shared⟩

@[simp]
theorem base_between (start stop : UInt64) : (between start stop).base = start := rfl

theorem size_between (start stop : UInt64) :
    (between start stop).size.toNat = stop.toNat - start.toNat :=
  Word.toNat_subClipped stop start

theorem bound_between {start stop : UInt64} (order : start.toNat ≤ stop.toNat) :
    (between start stop).bound = stop.toNat := by
  rw [bound, size_between, base_between]
  omega

theorem bound_between_lt {start stop : UInt64} (nonempty : 0 < (between start stop).size.toNat) :
    (between start stop).bound < UInt64.size := by
  rw [size_between] at nonempty
  rw [bound_between (by omega)]
  exact stop.toNat_lt

def Tiles : Nat → Nat → List Region → Prop
  | start, stop, [] => start = stop
  | start, stop, region :: rest =>
    region.base.toNat = start ∧ 0 < region.size.toNat ∧ Tiles region.bound stop rest

theorem Tiles.append {start middle stop : Nat} {first second : List Region}
    (lower : Tiles start middle first) (upper : Tiles middle stop second) :
    Tiles start stop (first ++ second) := by
  induction first generalizing start with
  | nil =>
    obtain rfl : start = middle := lower
    exact upper
  | cons region rest ih =>
    obtain ⟨base, size, tail⟩ := lower
    exact ⟨base, size, ih tail⟩

theorem Tiles.le {start stop : Nat} {regions : List Region} (tiles : Tiles start stop regions) :
    start ≤ stop := by
  induction regions generalizing start with
  | nil => exact Nat.le_of_eq tiles
  | cons region rest ih =>
    obtain ⟨base, size, tail⟩ := tiles
    have := ih tail
    rw [bound] at this
    omega

theorem Tiles.within {start stop : Nat} {regions : List Region}
    (tiles : Tiles start stop regions) {region : Region} (member : region ∈ regions) :
    start ≤ region.base.toNat ∧ 0 < region.size.toNat ∧ region.bound ≤ stop := by
  induction regions generalizing start with
  | nil => contradiction
  | cons first rest ih =>
    obtain ⟨base, size, tail⟩ := tiles
    rcases List.mem_cons.mp member with rfl | later
    · exact ⟨Nat.le_of_eq base.symm, size, tail.le⟩
    · obtain ⟨above, rest⟩ := ih tail later
      rw [bound] at above
      exact ⟨by omega, rest⟩

theorem Tiles.pairwise {start stop : Nat} {regions : List Region}
    (tiles : Tiles start stop regions) :
    regions.Pairwise fun lower upper => lower.bound ≤ upper.base.toNat := by
  induction regions generalizing start with
  | nil => exact List.Pairwise.nil
  | cons region rest ih =>
    obtain ⟨_, _, tail⟩ := tiles
    exact List.Pairwise.cons (fun _ later => (tail.within later).1) (ih tail)

theorem Tiles.exists_contains_iff {start stop : Nat} {regions : List Region}
    (tiles : Tiles start stop regions) (address : UInt64) :
    (∃ region ∈ regions, region.contains address = true) ↔
      start ≤ address.toNat ∧ address.toNat < stop := by
  induction regions generalizing start with
  | nil =>
    obtain rfl : start = stop := tiles
    constructor
    · rintro ⟨_, member, _⟩
      contradiction
    · omega
  | cons region rest ih =>
    obtain ⟨base, size, tail⟩ := tiles
    have order := tail.le
    rw [List.exists_mem_cons_iff, ih tail, contains_iff]
    rw [bound] at order ⊢
    omega

def occupied (region : Region) : List Region :=
  if region.isEmpty then [] else [region]

theorem mem_occupied {region other : Region} :
    other ∈ region.occupied ↔ region.isEmpty = false ∧ other = region := by
  unfold occupied
  split
  next empty => simp [empty]
  next nonempty => simp [nonempty]

theorem tiles_occupied {start stop : UInt64} (order : start.toNat ≤ stop.toNat) :
    Tiles start.toNat stop.toNat (between start stop).occupied := by
  unfold occupied
  split
  next empty =>
    rw [isEmpty_iff, size_between] at empty
    exact Nat.le_antisymm order (Nat.sub_eq_zero_iff_le.mp empty)
  next nonempty =>
    rw [Bool.not_eq_true, isEmpty_eq_false_iff] at nonempty
    exact ⟨rfl, nonempty, bound_between order⟩

end EarlyBoot.Region
