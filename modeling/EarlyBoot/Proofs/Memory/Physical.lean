import Mathlib
import EarlyBoot.Bytes.RoundTrip
import EarlyBoot.Memory.Physical

set_option autoImplicit false

namespace EarlyBoot.Memory

theorem add_ofNat_sub_cancel (start : UInt64) (index : Nat) :
    start + UInt64.ofNat index - start = UInt64.ofNat index := by
  rw [add_sub_cancel_left]

theorem add_ofNat_add (start : UInt64) (first second : Nat) :
    start + UInt64.ofNat first + UInt64.ofNat second = start + UInt64.ofNat (first + second) := by
  rw [UInt64.ofNat_add, add_assoc]

theorem ofNat_toNat_add (start : UInt64) (index : Nat) :
    UInt64.ofNat (start.toNat + index) = start + UInt64.ofNat index := by
  rw [UInt64.ofNat_add, UInt64.ofNat_toNat]

theorem length_le_sub {target start : UInt64} {length : Nat}
    (fits : start.toNat + length ≤ UInt64.size)
    (outside : target.toNat < start.toNat ∨ start.toNat + length ≤ target.toNat) :
    length ≤ (target - start).toNat := by
  have bound := target.toNat_lt
  have size : UInt64.size = 2 ^ 64 := rfl
  rw [UInt64.toNat_sub]
  rcases outside with below | above
  · rw [Nat.mod_eq_of_lt (by omega)]
    omega
  · have wraps : 2 ^ 64 - start.toNat + target.toNat = target.toNat - start.toNat + 2 ^ 64 := by
      omega
    rw [wraps, Nat.add_mod_right, Nat.mod_eq_of_lt (by omega)]
    omega

theorem read_congr {first second : Memory} {a b : UInt64} {length : Nat}
    (same : ∀ index < length,
      first.byte (a + UInt64.ofNat index) = second.byte (b + UInt64.ofNat index)) :
    first.read a length = second.read b length :=
  List.map_congr_left fun index member => same index (List.mem_range.mp member)

theorem byte_eq_of_read {first second : Memory} {a b : UInt64} {length : Nat}
    (same : first.read a length = second.read b length) {index : Nat} (inside : index < length) :
    first.byte (a + UInt64.ofNat index) = second.byte (b + UInt64.ofNat index) :=
  List.map_inj_left.mp same index (List.mem_range.mpr inside)

theorem read_part {first second : Memory} {a b : UInt64} {length start part : Nat}
    (same : first.read a length = second.read b length) (inside : start + part ≤ length) :
    first.read (a + UInt64.ofNat start) part = second.read (b + UInt64.ofNat start) part := by
  apply read_congr
  intro index within
  rw [add_ofNat_add, add_ofNat_add]
  exact byte_eq_of_read same (by omega)

theorem read_add (memory : Memory) (address : UInt64) (first second : Nat) :
    memory.read address (first + second) =
      memory.read address first ++ memory.read (address + UInt64.ofNat first) second := by
  simp only [read, List.range_add, List.map_append, List.map_map, Function.comp_def,
    add_ofNat_add]

def Holds (memory : Memory) (address : UInt64) (bytes : List UInt8) : Prop :=
  memory.read address bytes.length = bytes

theorem holds_append {memory : Memory} {address : UInt64} {first second : List UInt8} :
    memory.Holds address (first ++ second) ↔
      memory.Holds address first ∧ memory.Holds (address + UInt64.ofNat first.length) second := by
  unfold Holds
  rw [List.length_append, read_add]
  constructor
  · exact fun whole => List.append_inj whole (length_read _ _ _)
  · rintro ⟨lower, upper⟩
    rw [lower, upper]

theorem holds_of_read {first second : Memory} {a b : UInt64} {length : Nat} {bytes : List UInt8}
    (same : first.read a length = second.read b length) (inside : bytes.length ≤ length)
    (holds : second.Holds b bytes) : first.Holds a bytes :=
  (read_congr fun _ within => byte_eq_of_read same (Nat.lt_of_lt_of_le within inside)).trans holds

theorem byte_write_inside (memory : Memory) (address : UInt64) {bytes : List UInt8} {index : Nat}
    (inside : index < bytes.length) (fits : bytes.length ≤ UInt64.size) :
    (memory.write address bytes).byte (address + UInt64.ofNat index) = bytes[index] := by
  have small : (UInt64.ofNat index).toNat = index :=
    UInt64.toNat_ofNat_of_lt (Nat.lt_of_lt_of_le inside fits)
  rw [byte_write, add_ofNat_sub_cancel, small, List.getElem?_eq_getElem inside, Option.getD_some]

theorem byte_write_of_length_le (memory : Memory) {address target : UInt64} {bytes : List UInt8}
    (outside : bytes.length ≤ (target - address).toNat) :
    (memory.write address bytes).byte target = memory.byte target := by
  rw [byte_write, List.getElem?_eq_none outside, Option.getD_none]

theorem byte_write_outside (memory : Memory) {address target : UInt64} {bytes : List UInt8}
    (fits : address.toNat + bytes.length ≤ UInt64.size)
    (outside : target.toNat < address.toNat ∨ address.toNat + bytes.length ≤ target.toNat) :
    (memory.write address bytes).byte target = memory.byte target :=
  memory.byte_write_of_length_le (length_le_sub fits outside)

theorem holds_write (memory : Memory) (address : UInt64) {bytes : List UInt8}
    (fits : bytes.length ≤ UInt64.size) : (memory.write address bytes).Holds address bytes := by
  apply List.ext_getElem (length_read _ _ _)
  intro index _ inside
  rw [← byte_write_inside memory address inside fits]
  simp [read]

theorem byte_copy_inside (memory : Memory) (source destination length : UInt64) {index : Nat}
    (inside : index < length.toNat) :
    (memory.copy source destination length).byte (destination + UInt64.ofNat index) =
      memory.byte (source + UInt64.ofNat index) := by
  have small : (UInt64.ofNat index).toNat = index :=
    UInt64.toNat_ofNat_of_lt (Nat.lt_trans inside length.toNat_lt)
  rw [byte_copy, add_ofNat_sub_cancel, if_pos]
  rwa [UInt64.lt_iff_toNat_lt, small]

theorem byte_copy_outside (memory : Memory) (source : UInt64) {destination length target : UInt64}
    (fits : destination.toNat + length.toNat ≤ UInt64.size)
    (outside : target.toNat < destination.toNat ∨
      destination.toNat + length.toNat ≤ target.toNat) :
    (memory.copy source destination length).byte target = memory.byte target := by
  rw [byte_copy, if_neg]
  rw [UInt64.not_lt, UInt64.le_iff_toNat_le]
  exact length_le_sub fits outside

theorem toNat_add_ofNat {start : UInt64} {index : Nat}
    (fits : start.toNat + index < UInt64.size) :
    (start + UInt64.ofNat index).toNat = start.toNat + index := by
  have small : (UInt64.ofNat index).toNat = index :=
    UInt64.toNat_ofNat_of_lt (Nat.lt_of_le_of_lt (Nat.le_add_left _ _) fits)
  rw [UInt64.toNat_add, small, Nat.mod_eq_of_lt fits]

theorem read_write_outside (memory : Memory) {address start : UInt64} {bytes : List UInt8}
    {length : Nat} (fits : address.toNat + bytes.length ≤ UInt64.size)
    (startFits : start.toNat + length ≤ UInt64.size)
    (outside : start.toNat + length ≤ address.toNat ∨
      address.toNat + bytes.length ≤ start.toNat) :
    (memory.write address bytes).read start length = memory.read start length := by
  apply read_congr
  intro index inside
  apply byte_write_outside memory fits
  rw [toNat_add_ofNat (by omega)]
  omega

theorem readWord_congr {first second : Memory} {a b : UInt64}
    (same : first.read a 8 = second.read b 8) : first.readWord a = second.readWord b := by
  rw [readWord, readWord, same]

theorem ofLittleEndian_read {memory : Memory} {address : UInt64} {width value : Nat}
    (holds : memory.Holds address (Bytes.littleEndian width value)) (fits : value < 256 ^ width) :
    Bytes.ofLittleEndian (memory.read address width) = value := by
  rw [Holds, Bytes.length_littleEndian] at holds
  rw [holds, Bytes.ofLittleEndian_littleEndian, Nat.mod_eq_of_lt fits]

theorem toNat_readWord {memory : Memory} {address : UInt64} {value : Nat}
    (holds : memory.Holds address (Bytes.littleEndian 8 value)) (fits : value < UInt64.size) :
    (memory.readWord address).toNat = value := by
  have width : 256 ^ 8 = UInt64.size := by norm_num [UInt64.size]
  rw [readWord, ofLittleEndian_read holds (width ▸ fits)]
  exact UInt64.toNat_ofNat_of_lt fits

theorem readWord_of_holds {memory : Memory} {address value : UInt64}
    (holds : memory.Holds address (Bytes.littleEndian 8 value.toNat)) :
    memory.readWord address = value :=
  UInt64.toNat_inj.mp (toNat_readWord holds value.toNat_lt)

end EarlyBoot.Memory
