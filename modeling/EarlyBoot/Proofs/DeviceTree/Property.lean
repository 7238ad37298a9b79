import EarlyBoot.DeviceTree.Node
import EarlyBoot.Proofs.DeviceTree.Spelling

set_option autoImplicit false

namespace EarlyBoot.DeviceTree

def First (properties : List Property) (name : String) (property : Property) : Prop :=
  ∃ before after, properties = before ++ property :: after ∧ property.name = name ∧
    ∀ earlier ∈ before, earlier.name ≠ name

theorem property?_eq_some_iff {tree : DeviceTree} {node : Node} {name : String}
    {property : Property} :
    tree.property? node name = some property ↔ First (tree.properties node) name property := by
  rw [property?, List.find?_eq_some_iff_append]
  simp only [decide_eq_true_eq, Bool.not_eq_true', decide_eq_false_iff_not]
  constructor
  · rintro ⟨named, before, after, split, others⟩
    exact ⟨before, after, split, named, others⟩
  · rintro ⟨before, after, split, named, others⟩
    exact ⟨named, before, after, split, others⟩

def halves (number : UInt64) : List UInt32 :=
  [(number >>> 32).toUInt32, number.toUInt32]

theorem flatMap_word_halves (number : UInt64) :
    (halves number).flatMap Writer.word = Bytes.bigEndian 8 number.toNat := by
  have bound := number.toNat_lt
  have high : (number >>> 32).toUInt32.toNat = number.toNat / 256 ^ 4 := by
    rw [UInt64.toNat_toUInt32, UInt64.toNat_shiftRight]
    have shifted : number.toNat >>> ((32 : UInt64).toNat % 64) = number.toNat / 256 ^ 4 := by
      rw [Nat.shiftRight_eq_div_pow]
      rfl
    rw [shifted]
    exact Nat.mod_eq_of_lt (by omega)
  have low : number.toUInt32.toNat = number.toNat % 256 ^ 4 := UInt64.toNat_toUInt32 number
  have split := Bytes.bigEndian_add 4 4 number.toNat
  simp only [halves, List.flatMap_cons, List.flatMap_nil, List.append_nil, Writer.word, high, low,
    Bytes.bigEndian_mod]
  exact split.symm

namespace Property

variable {property : Property}

theorem text?_eq_some_iff {text : String} :
    property.text? = some text ↔
      property.value = Writer.terminated text ∨
        property.value = text.toUTF8.data.toList ∧ property.value.getLast? ≠ some 0 := by
  unfold text?
  rw [fromUTF8?_toByteArray_iff, Writer.terminated]
  split_ifs with closed
  · obtain ⟨front, whole⟩ := List.getLast?_eq_some_iff.mp closed
    simp [whole]
  · have unterminated : property.value ≠ text.toUTF8.data.toList ++ [0] := by
      intro whole
      simp [whole] at closed
    rw [or_iff_right unterminated, and_iff_left closed]

theorem doubleWord_eq_iff {bytes : List UInt8} {word : UInt64} (length : bytes.length = 8) :
    UInt64.ofNat (Bytes.ofBigEndian bytes) = word ↔ bytes = Bytes.bigEndian 8 word.toNat := by
  have width : 256 ^ 8 = 2 ^ 64 := by norm_num
  have bound := Bytes.ofBigEndian_lt bytes
  rw [length, width] at bound
  constructor
  · rintro rfl
    rw [UInt64.toNat_ofNat', Nat.mod_eq_of_lt bound, ← length, Bytes.bigEndian_ofBigEndian]
  · rintro rfl
    rw [Bytes.ofBigEndian_bigEndian, width, Nat.mod_eq_of_lt word.toNat_lt, UInt64.ofNat_toNat]

theorem range?_eq_some_iff {base size : UInt64} :
    property.range? = some (base, size) ↔
      property.value = Bytes.bigEndian 8 base.toNat ++ Bytes.bigEndian 8 size.toNat := by
  unfold range?
  split_ifs with long
  · have address : (property.value.take 8).length = 8 := by
      rw [List.length_take]
      omega
    have extent : (property.value.drop 8).length = 8 := by
      rw [List.length_drop, long]
    rw [Option.some.injEq, Prod.mk.injEq, doubleWord_eq_iff address, doubleWord_eq_iff extent]
    constructor
    · rintro ⟨front, back⟩
      rw [← front, ← back, List.take_append_drop]
    · intro whole
      rw [whole]
      exact ⟨List.take_left' (by simp), List.drop_left' (by simp)⟩
  · simp only [false_iff]
    intro whole
    simp [whole] at long

theorem cell?_eq_some_iff {cell : UInt32} :
    property.cell? = some cell ↔ property.value = Writer.word cell := by
  unfold cell?
  constructor
  · intro found
    split_ifs at found with long
    rw [← Option.some.inj found, word_ofBigEndian long]
  · intro same
    rw [same, if_pos (length_word cell), ofBigEndian_word, UInt32.ofNat_toNat]

theorem doubleCell?_eq_some_iff {number : UInt64} :
    property.doubleCell? = some number ↔ property.value = Bytes.bigEndian 8 number.toNat := by
  unfold doubleCell?
  split_ifs with long
  · rw [Option.some.injEq, doubleWord_eq_iff long]
  · simp only [false_iff]
    intro same
    simp [same] at long

theorem cellsOf_append {bytes : List UInt8} (length : bytes.length = 4) (rest : List UInt8) :
    cellsOf (bytes ++ rest) = UInt32.ofNat (Bytes.ofBigEndian bytes) :: cellsOf rest := by
  match bytes with
  | [a, b, c, d] => rfl

theorem cellsOf_flatMap_word (words : List UInt32) : cellsOf (words.flatMap Writer.word) = words := by
  induction words with
  | nil => rfl
  | cons word rest ih =>
    rw [List.flatMap_cons, cellsOf_append (length_word word), ih, ofBigEndian_word,
      UInt32.ofNat_toNat]

theorem cellsOf_of_lt {bytes : List UInt8} (short : bytes.length < 4) : cellsOf bytes = [] := by
  match bytes with
  | [] | [_] | [_, _] | [_, _, _] => rfl

def part (property : Property) (offset length : Nat) : Property :=
  { property with value := (property.value.drop offset).take length }

structure Coherent (property : Property) : Prop where
  cell : property.cell?.isSome ↔ property.value.length = 4
  doubleCell : property.doubleCell?.isSome ↔ property.value.length = 8
  range : property.range?.isSome ↔ property.value.length = 16
  length_cells : property.cells.length = property.value.length / 4
  cellAt : ∀ index, property.cells[index]? = (property.part (4 * index) 4).cell?
  ofCell : ∀ cell, property.cell? = some cell → property.cells = [cell]
  ofDoubleCell : ∀ number, property.doubleCell? = some number → property.cells = halves number
  ofRange : ∀ base size, property.range? = some (base, size) →
    property.cells = halves base ++ halves size

theorem length_cellsOf (bytes : List UInt8) : (cellsOf bytes).length = bytes.length / 4 := by
  fun_induction cellsOf bytes with
  | case1 a b c d rest ih =>
    simp only [List.length_cons, ih]
    omega
  | case2 bytes short =>
    match bytes with
    | [] | [_] | [_, _] | [_, _, _] => simp
    | a :: b :: c :: d :: rest => exact absurd rfl (short a b c d rest)

theorem getElem?_cellsOf (name : String) (bytes : List UInt8) (index : Nat) :
    (cellsOf bytes)[index]? = ((Property.mk name bytes).part (4 * index) 4).cell? := by
  induction index generalizing bytes with
  | zero =>
    by_cases short : bytes.length < 4
    · have missing : (bytes.take 4).length ≠ 4 := by
        rw [List.length_take]
        omega
      rw [cellsOf_of_lt short]
      exact (if_neg missing).symm
    · have front : (bytes.take 4).length = 4 := List.length_take_of_le (by omega)
      conv_lhs => rw [← List.take_append_drop 4 bytes, cellsOf_append front]
      exact (if_pos front).symm
  | succ index ih =>
    have behind : (Property.mk name bytes).part (4 * (index + 1)) 4 =
        (Property.mk name (bytes.drop 4)).part (4 * index) 4 := by
      simp only [part, List.drop_drop, Property.mk.injEq, true_and]
      rw [Nat.mul_succ, Nat.add_comm]
    rw [behind, ← ih]
    by_cases short : bytes.length < 4
    · rw [cellsOf_of_lt short, cellsOf_of_lt (by rw [List.length_drop]; omega)]
      rfl
    · have front : (bytes.take 4).length = 4 := List.length_take_of_le (by omega)
      conv_lhs => rw [← List.take_append_drop 4 bytes, cellsOf_append front]
      rfl

theorem coherent (property : Property) : Coherent property where
  cell := by simp [cell?]
  doubleCell := by simp [doubleCell?]
  range := by simp [range?]
  length_cells := length_cellsOf property.value
  cellAt := getElem?_cellsOf property.name property.value
  ofCell := by
    intro cell found
    rw [cells, cell?_eq_some_iff.mp found, ← List.flatMap_singleton Writer.word cell,
      cellsOf_flatMap_word]
  ofDoubleCell := by
    intro number found
    rw [cells, doubleCell?_eq_some_iff.mp found, ← flatMap_word_halves, cellsOf_flatMap_word]
  ofRange := by
    intro base size found
    rw [cells, range?_eq_some_iff.mp found, ← flatMap_word_halves, ← flatMap_word_halves,
      ← List.flatMap_append, cellsOf_flatMap_word]

end Property

end EarlyBoot.DeviceTree
