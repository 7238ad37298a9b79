import EarlyBoot.Proofs.DeviceTree.Validation
import EarlyBoot.Proofs.DeviceTree.Written

set_option autoImplicit false

namespace EarlyBoot.DeviceTree

theorem word?_flatMap_word {words : List UInt32} {index : Nat} {word : UInt32}
    (known : words[index]? = some word) (rest : List UInt8) :
    word? ((words.flatMap Writer.word ++ rest).drop (4 * index)) = some word := by
  induction words generalizing index with
  | nil => simp at known
  | cons first later ih =>
    rw [List.flatMap_cons, List.append_assoc]
    cases index with
    | zero =>
      obtain rfl : first = word := Option.some.inj known
      exact word?_eq_some_iff.mpr (List.prefix_append _ _)
    | succ index =>
      have behind : 4 * (index + 1) = (Writer.word first).length + 4 * index := by
        rw [length_word]
        omega
      rw [behind, ← List.drop_drop, List.drop_left]
      exact ih known

theorem field_encode {header : Header} {index : Nat} {word : UInt32}
    (known : header.fields[index]? = some word) (rest : List UInt8) :
    field (header.encode ++ rest) index = word.toNat := by
  have found : word? ((header.encode ++ rest).drop (4 * index)) = some word :=
    word?_flatMap_word known rest
  rw [word?_eq] at found
  split_ifs at found
  rw [← Option.some.inj found]
  exact (toNat_field _ index).symm

@[simp]
theorem length_encode (header : Header) : header.encode.length = Header.size := by
  simp [Header.encode, Header.fields, Header.size]

namespace Writer

def header (writer : Writer) : Header where
  magic := Header.knownMagic
  totalSize := UInt32.ofNat (structureOffset + writer.block.length + writer.strings.length)
  structureOffset := UInt32.ofNat structureOffset
  stringsOffset := UInt32.ofNat (structureOffset + writer.block.length)
  reservationsOffset := UInt32.ofNat reservationsOffset
  version := Header.lastVersion
  lastCompatible := Header.firstVersion
  bootProcessor := 0
  stringsSize := UInt32.ofNat writer.strings.length
  structureSize := UInt32.ofNat writer.block.length

def preamble (writer : Writer) : List UInt8 :=
  writer.header.encode ++ List.replicate (structureOffset - Header.size) 0

variable {writer : Writer}

theorem blob_eq (writer : Writer) : writer.blob = writer.preamble ++ writer.block ++ writer.strings :=
  rfl

theorem length_preamble (writer : Writer) : writer.preamble.length = structureOffset := by
  simp [preamble, structureOffset, Header.size]

theorem length_blob (writer : Writer) :
    writer.blob.length = structureOffset + writer.block.length + writer.strings.length := by
  rw [blob_eq, List.length_append, List.length_append, length_preamble]

theorem small_of_blob_lt (small : writer.blob.length < UInt32.size) : writer.Small := by
  rw [length_blob] at small
  exact ⟨by omega, by omega⟩

theorem field_blob {index : Nat} {word : UInt32} (known : writer.header.fields[index]? = some word) :
    field writer.blob index = word.toNat := by
  rw [blob_eq, preamble, List.append_assoc, List.append_assoc]
  exact field_encode known _

structure Framing (writer : Writer) : Prop where
  total : field writer.blob 1 = writer.blob.length
  structureStart : field writer.blob 2 = structureOffset
  structureStop : structureStop writer.blob = structureOffset + writer.block.length
  stringsStart : field writer.blob 3 = structureOffset + writer.block.length
  stringsSize : field writer.blob 8 = writer.strings.length

theorem framing_of_lt (small : writer.blob.length < UInt32.size) : writer.Framing := by
  have length := writer.length_blob
  have version : field writer.blob 5 = 17 := (field_blob rfl).trans rfl
  have start : field writer.blob 2 = structureOffset := (field_blob rfl).trans rfl
  have size : field writer.blob 9 = writer.block.length :=
    (field_blob rfl).trans (UInt32.toNat_ofNat_of_lt (by omega))
  exact {
    total := by
      rw [length]
      exact (field_blob rfl).trans (UInt32.toNat_ofNat_of_lt (by omega))
    structureStart := start
    structureStop := by rw [DeviceTree.structureStop, version, start, size, if_neg (by decide)]
    stringsStart := (field_blob rfl).trans (UInt32.toNat_ofNat_of_lt (by omega))
    stringsSize := (field_blob rfl).trans (UInt32.toNat_ofNat_of_lt (by omega)) }

theorem Framing.framed (framing : writer.Framing) : Framed writer.blob := by
  have length := writer.length_blob
  have version : field writer.blob 5 = 17 := (field_blob rfl).trans rfl
  have lastCompatible : field writer.blob 6 = 16 := (field_blob rfl).trans rfl
  have preamble : structureOffset = 56 := rfl
  obtain ⟨total, structureStart, structureStop, stringsStart, stringsSize⟩ := framing
  exact {
    header := by omega
    magic := (field_blob rfl).trans rfl
    version := by omega
    lastCompatible := by omega
    total_header := by omega
    total := by omega
    structure_header := by omega
    structure_start := by omega
    structure_stop := by omega
    strings_header := by omega
    strings_stop := by omega }

theorem Framing.structureBlock (framing : writer.Framing) :
    structureBlock writer.blob = writer.block := by
  have length := writer.length_preamble
  rw [DeviceTree.structureBlock, framing.structureStop, framing.structureStart,
    Nat.add_sub_cancel_left, ← length, blob_eq, List.append_assoc, List.drop_left, List.take_left]

theorem Framing.stringsBlock (framing : writer.Framing) :
    stringsBlock writer.blob = writer.strings := by
  have length : structureOffset + writer.block.length = (writer.preamble ++ writer.block).length := by
    rw [List.length_append, length_preamble]
  rw [DeviceTree.stringsBlock, framing.stringsStart, framing.stringsSize, length, blob_eq,
    List.drop_left, List.take_length]

theorem ofBytes_blob (small : writer.blob.length < UInt32.size)
    (valid : checkStructure writer.strings writer.block = .ok ()) :
    ∃ tree, ofBytes writer.blob = .ok tree ∧ tree.block = writer.block ∧
      tree.strings = writer.strings := by
  have framing := framing_of_lt small
  have block := framing.structureBlock
  have strings := framing.stringsBlock
  rw [ofBytes_of_framed framing.framed]
  split
  next error malformed =>
    rw [block, strings, valid] at malformed
    cases malformed
  next => exact ⟨_, rfl, block, strings⟩

theorem ofBytes_blob_error (small : writer.blob.length < UInt32.size) {error : Error}
    (invalid : checkStructure writer.strings writer.block = .error error) :
    ofBytes writer.blob = .error error := by
  have framing := framing_of_lt small
  rw [← framing.structureBlock, ← framing.stringsBlock] at invalid
  rw [ofBytes_of_framed framing.framed]
  split
  next other malformed =>
    rw [malformed, Except.error.injEq] at invalid
    exact congrArg _ invalid
  next valid => simp [valid] at invalid

end Writer

end EarlyBoot.DeviceTree
