import EarlyBoot.Proofs.DeviceTree.Continuation
import EarlyBoot.Proofs.Memory.Physical

set_option autoImplicit false

namespace EarlyBoot.DeviceTree

section Truncation

variable {block strings : List UInt8} {offset next stop : Nat} {token : Token}
  {tokens : List Token} {walk : Walk}

theorem Stands.take (stands : Stands block token offset next) (inside : next ≤ stop) :
    Stands (block.take stop) token offset next := by
  induction stands with
  | @here offset legible spelled =>
    have room : token.spelling.length ≤ stop - offset := by
      rw [aligned] at inside
      omega
    refine .here legible ?_
    rw [List.drop_take]
    exact List.prefix_take_iff.mpr ⟨spelled, room⟩
  | @skip offset next noOp rest ih =>
    have behind := rest.inside.2
    refine .skip ?_ (ih inside)
    rw [List.drop_take]
    exact List.prefix_take_iff.mpr ⟨noOp, by rw [length_word]; omega⟩

theorem Spells.take (spells : Spells block offset tokens)
    (accepts : Walk.Accepts strings walk tokens) (start : offset % 4 = 0)
    (stops : (cursorAt block offset).stop? = some stop) :
    Spells (block.take stop) offset tokens := by
  -- every token on the way to the first end token ends in front of it
  induction accepts generalizing offset with
  | finish complete =>
    obtain ⟨next, stands, _⟩ := spells
    have last := Cursor.stop?_finish (stands.read start)
    rw [stops, Option.some.injEq] at last
    exact ⟨next, stands.take (Nat.le_of_eq last.symm), trivial⟩
  | @step walk after token rest step accepts ih =>
    obtain ⟨next, stands, later⟩ := spells
    rw [Cursor.stop?_of_read (stands.read start) (Walk.ne_finish step)] at stops
    have within := (stop?_bounds stops stands.next_mod).1
    exact ⟨next, stands.take within.le, ih later stands.next_mod stops⟩

theorem checkStructure_take (valid : checkStructure strings block = .ok ())
    (stops : (Cursor.start block).stop? = some stop) :
    checkStructure strings (block.take stop) = .ok () := by
  obtain ⟨tokens, spells, derives⟩ := checkStructure_eq_ok_iff.mp valid
  have accepts := Walk.accepts_initial_iff.mpr derives
  exact checkStructure_eq_ok_iff.mpr ⟨tokens, spells.take accepts rfl stops, derives⟩

end Truncation

theorem ofBytes_of_live {tree : DeviceTree} {bytes : List UInt8} {stop : Nat}
    (stops : (Cursor.start tree.block).stop? = some stop) (framed : Framed bytes)
    (live : tree.block.take stop <+: structureBlock bytes)
    (texts : stringsBlock bytes = tree.strings) :
    ∃ same, ofBytes bytes = .ok same ∧ SameReading tree same := by
  have valid := checkStructure_take tree.wellFormed stops
  let core : DeviceTree := ⟨tree.header, tree.block.take stop, tree.strings, valid⟩
  have whole : Continues core tree := ⟨List.take_prefix stop tree.block, List.prefix_rfl⟩
  rw [ofBytes_of_framed framed]
  split
  next error malformed =>
    rw [texts, checkStructure_extend valid live List.prefix_rfl] at malformed
    cases malformed
  next =>
    have other : Continues core ⟨frame bytes, structureBlock bytes, stringsBlock bytes, ‹_›⟩ :=
      ⟨live, texts ▸ List.prefix_rfl⟩
    exact ⟨_, rfl, whole.sameReading.of_core other.sameReading⟩

section Places

variable {bytes other : List UInt8} {tree : DeviceTree} {stop : Nat}

theorem window_congr {start length : Nat}
    (same : ∀ index < length, other[start + index]? = bytes[start + index]?) :
    (other.drop start).take length = (bytes.drop start).take length := by
  apply List.ext_getElem?
  intro index
  rw [List.getElem?_take, List.getElem?_take, List.getElem?_drop, List.getElem?_drop]
  split_ifs with inside
  · exact same index inside
  · rfl

theorem sameReading_of_places (accepted : ofBytes bytes = .ok tree)
    (stops : (Cursor.start tree.block).stop? = some stop) (long : field bytes 1 ≤ other.length)
    (fields : ∀ index < 10, index ≠ 5 → field other index = field bytes index)
    (version : 16 ≤ field other 5) (room : structureStop bytes ≤ structureStop other)
    (inside : structureStop other ≤ field bytes 1)
    (block : ∀ index < stop, other[field bytes 2 + index]? = bytes[field bytes 2 + index]?)
    (strings : ∀ index < field bytes 8,
      other[field bytes 3 + index]? = bytes[field bytes 3 + index]?) :
    ∃ same, ofBytes other = .ok same ∧ SameReading tree same := by
  obtain ⟨framed, _, blockEq, stringsEq⟩ := parts_of_ofBytes accepted
  have magic := fields 0 (by decide) (by decide)
  have total := fields 1 (by decide) (by decide)
  have structureStart := fields 2 (by decide) (by decide)
  have stringsStart := fields 3 (by decide) (by decide)
  have lastCompatible := fields 6 (by decide) (by decide)
  have stringsSize := fields 8 (by decide) (by decide)
  have order := framed.structure_start
  have reframed : Framed other := {
    header := framed.total_header.trans long
    magic := magic ▸ framed.magic
    version := version
    lastCompatible := lastCompatible ▸ framed.lastCompatible
    total_header := total ▸ framed.total_header
    total := total ▸ long
    structure_header := structureStart ▸ framed.structure_header
    structure_start := structureStart ▸ order.trans room
    structure_stop := total ▸ inside
    strings_header := stringsStart ▸ framed.strings_header
    strings_stop := by
      rw [total, stringsStart, stringsSize]
      exact framed.strings_stop }
  have short : stop ≤ structureStop bytes - field bytes 2 := by
    have within := (stop?_bounds stops rfl).2
    rw [blockEq] at within
    exact within.trans (List.length_take_le _ _)
  refine ofBytes_of_live stops reframed ?_ ?_
  · rw [blockEq, structureBlock, List.take_take, min_eq_left short, ← window_congr block,
      structureBlock, structureStart]
    exact List.take_prefix_take_left (by omega)
  · rw [stringsEq, stringsBlock, stringsBlock, stringsStart, stringsSize]
    exact window_congr strings

end Places

structure Retains (bytes : List UInt8) (stop : Nat) (other : List UInt8) : Prop where
  long : field bytes 1 ≤ other.length
  header : ∀ index < Header.size, other[index]? = bytes[index]?
  block : ∀ index < stop, other[field bytes 2 + index]? = bytes[field bytes 2 + index]?
  strings : ∀ index < field bytes 8, other[field bytes 3 + index]? = bytes[field bytes 3 + index]?

theorem Retains.field_eq {bytes other : List UInt8} {stop : Nat}
    (retains : Retains bytes stop other) (index : Nat) (known : index < 10) :
    field other index = field bytes index := by
  have same : (other.drop (4 * index)).take 4 = (bytes.drop (4 * index)).take 4 :=
    window_congr fun offset inside => retains.header _ (by rw [Header.size]; omega)
  rw [field, field, same]

theorem Retains.sameReading {bytes other : List UInt8} {tree : DeviceTree} {stop : Nat}
    (accepted : ofBytes bytes = .ok tree) (stops : (Cursor.start tree.block).stop? = some stop)
    (retains : Retains bytes stop other) :
    ∃ same, ofBytes other = .ok same ∧ SameReading tree same := by
  have framed := (parts_of_ofBytes accepted).1
  have version := retains.field_eq 5 (by decide)
  have last : structureStop other = structureStop bytes := by
    simp only [structureStop, version, retains.field_eq 1 (by decide),
      retains.field_eq 2 (by decide), retains.field_eq 9 (by decide)]
  exact sameReading_of_places accepted stops retains.long
    (fun index known _ => retains.field_eq index known) (version ▸ framed.version) last.ge
    (last ▸ framed.structure_stop) retains.block retains.strings

def withVersion (bytes : List UInt8) (version : UInt32) : List UInt8 :=
  bytes.take 20 ++ Writer.word version ++ bytes.drop 24

section Version

variable {bytes : List UInt8} {version : UInt32}

theorem length_withVersion (long : 24 ≤ bytes.length) :
    (withVersion bytes version).length = bytes.length := by
  simp only [withVersion, List.length_append, List.length_take, List.length_drop, length_word]
  omega

theorem getElem?_withVersion (long : 24 ≤ bytes.length) {index : Nat}
    (outside : index < 20 ∨ 24 ≤ index) : (withVersion bytes version)[index]? = bytes[index]? := by
  have front : (bytes.take 20).length = 20 := List.length_take_of_le (by omega)
  have middle : (bytes.take 20 ++ Writer.word version).length = 24 := by
    rw [List.length_append, front, length_word]
  rcases outside with before | behind
  · rw [withVersion, List.append_assoc, List.getElem?_append_left (by omega),
      List.getElem?_take_of_lt before]
  · rw [withVersion, List.getElem?_append_right (by omega), List.getElem?_drop, middle,
      Nat.add_sub_cancel' behind]

theorem field_withVersion (long : 24 ≤ bytes.length) :
    field (withVersion bytes version) 5 = version.toNat := by
  have front : (bytes.take 20).length = 20 := List.length_take_of_le (by omega)
  rw [field, withVersion, List.append_assoc, List.drop_left' front,
    List.take_left' (length_word version), ofBigEndian_word]

theorem field_withVersion_of_ne (long : 24 ≤ bytes.length) {index : Nat} (other : index ≠ 5) :
    field (withVersion bytes version) index = field bytes index := by
  rw [field, field, window_congr fun offset inside => getElem?_withVersion long (by omega)]

theorem withVersion_sameReading {tree : DeviceTree} {stop : Nat}
    (accepted : ofBytes bytes = .ok tree) (stops : (Cursor.start tree.block).stop? = some stop) :
    ∃ same, ofBytes (withVersion bytes 16) = .ok same ∧ SameReading tree same := by
  have framed := (parts_of_ofBytes accepted).1
  have long : 24 ≤ bytes.length := le_trans (by decide) framed.header
  have version : field (withVersion bytes 16) 5 = 16 := field_withVersion long
  have last : structureStop (withVersion bytes 16) = field bytes 1 := by
    rw [structureStop, version, if_pos (by decide), field_withVersion_of_ne long (by decide)]
  have structureHeader := framed.structure_header
  have stringsHeader := framed.strings_header
  refine sameReading_of_places accepted stops ?_
    (fun index _ other => field_withVersion_of_ne long other) version.ge ?_ last.le
    (fun index _ => getElem?_withVersion long (by omega))
    (fun index _ => getElem?_withVersion long (by omega))
  · rw [length_withVersion long]
    exact framed.total
  · rw [last]
    exact framed.structure_stop

end Version

section Memory

variable {memory : Memory} {address : UInt64} {bytes : List UInt8}

theorem read_of_holds (holds : memory.Holds address bytes) {length : Nat}
    (inside : length ≤ bytes.length) : memory.read address length = bytes.take length := by
  obtain ⟨rest, whole⟩ := Nat.exists_eq_add_of_le inside
  rw [Memory.Holds, whole, Memory.read_add] at holds
  rw [← holds]
  exact (List.take_left' (Memory.length_read memory address length)).symm

theorem header_take {total : Nat} (inside : Header.size ≤ total) :
    Header.ofBytes (bytes.take total) = Header.ofBytes bytes := by
  rw [Header.size] at inside
  have short : (bytes.take total).length < 40 ↔ bytes.length < 40 := by
    rw [List.length_take]
    omega
  rw [ofBytes_header, ofBytes_header, frame_take inside]
  exact if_congr short rfl rfl

theorem frame_of_header {header : Header} (read : Header.ofBytes bytes = .ok header) :
    header = frame bytes ∧ Header.size ≤ field bytes 1 := by
  rw [ofBytes_header] at read
  split_ifs at read
  rw [check_frame] at read
  split_ifs at read with magic versions inside
  · cases read
  · cases read
  · exact ⟨(Except.ok.inj read).symm, inside.1⟩
  · cases read

theorem ofBytes_take_total {header : Header} (read : Header.ofBytes bytes = .ok header)
    (long : field bytes 1 ≤ bytes.length) : ofBytes (bytes.take (field bytes 1)) = ofBytes bytes := by
  obtain ⟨rfl, inside⟩ := frame_of_header read
  have total : (frame bytes).totalSize.toNat = field bytes 1 := toNat_field bytes 1
  unfold ofBytes
  rw [header_take inside, read]
  simp only [bind, Except.bind]
  rw [total, List.length_take_of_le long, List.take_take, min_self, if_neg (Nat.lt_irrefl _),
    if_neg (Nat.not_lt.mpr long)]

theorem ofMemory_eq_ofBytes (registered : address ≠ 0) (holds : memory.Holds address bytes)
    (long : max Header.size (field bytes 1) ≤ bytes.length) :
    ofMemory memory address = ofBytes bytes := by
  obtain ⟨header, total⟩ := max_le_iff.mp long
  unfold ofMemory
  rw [if_neg registered, read_of_holds holds header, header_take (Nat.le_refl _)]
  cases read : Header.ofBytes bytes with
  | error error =>
    unfold ofBytes
    rw [read]
    rfl
  | ok header =>
    change ofBytes (memory.read address header.totalSize.toNat) = ofBytes bytes
    have size : header.totalSize.toNat = field bytes 1 := by
      rw [(frame_of_header read).1]
      exact toNat_field bytes 1
    rw [size, read_of_holds holds total, ofBytes_take_total read total]

end Memory

theorem ofBytes_reads_live (bytes : List UInt8) :
    (∀ tree, ofBytes bytes = .ok tree → ∃ stop, (Cursor.start tree.block).stop? = some stop ∧
      (∀ other, Retains bytes stop other →
        ∃ same, ofBytes other = .ok same ∧ SameReading tree same) ∧
      ∃ same, ofBytes (withVersion bytes 16) = .ok same ∧ SameReading tree same) ∧
    ∀ (memory : Memory) (address : UInt64), address ≠ 0 → memory.Holds address bytes →
      max Header.size (field bytes 1) ≤ bytes.length →
        ofMemory memory address = ofBytes bytes := by
  refine ⟨fun tree accepted => ?_, fun _ _ => ofMemory_eq_ofBytes⟩
  obtain ⟨stop, stops⟩ := exists_stop tree.wellFormed
  exact ⟨stop, stops, fun _ => Retains.sameReading accepted stops,
    withVersion_sameReading accepted stops⟩

-- finished twice, so that bytes stand behind the first end token
def settledBlob : List UInt8 :=
  let root := (Writer.empty.beginNode "").cellProperty "cells" 2
  ((root.beginNode "soc").endNode.endNode.finish.2.nop).finish.1

-- with the reservations and all behind the first end token overwritten
def strayedBlob : List UInt8 :=
  settledBlob.mapIdx (fun index byte =>
    if 40 ≤ index ∧ index < 56 ∨ 100 ≤ index ∧ index < 108 then 0xff else byte) ++ [1, 2, 3]

theorem settledBlob_reads_live :
    ∃ tree same old, ofBytes settledBlob = .ok tree ∧
      (ofBytes strayedBlob = .ok same ∧ SameReading tree same) ∧
      (ofBytes (withVersion settledBlob 16) = .ok old ∧ SameReading tree old) ∧
      ofMemory (Memory.zero.write 0x1000 strayedBlob) 0x1000 = ofBytes strayedBlob := by
  have read : (ofBytes settledBlob).toOption.isSome = true := by decide +kernel
  have ends : (Cursor.start (structureBlock settledBlob)).stop? = some 44 := by decide +kernel
  have retains : Retains settledBlob 44 strayedBlob := by
    constructor <;> decide +kernel
  have fits : strayedBlob.length ≤ UInt64.size := by decide +kernel
  have long : max Header.size (field strayedBlob 1) ≤ strayedBlob.length := by decide +kernel
  cases accepted : ofBytes settledBlob with
  | error error => simp [accepted, Except.toOption] at read
  | ok tree =>
    obtain ⟨stop, stops, replaced, old, downgraded⟩ := (ofBytes_reads_live settledBlob).1 tree accepted
    rw [(blocks_of_ofBytes accepted).1, ends] at stops
    obtain rfl := Option.some.inj stops
    obtain ⟨same, kept⟩ := replaced strayedBlob retains
    exact ⟨tree, same, old, rfl, kept, downgraded, (ofBytes_reads_live strayedBlob).2 _ 0x1000
      (by decide) (Memory.holds_write .zero 0x1000 fits) long⟩

end EarlyBoot.DeviceTree
