import EarlyBoot.HandOff.Encoding
import EarlyBoot.Proofs.Memory.Physical

set_option autoImplicit false

namespace EarlyBoot

open HandOff

def Memory.headerKind (memory : Memory) (address : UInt64) : UInt16 :=
  UInt16.ofNat (Bytes.ofLittleEndian (memory.read address 2))

def Memory.headerLength (memory : Memory) (address : UInt64) : Nat :=
  Bytes.ofLittleEndian (memory.read (address + 2) 2)

structure HandOff.Opening where
  memoryTop : UInt64
  memoryBottom : UInt64
  freeTop : UInt64
  freeBottom : UInt64
  listEnd : UInt64
  deriving DecidableEq, Repr

def Memory.readOpening (memory : Memory) (address : UInt64) : HandOff.Opening where
  memoryTop := memory.readWord (address + 16)
  memoryBottom := memory.readWord (address + 24)
  freeTop := memory.readWord (address + 32)
  freeBottom := memory.readWord (address + 40)
  listEnd := memory.readWord (address + 48)

namespace HandOff

inductive Walk (memory : Memory) : UInt64 → UInt64 → Prop where
  | stop {address : UInt64} (kind : memory.headerKind address = BlockKind.endOfList.code) :
    Walk memory address address
  | step {address stop : UInt64} (kind : memory.headerKind address ≠ BlockKind.endOfList.code)
    (rest : Walk memory (address + UInt64.ofNat (memory.headerLength address)) stop) :
    Walk memory address stop

variable {memory : Memory} {address : UInt64}

theorem header_of_holds {kind : BlockKind} {length : Nat} (fits : length < 65536)
    (holds : memory.Holds address (encodeHeader kind length)) :
    memory.headerKind address = kind.code ∧ memory.headerLength address = length := by
  rw [encodeHeader, Memory.holds_append, Memory.holds_append, Bytes.length_littleEndian] at holds
  obtain ⟨⟨kindHolds, lengthHolds⟩, _⟩ := holds
  constructor
  · rw [Memory.headerKind, Memory.ofLittleEndian_read kindHolds kind.code.toNat_lt,
      UInt16.ofNat_toNat]
  · exact Memory.ofLittleEndian_read lengthHolds fits

theorem Block.kind_ne_endOfList (block : Block) : block.kind.code ≠ BlockKind.endOfList.code := by
  cases block <;> simp [kind, BlockKind.code]

theorem Block.length_lt (block : Block) : block.length < 65536 := by
  cases block <;> simp [length]

theorem walk_of_holds {blocks : List Block}
    (holds : memory.Holds address
      (blocks.flatMap Block.encode ++ encodeHeader .endOfList headerLength)) :
    Walk memory address (address + UInt64.ofNat (BlockList.bodyLength blocks)) := by
  induction blocks generalizing address with
  | nil =>
    have start : address + UInt64.ofNat (BlockList.bodyLength []) = address := add_zero address
    rw [start]
    exact .stop (header_of_holds (by decide) holds).1
  | cons block rest ih =>
    rw [List.flatMap_cons, List.append_assoc, Memory.holds_append, Block.length_encode] at holds
    obtain ⟨here, later⟩ := holds
    rw [Block.encode, Memory.holds_append] at here
    obtain ⟨kind, length⟩ := header_of_holds block.length_lt here.1
    rw [BlockList.bodyLength, ← Memory.add_ofNat_add]
    apply Walk.step (kind ▸ block.kind_ne_endOfList)
    rw [length]
    exact ih later

theorem walk_of_holds_encode {list : BlockList} {introduction : Introduction}
    (holds : memory.Holds address (list.encode introduction)) :
    Walk memory address (address + UInt64.ofNat (list.encodedLength - headerLength)) := by
  rw [BlockList.encode, List.append_assoc, Memory.holds_append,
    Introduction.length_encode] at holds
  obtain ⟨first, later⟩ := holds
  rw [Introduction.encode] at first
  simp only [List.append_assoc] at first
  obtain ⟨kind, length⟩ := header_of_holds (by decide) (Memory.holds_append.mp first).1
  have split : list.encodedLength - headerLength =
      introductionLength + BlockList.bodyLength list.blocks := by
    rw [BlockList.encodedLength, Nat.add_sub_cancel]
  rw [split, ← Memory.add_ofNat_add]
  apply Walk.step (by rw [kind]; decide)
  rw [length]
  exact walk_of_holds later

theorem readOpening_of_holds {list : BlockList} {introduction : Introduction}
    (holds : memory.Holds address (list.encode introduction))
    (fits : introduction.listAddress.toNat + list.encodedLength < UInt64.size) :
    memory.readOpening address =
      { memoryTop := introduction.memoryTop
        memoryBottom := introduction.memoryBottom
        freeTop := introduction.memoryTop
        freeBottom := introduction.listAddress + UInt64.ofNat list.encodedLength
        listEnd := introduction.listAddress +
          UInt64.ofNat (list.encodedLength - headerLength) } := by
  have behind : list.encodedLength - headerLength ≤ list.encodedLength := Nat.sub_le _ _
  rw [BlockList.encode, Memory.holds_append, Memory.holds_append] at holds
  obtain ⟨⟨first, _⟩, _⟩ := holds
  simp only [Introduction.encode, encodeHeader, Memory.holds_append, Bytes.length_littleEndian,
    List.length_append] at first
  obtain ⟨⟨⟨⟨⟨_, memoryTop⟩, memoryBottom⟩, freeTop⟩, freeBottom⟩, listEnd⟩ := first
  have bottomFits := Memory.toNat_add_ofNat fits
  have endFits : (introduction.listAddress +
      UInt64.ofNat (list.encodedLength - headerLength)).toNat = _ :=
    Memory.toNat_add_ofNat (by omega)
  rw [← bottomFits] at freeBottom
  rw [← endFits] at listEnd
  simp only [Nat.reduceAdd] at memoryTop memoryBottom freeTop freeBottom listEnd
  rw [Memory.readOpening, Opening.mk.injEq]
  refine ⟨?_, ?_, ?_, ?_, ?_⟩
  · exact Memory.readWord_of_holds memoryTop
  · exact Memory.readWord_of_holds memoryBottom
  · exact Memory.readWord_of_holds freeTop
  · exact Memory.readWord_of_holds freeBottom
  · exact Memory.readWord_of_holds listEnd

end HandOff

end EarlyBoot
