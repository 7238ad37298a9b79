import EarlyBoot.Bytes.RoundTrip
import EarlyBoot.Proofs.HandOff.Walk

set_option autoImplicit false

namespace EarlyBoot.HandOff

abbrev Reader := StateT (List UInt8) Option

namespace Reader

def front (width : Nat) : Reader (List UInt8) := fun bytes =>
  if bytes.length < width then none else some (bytes.take width, bytes.drop width)

def number (width : Nat) : Reader Nat :=
  Bytes.ofLittleEndian <$> front width

def word16 : Reader UInt16 :=
  UInt16.ofNat <$> number 2

def word32 : Reader UInt32 :=
  UInt32.ofNat <$> number 4

def word64 : Reader UInt64 :=
  UInt64.ofNat <$> number 8

def tail : Reader UInt64 := do
  let bytes ← front 8
  return UInt64.ofNat (Bytes.ofBigEndian bytes)

def guid : Reader Guid := do
  let first ← word32
  let second ← word16
  let third ← word16
  let tail ← tail
  return ⟨first, second, third, tail⟩

def region : Reader Region := do
  let base ← word64
  let size ← word64
  return ⟨base, size⟩

def header : Reader (UInt16 × Nat) := do
  let kind ← word16
  let length ← number 2
  let _ ← word32
  return (kind, length)

def allocation : Reader Block := do
  let _ ← guid
  let region ← region
  let code ← word32
  let _ ← word32
  match MemoryKind.ofCode? code with
  | some kind => return .memoryAllocation region kind
  | none => failure

def resource : Reader Block := do
  let _ ← guid
  let code ← word32
  let bits ← word32
  let region ← region
  match ResourceKind.ofCode? code with
  | some .systemMemory => return .memoryRange region ⟨bits⟩
  | some .memoryReserved => return .reservedRange region ⟨bits⟩
  | _ => failure

def volume : Reader Block := do
  let region ← region
  return .firmwareVolume region

def generic : Reader Block := do
  let name ← guid
  let data ← word64
  return .generic name data

def block : Reader Block := do
  let (code, _) ← header
  match BlockKind.ofCode? code with
  | some .memoryAllocation => allocation
  | some .resourceDescriptor => resource
  | some .firmwareVolume => volume
  | some .guidExtension => generic
  | _ => failure

def opening : Reader Opening := do
  let _ ← header
  let _ ← word32
  let _ ← word32
  let memoryTop ← word64
  let memoryBottom ← word64
  let freeTop ← word64
  let freeBottom ← word64
  let listEnd ← word64
  return { memoryTop, memoryBottom, freeTop, freeBottom, listEnd }

variable (rest : List UInt8)

theorem run_front {bytes : List UInt8} {width : Nat} (length : bytes.length = width) :
    (front width).run (bytes ++ rest) = some (bytes, rest) := by
  have long : ¬(bytes ++ rest).length < width := by
    rw [List.length_append]
    omega
  unfold StateT.run front
  rw [if_neg long, List.take_left' length, List.drop_left' length]

theorem run_number (width value : Nat) :
    (number width).run (Bytes.littleEndian width value ++ rest) =
      some (value % 256 ^ width, rest) := by
  rw [number, StateT.run_map, run_front rest (Bytes.length_littleEndian width value),
    ← Bytes.ofLittleEndian_littleEndian]
  rfl

theorem run_map_number {α : Type} {ofNat : Nat → α} {width : Nat}
    (wraps : ∀ value, ofNat (value % 256 ^ width) = ofNat value) (value : Nat) :
    (ofNat <$> number width).run (Bytes.littleEndian width value ++ rest) =
      some (ofNat value, rest) := by
  rw [StateT.run_map, run_number, ← wraps value]
  rfl

@[simp]
theorem run_word16 (value : Nat) :
    word16.run (Bytes.littleEndian 2 value ++ rest) = some (UInt16.ofNat value, rest) :=
  run_map_number rest (fun _ => UInt16.ofNat_mod_size) value

@[simp]
theorem run_word32 (value : Nat) :
    word32.run (Bytes.littleEndian 4 value ++ rest) = some (UInt32.ofNat value, rest) :=
  run_map_number rest (fun _ => UInt32.ofNat_mod_size) value

@[simp]
theorem run_word64 (value : Nat) :
    word64.run (Bytes.littleEndian 8 value ++ rest) = some (UInt64.ofNat value, rest) :=
  run_map_number rest (fun _ => UInt64.ofNat_mod_size) value

@[simp]
theorem run_tail (value : UInt64) :
    tail.run (Bytes.bigEndian 8 value.toNat ++ rest) = some (value, rest) := by
  have fits : value.toNat < 256 ^ 8 := value.toNat_lt
  simp only [tail, StateT.run_bind, run_front rest (Bytes.length_bigEndian 8 value.toNat),
    Option.bind_eq_bind, Option.bind_some, Bytes.ofBigEndian_bigEndian, Nat.mod_eq_of_lt fits,
    UInt64.ofNat_toNat]
  rfl

@[simp]
theorem run_guid (name : Guid) : guid.run (name.encode ++ rest) = some (name, rest) := by
  simp [guid, Guid.encode]

@[simp]
theorem run_region (area : Region) :
    region.run (encodeRegion area ++ rest) = some (area, rest) := by
  simp [region, encodeRegion]

theorem run_header {length : Nat} (fits : length < 65536) (kind : BlockKind) :
    header.run (encodeHeader kind length ++ rest) = some ((kind.code, length), rest) := by
  simp [header, encodeHeader, run_number, Nat.mod_eq_of_lt fits]

theorem run_block (told : Block) : block.run (told.encode ++ rest) = some (told, rest) := by
  rw [block, Block.encode, List.append_assoc, StateT.run_bind, run_header _ told.length_lt]
  cases told with
  | memoryAllocation region kind =>
    simp [Block.kind, BlockKind.ofCode?_code, allocation, Block.encodeBody, MemoryKind.ofCode?_code]
  | memoryRange region attributes =>
    simp [Block.kind, BlockKind.ofCode?_code, resource, Block.encodeBody, Block.encodeResource,
      ResourceKind.ofCode?_code]
  | reservedRange region attributes =>
    simp [Block.kind, BlockKind.ofCode?_code, resource, Block.encodeBody, Block.encodeResource,
      ResourceKind.ofCode?_code]
  | firmwareVolume region =>
    simp [Block.kind, BlockKind.ofCode?_code, volume, Block.encodeBody]
  | generic name data =>
    simp [Block.kind, BlockKind.ofCode?_code, generic, Block.encodeBody]

theorem run_opening (introduction : Introduction) (total : Nat) :
    opening.run (introduction.encode total ++ rest) =
      some ({
        memoryTop := introduction.memoryTop
        memoryBottom := introduction.memoryBottom
        freeTop := introduction.memoryTop
        freeBottom := introduction.listAddress + UInt64.ofNat total
        listEnd := introduction.listAddress + UInt64.ofNat (total - headerLength) }, rest) := by
  have fits : introductionLength < 65536 := by decide
  simp [opening, Introduction.encode, run_header _ fits]

end Reader

def cut? (bytes : List UInt8) : Option (List (List UInt8)) :=
  match Reader.header.run bytes with
  | none => none
  | some ((code, length), _) =>
    if length < headerLength ∨ bytes.length < length then none
    else if code = BlockKind.endOfList.code then some [bytes.take length]
    else (cut? (bytes.drop length)).map fun later => bytes.take length :: later
termination_by bytes.length
decreasing_by
  simp only [headerLength, List.length_drop] at *
  omega

theorem cut?_append {kind : BlockKind} {length : Nat} {fields : List UInt8}
    (whole : (encodeHeader kind length ++ fields).length = length) (fits : length < 65536)
    (rest : List UInt8) :
    cut? (encodeHeader kind length ++ fields ++ rest) =
      if kind.code = BlockKind.endOfList.code then some [encodeHeader kind length ++ fields]
      else (cut? rest).map fun later => (encodeHeader kind length ++ fields) :: later := by
  have long : headerLength ≤ (encodeHeader kind length ++ fields).length := by
    simp only [encodeHeader, headerLength, List.length_append, Bytes.length_littleEndian]
    omega
  have within : ¬(length < headerLength ∨
      (encodeHeader kind length ++ fields ++ rest).length < length) := by
    rw [List.length_append]
    omega
  have header : Reader.header.run (encodeHeader kind length ++ fields ++ rest) =
      some ((kind.code, length), fields ++ rest) := by
    rw [List.append_assoc, Reader.run_header _ fits]
  rw [cut?, header]
  simp only [if_neg within, List.take_left' whole, List.drop_left' whole]

theorem cut?_block (block : Block) (rest : List UInt8) :
    cut? (block.encode ++ rest) = (cut? rest).map fun later => block.encode :: later := by
  have whole : (encodeHeader block.kind block.length ++ block.encodeBody).length = block.length :=
    block.length_encode
  rw [Block.encode, cut?_append whole block.length_lt, if_neg block.kind_ne_endOfList]

theorem cut?_endOfList (rest : List UInt8) :
    cut? (encodeHeader .endOfList headerLength ++ rest) =
      some [encodeHeader .endOfList headerLength] := by
  have cut := @cut?_append .endOfList headerLength [] rfl (by decide) rest
  rwa [List.append_nil, if_pos rfl] at cut

theorem cut?_introduction (introduction : Introduction) (total : Nat) (rest : List UInt8) :
    cut? (introduction.encode total ++ rest) =
      (cut? rest).map fun later => introduction.encode total :: later := by
  obtain ⟨fields, split⟩ : ∃ fields,
      introduction.encode total = encodeHeader .handOff introductionLength ++ fields :=
    ⟨_, by simp only [Introduction.encode, List.append_assoc]; rfl⟩
  have whole := introduction.length_encode total
  rw [split] at whole ⊢
  rw [cut?_append whole (by decide), if_neg (by decide)]

theorem cut?_blocks (blocks : List Block) {rest : List UInt8} {segments : List (List UInt8)}
    (cut : cut? rest = some segments) :
    cut? (blocks.flatMap Block.encode ++ rest) = some (blocks.map Block.encode ++ segments) := by
  induction blocks with
  | nil => exact cut
  | cons block others ih =>
    rw [List.flatMap_cons, List.append_assoc, cut?_block, ih]
    rfl

def decode? (bytes : List UInt8) : Option (Introduction × List Block) := do
  let segments ← cut? bytes
  let first ← segments.head?
  let opening ← Reader.opening.run' first
  let blocks ← segments.tail.dropLast.mapM Reader.block.run'
  let offset := segments.dropLast.flatten.length
  -- the address of the list is not recorded, only that of its end
  return ({
    memoryBottom := opening.memoryBottom
    memoryTop := opening.memoryTop
    listAddress := opening.listEnd - UInt64.ofNat offset }, blocks)

theorem mapM_block (blocks : List Block) :
    (blocks.map Block.encode).mapM Reader.block.run' = some blocks := by
  induction blocks with
  | nil => rfl
  | cons block rest ih =>
    have told := Reader.run_block [] block
    rw [List.append_nil] at told
    rw [List.map_cons, List.mapM_cons, ih, StateT.run'_eq, told]
    rfl

namespace BlockList

def segments (list : BlockList) (introduction : Introduction) : List (List UInt8) :=
  introduction.encode list.encodedLength ::
    (list.blocks.map Block.encode ++ [encodeHeader .endOfList headerLength])

structure Stores (list : BlockList) (introduction : Introduction) (buffer : List UInt8)
    (reply : Except Error Nat) (after : List UInt8) : Prop where
  refused_iff : reply = .error (.bufferTooSmall list.encodedLength) ↔
    buffer.length < list.encodedLength
  untouched : buffer.length < list.encodedLength → after = buffer
  count : list.encodedLength ≤ buffer.length → reply = .ok list.encodedLength
  length : after.length = buffer.length
  beyond : after.drop list.encodedLength = buffer.drop list.encodedLength
  cut : list.encodedLength ≤ buffer.length → cut? after = some (list.segments introduction)
  total : (list.segments introduction).flatten.length = list.encodedLength
  aligned : ∀ count, 8 ∣ ((list.segments introduction).take count).flatten.length
  decoded : list.encodedLength ≤ buffer.length → decode? after = some (introduction, list.blocks)

variable (list : BlockList) (introduction : Introduction)

theorem flatten_segments : (list.segments introduction).flatten = list.encode introduction := by
  simp [segments, encode, List.flatMap_def]

theorem cut?_encode (rest : List UInt8) :
    cut? (list.encode introduction ++ rest) = some (list.segments introduction) := by
  rw [encode, List.append_assoc, List.append_assoc, cut?_introduction,
    cut?_blocks _ (cut?_endOfList rest)]
  rfl

theorem dvd_length_segments (count : Nat) :
    8 ∣ ((list.segments introduction).take count).flatten.length := by
  -- every block is a multiple of eight bytes long, so every sum of lengths is one too
  rw [List.length_flatten]
  apply List.dvd_sum
  intro length member
  obtain ⟨segment, inside, rfl⟩ := List.mem_map.mp member
  have found := List.mem_of_mem_take inside
  simp only [segments, List.mem_cons, List.mem_append, List.mem_map, List.not_mem_nil,
    or_false] at found
  obtain rfl | ⟨block, _, rfl⟩ | rfl := found
  · rw [Introduction.length_encode]
    decide
  · rw [Block.length_encode]
    cases block <;> simp [Block.length]
  · decide

theorem dropLast_segments :
    (list.segments introduction).dropLast =
      introduction.encode list.encodedLength :: list.blocks.map Block.encode := by
  rw [segments, ← List.cons_append, List.dropLast_concat]

theorem length_dropLast_segments :
    (list.segments introduction).dropLast.flatten.length = list.encodedLength - headerLength := by
  rw [dropLast_segments, List.flatten_cons, List.length_append, Introduction.length_encode,
    ← List.flatMap_def, length_flatMap_encode, encodedLength, Nat.add_sub_cancel]

theorem decode?_encode (rest : List UInt8) :
    decode? (list.encode introduction ++ rest) = some (introduction, list.blocks) := by
  have opening := Reader.run_opening [] introduction list.encodedLength
  have blocks : (list.segments introduction).tail.dropLast = list.blocks.map Block.encode :=
    List.dropLast_concat
  rw [List.append_nil] at opening
  simp only [decode?, cut?_encode, Option.bind_eq_bind, Option.bind_some, blocks, mapM_block,
    length_dropLast_segments]
  simp only [segments, List.head?_cons, Option.bind_some, StateT.run'_eq, opening]
  -- the difference undoes the sum, also where that wraps
  simp

theorem encode_prefix_iff (other : BlockList) (otherIntroduction : Introduction) :
    list.encode introduction <+: other.encode otherIntroduction ↔
      introduction = otherIntroduction ∧ list.blocks = other.blocks := by
  constructor
  · intro begins
    obtain ⟨rest, same⟩ := begins
    have mine := decode?_encode list introduction rest
    have theirs := decode?_encode other otherIntroduction []
    rw [same] at mine
    rw [List.append_nil, mine, Option.some.injEq, Prod.mk.injEq] at theirs
    exact theirs
  · intro same
    obtain ⟨rfl, blocks⟩ := same
    rw [encode, encode, encodedLength, encodedLength, blocks]

theorem store_of_short {buffer : List UInt8} (short : buffer.length < list.encodedLength) :
    list.store introduction buffer = (.error (.bufferTooSmall list.encodedLength), buffer) := by
  rw [store, encodeInto, encodeWithin, if_pos short]
  rfl

theorem store_of_long {buffer : List UInt8} (long : list.encodedLength ≤ buffer.length) :
    list.store introduction buffer =
      (.ok list.encodedLength,
        list.encode introduction ++ buffer.drop list.encodedLength) := by
  rw [store, encodeInto, encodeWithin, if_neg (Nat.not_lt.mpr long), Except.map, length_encode]

theorem store_stores (buffer : List UInt8) :
    list.Stores introduction buffer (list.store introduction buffer).1
      (list.store introduction buffer).2 := by
  have total : (list.segments introduction).flatten.length = list.encodedLength := by
    rw [flatten_segments, length_encode]
  by_cases short : buffer.length < list.encodedLength
  · have absurdly {α : Prop} (long : list.encodedLength ≤ buffer.length) : α :=
      absurd short (Nat.not_lt.mpr long)
    rw [store_of_short list introduction short]
    exact {
      refused_iff := iff_of_true rfl short
      untouched := fun _ => rfl
      count := absurdly
      length := rfl
      beyond := rfl
      cut := absurdly
      total := total
      aligned := list.dvd_length_segments introduction
      decoded := absurdly }
  · have long := Nat.not_lt.mp short
    rw [store_of_long list introduction long]
    exact {
      refused_iff := iff_of_false nofun short
      untouched := fun tooShort => absurd tooShort short
      count := fun _ => rfl
      length := by
        rw [List.length_append, length_encode, List.length_drop]
        omega
      beyond := List.drop_left' (list.length_encode introduction)
      cut := fun _ => list.cut?_encode introduction _
      total := total
      aligned := list.dvd_length_segments introduction
      decoded := fun _ => list.decode?_encode introduction _ }

theorem store_lossless (list other : BlockList) (introduction otherIntroduction : Introduction)
    (buffer : List UInt8) :
    let call := list.store introduction buffer
    list.Stores introduction buffer call.1 call.2 ∧
      (list.encode introduction <+: other.encode otherIntroduction ↔
        introduction = otherIntroduction ∧ list.blocks = other.blocks) :=
  ⟨list.store_stores introduction buffer,
    list.encode_prefix_iff introduction other otherIntroduction⟩

end BlockList

end EarlyBoot.HandOff
