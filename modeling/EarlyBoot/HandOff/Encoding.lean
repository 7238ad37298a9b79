import EarlyBoot.HandOff.BlockList

set_option autoImplicit false

namespace EarlyBoot.HandOff

def headerLength : Nat := 8

def introductionLength : Nat := 56

def encodeHeader (kind : BlockKind) (length : Nat) : List UInt8 :=
  Bytes.littleEndian 2 kind.code.toNat ++ Bytes.littleEndian 2 length ++ Bytes.littleEndian 4 0

def encodeRegion (region : Region) : List UInt8 :=
  Bytes.littleEndian 8 region.base.toNat ++ Bytes.littleEndian 8 region.size.toNat

namespace Block

def length : Block → Nat
  | .memoryAllocation _ _ => 48
  | .memoryRange _ _ => 48
  | .reservedRange _ _ => 48
  | .firmwareVolume _ => 24
  | .generic _ _ => 32

def encodeResource (kind : ResourceKind) (attributes : Attributes) (region : Region) :
    List UInt8 :=
  Guid.zero.encode ++ Bytes.littleEndian 4 kind.code.toNat ++
    Bytes.littleEndian 4 attributes.bits.toNat ++ encodeRegion region

def encodeBody : Block → List UInt8
  | .memoryAllocation region kind =>
    Guid.zero.encode ++ encodeRegion region ++ Bytes.littleEndian 4 kind.code.toNat ++
      Bytes.littleEndian 4 0
  | .memoryRange region attributes => encodeResource .systemMemory attributes region
  | .reservedRange region attributes => encodeResource .memoryReserved attributes region
  | .firmwareVolume region => encodeRegion region
  | .generic name data => name.encode ++ Bytes.littleEndian 8 data.toNat

def encode (block : Block) : List UInt8 :=
  encodeHeader block.kind block.length ++ block.encodeBody

@[simp]
theorem length_encode (block : Block) : block.encode.length = block.length := by
  cases block <;> simp [encode, encodeHeader, encodeBody, encodeResource, encodeRegion, length]

end Block

structure Introduction where
  memoryBottom : UInt64
  memoryTop : UInt64
  listAddress : UInt64
  deriving DecidableEq, Repr

namespace Introduction

def version : Nat := 9

def bootMode : Nat := 0

def encode (introduction : Introduction) (total : Nat) : List UInt8 :=
  encodeHeader .handOff introductionLength ++ Bytes.littleEndian 4 version ++
    Bytes.littleEndian 4 bootMode ++ Bytes.littleEndian 8 introduction.memoryTop.toNat ++
    Bytes.littleEndian 8 introduction.memoryBottom.toNat ++
    Bytes.littleEndian 8 introduction.memoryTop.toNat ++
    Bytes.littleEndian 8 (introduction.listAddress.toNat + total) ++
    Bytes.littleEndian 8 (introduction.listAddress.toNat + (total - headerLength))

@[simp]
theorem length_encode (introduction : Introduction) (total : Nat) :
    (introduction.encode total).length = introductionLength := by
  simp [encode, encodeHeader, introductionLength]

end Introduction

namespace BlockList

def bodyLength : List Block → Nat
  | [] => 0
  | block :: rest => block.length + bodyLength rest

def encodedLength (list : BlockList) : Nat :=
  introductionLength + bodyLength list.blocks + headerLength

def encode (list : BlockList) (introduction : Introduction) : List UInt8 :=
  introduction.encode list.encodedLength ++ list.blocks.flatMap Block.encode ++
    encodeHeader .endOfList headerLength

def encodeWithin (list : BlockList) (introduction : Introduction) (available : Nat) :
    Except Error (List UInt8) :=
  if available < list.encodedLength then .error (.bufferTooSmall list.encodedLength)
  else .ok (list.encode introduction)

def encodeInto (list : BlockList) (introduction : Introduction) (buffer : List UInt8) :
    Except Error (List UInt8) :=
  (list.encodeWithin introduction buffer.length).map fun bytes =>
    bytes ++ buffer.drop bytes.length

def store (list : BlockList) (introduction : Introduction) (buffer : List UInt8) :
    Except Error Nat × List UInt8 :=
  match list.encodeInto introduction buffer with
  | .ok written => (.ok list.encodedLength, written)
  | .error error => (.error error, buffer)

theorem length_flatMap_encode (blocks : List Block) :
    (blocks.flatMap Block.encode).length = bodyLength blocks := by
  induction blocks with
  | nil => rfl
  | cons block rest ih => simp [bodyLength, ih]

@[simp]
theorem length_encode (list : BlockList) (introduction : Introduction) :
    (list.encode introduction).length = list.encodedLength := by
  rw [encode, List.length_append, List.length_append, length_flatMap_encode,
    Introduction.length_encode]
  simp [encodedLength, encodeHeader, headerLength]

end BlockList

end EarlyBoot.HandOff
