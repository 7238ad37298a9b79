import EarlyBoot.Bytes.Endian
import EarlyBoot.DeviceTree.Error

set_option autoImplicit false

namespace EarlyBoot.DeviceTree

def word? : List UInt8 → Option UInt32
  | a :: b :: c :: d :: _ => some (UInt32.ofNat (Bytes.ofBigEndian [a, b, c, d]))
  | _ => none

structure Header where
  magic : UInt32
  totalSize : UInt32
  structureOffset : UInt32
  stringsOffset : UInt32
  reservationsOffset : UInt32
  version : UInt32
  lastCompatible : UInt32
  bootProcessor : UInt32
  stringsSize : UInt32
  structureSize : UInt32
  deriving DecidableEq, Repr

namespace Header

def knownMagic : UInt32 := 0xd00dfeed

def size : Nat := 40

def firstVersion : UInt32 := 16
def lastVersion : UInt32 := 17

def fields (header : Header) : List UInt32 :=
  [header.magic, header.totalSize, header.structureOffset, header.stringsOffset,
    header.reservationsOffset, header.version, header.lastCompatible, header.bootProcessor,
    header.stringsSize, header.structureSize]

def encode (header : Header) : List UInt8 :=
  header.fields.flatMap fun field => Bytes.bigEndian 4 field.toNat

def decode? (bytes : List UInt8) : Option Header := do
  let field := fun (index : Nat) => word? (bytes.drop (4 * index))
  return {
    magic := ← field 0
    totalSize := ← field 1
    structureOffset := ← field 2
    stringsOffset := ← field 3
    reservationsOffset := ← field 4
    version := ← field 5
    lastCompatible := ← field 6
    bootProcessor := ← field 7
    stringsSize := ← field 8
    structureSize := ← field 9
  }

def structureStart (header : Header) : Nat :=
  header.structureOffset.toNat

-- version 16 does not record the size of the structure block, which then runs to the end
def structureStop (header : Header) : Nat :=
  if header.version ≥ 17 then header.structureStart + header.structureSize.toNat
  else header.totalSize.toNat

def stringsStart (header : Header) : Nat :=
  header.stringsOffset.toNat

def stringsStop (header : Header) : Nat :=
  header.stringsStart + header.stringsSize.toNat

def InBounds (header : Header) : Prop :=
  size ≤ header.totalSize.toNat ∧ size ≤ header.structureStart ∧ size ≤ header.stringsStart ∧
    header.structureStop ≤ header.totalSize.toNat ∧ header.stringsStop ≤ header.totalSize.toNat

instance (header : Header) : Decidable header.InBounds := by
  unfold InBounds
  infer_instance

def check (header : Header) : Except Error Unit :=
  if header.magic ≠ knownMagic then .error (.badMagic header.magic)
  else if header.version < firstVersion ∨ lastVersion < header.lastCompatible then
    .error (.unsupportedVersion header.version header.lastCompatible)
  else if header.InBounds then .ok ()
  else .error .truncated

def ofBytes (bytes : List UInt8) : Except Error Header := do
  match decode? bytes with
  | none => throw .truncated
  | some header =>
    header.check
    return header

end Header

end EarlyBoot.DeviceTree
