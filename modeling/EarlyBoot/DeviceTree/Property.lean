import EarlyBoot.DeviceTree.Header

set_option autoImplicit false

namespace EarlyBoot.DeviceTree

structure Property where
  name : String
  value : List UInt8
  deriving DecidableEq, Repr

namespace Property

def text? (property : Property) : Option String :=
  let bytes :=
    if property.value.getLast? = some 0 then property.value.dropLast else property.value
  String.fromUTF8? bytes.toByteArray

def cell? (property : Property) : Option UInt32 :=
  if property.value.length = 4 then some (UInt32.ofNat (Bytes.ofBigEndian property.value))
  else none

def doubleCell? (property : Property) : Option UInt64 :=
  if property.value.length = 8 then some (UInt64.ofNat (Bytes.ofBigEndian property.value))
  else none

def range? (property : Property) : Option (UInt64 × UInt64) :=
  if property.value.length = 16 then
    some (UInt64.ofNat (Bytes.ofBigEndian (property.value.take 8)),
      UInt64.ofNat (Bytes.ofBigEndian (property.value.drop 8)))
  else none

def cellsOf : List UInt8 → List UInt32
  | a :: b :: c :: d :: rest => UInt32.ofNat (Bytes.ofBigEndian [a, b, c, d]) :: cellsOf rest
  | _ => []

def cells (property : Property) : List UInt32 :=
  cellsOf property.value

end Property

end EarlyBoot.DeviceTree
