set_option autoImplicit false

namespace EarlyBoot.Hex

def digits (value : Nat) : List Char :=
  Nat.toDigits 16 value

def padded (width value : Nat) : String :=
  String.ofList ((digits value).leftpad width '0')

def render (value : Nat) : String :=
  "0x" ++ String.ofList (digits value)

def ofBytes (bytes : List UInt8) : String :=
  String.join (bytes.map fun byte => padded 2 byte.toNat)

end EarlyBoot.Hex
