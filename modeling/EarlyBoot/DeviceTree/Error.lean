import EarlyBoot.Text.Hex

set_option autoImplicit false

namespace EarlyBoot.DeviceTree

inductive Error where
  | nullPointer
  | badMagic (magic : UInt32)
  | unsupportedVersion (version lastCompatible : UInt32)
  | truncated
  | badStructure (offset : Nat)
  deriving DecidableEq, Repr

def Error.message : Error → String
  | .nullPointer => "device tree pointer is null"
  | .badMagic magic => "bad device tree magic: 0x" ++ Hex.padded 8 magic.toNat
  | .unsupportedVersion version lastCompatible =>
    "unsupported device tree version " ++ toString version.toNat ++ " (last compatible " ++
      toString lastCompatible.toNat ++ ")"
  | .truncated => "device tree blob is truncated"
  | .badStructure offset => "malformed structure block at offset " ++ Hex.render offset

end EarlyBoot.DeviceTree
