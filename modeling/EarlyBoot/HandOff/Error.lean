import EarlyBoot.Memory.Region

set_option autoImplicit false

namespace EarlyBoot.HandOff

inductive Error where
  | full
  | zeroLength (base : UInt64)
  | addressOverflow (region : Region)
  | overlappingAllocation (region : Region)
  | bufferTooSmall (required : Nat)
  deriving DecidableEq, Repr

def Error.message : Error → String
  | .full => "hand-off block list is full"
  | .zeroLength base => "zero-length range at " ++ Hex.render base.toNat
  | .addressOverflow region =>
    "range at " ++ Hex.render region.base.toNat ++ " with length " ++
      Hex.render region.size.toNat ++ " overflows the address space"
  | .overlappingAllocation region =>
    "allocation " ++ Hex.render region.base.toNat ++ "+" ++ Hex.render region.size.toNat ++
      " overlaps an existing allocation"
  | .bufferTooSmall required =>
    "buffer too small: " ++ toString required ++ " bytes required"

end EarlyBoot.HandOff
