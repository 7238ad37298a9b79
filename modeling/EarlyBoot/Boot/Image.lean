import EarlyBoot.Platform.Config

set_option autoImplicit false

namespace EarlyBoot.Boot

structure Image where
  region : Region
  secondaryEntry : UInt64
  secondaryStacks : UInt64
  -- on the stack of the boot hart
  contextAddress : UInt64
  deriving DecidableEq, Repr

def Image.stackTop (image : Image) (slot : Nat) : UInt64 :=
  image.secondaryStacks + UInt64.ofNat ((slot + 1) * Platform.secondaryStackSize)

end EarlyBoot.Boot
