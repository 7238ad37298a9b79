import EarlyBoot.Text.Hex
import EarlyBoot.Word

set_option autoImplicit false

namespace EarlyBoot

structure Region where
  base : UInt64
  size : UInt64
  deriving DecidableEq, Repr

namespace Region

-- stands for a region that was not found
def absent : Region := ⟨0, 0⟩

def between (start stop : UInt64) : Region :=
  ⟨start, Word.subClipped stop start⟩

def isEmpty (region : Region) : Bool :=
  region.size = 0

def stop? (region : Region) : Option UInt64 :=
  Word.add? region.base region.size

def clippedStop (region : Region) : UInt64 :=
  Word.addClipped region.base region.size

def overlaps (a b : Region) : Bool :=
  !a.isEmpty && !b.isEmpty && a.base < b.clippedStop && b.base < a.clippedStop

def contains (region : Region) (address : UInt64) : Bool :=
  region.base ≤ address && address - region.base < region.size

def describe (region : Region) : String :=
  Hex.render region.base.toNat ++ ".." ++ Hex.render (region.base + region.size).toNat

end Region

end EarlyBoot
