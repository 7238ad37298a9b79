set_option autoImplicit false

namespace EarlyBoot.HandOff

-- bits without a flag are kept as they are
structure Attributes where
  bits : UInt32
  deriving DecidableEq, Repr

namespace Attributes

inductive Flag where
  | present
  | initialized
  | tested
  | uncacheable
  | writeCombineable
  | writeThroughCacheable
  | writeBackCacheable
  deriving DecidableEq, Repr

def Flag.all : List Flag :=
  [.present, .initialized, .tested, .uncacheable, .writeCombineable, .writeThroughCacheable,
    .writeBackCacheable]

def Flag.bit : Flag → UInt32
  | .present => 0x1
  | .initialized => 0x2
  | .tested => 0x4
  | .uncacheable => 0x400
  | .writeCombineable => 0x800
  | .writeThroughCacheable => 0x1000
  | .writeBackCacheable => 0x2000

def ofFlags (flags : List Flag) : Attributes :=
  ⟨flags.foldl (fun bits flag => bits ||| flag.bit) 0⟩

def every : Attributes :=
  .ofFlags Flag.all

def cacheability : List Flag :=
  [.uncacheable, .writeCombineable, .writeThroughCacheable, .writeBackCacheable]

def usable : Attributes :=
  .ofFlags ([.present, .initialized, .tested] ++ cacheability)

def reserved : Attributes :=
  .ofFlags ([.present, .initialized] ++ cacheability)

def truncate (attributes : Attributes) : Attributes :=
  ⟨attributes.bits &&& every.bits⟩

def isKnown (attributes : Attributes) : Bool :=
  attributes.truncate = attributes

def isEmpty (attributes : Attributes) : Bool :=
  attributes.bits = 0

def isAll (attributes : Attributes) : Bool :=
  attributes.bits &&& every.bits = every.bits

def contains (attributes other : Attributes) : Bool :=
  attributes.bits &&& other.bits = other.bits

def intersects (attributes other : Attributes) : Bool :=
  attributes.bits &&& other.bits ≠ 0

def union (attributes other : Attributes) : Attributes :=
  ⟨attributes.bits ||| other.bits⟩

def flags (attributes : Attributes) : List Flag :=
  Flag.all.filter fun flag => attributes.contains ⟨flag.bit⟩

end Attributes

end EarlyBoot.HandOff
