import EarlyBoot.DeviceTree.Token

set_option autoImplicit false

namespace EarlyBoot.DeviceTree

structure Walk where
  depth : Nat
  seenRoot : Bool
  deriving DecidableEq, Repr

namespace Walk

def initial : Walk := ⟨0, false⟩

def step? (strings : List UInt8) (walk : Walk) : Token → Option Walk
  | .beginNode _ =>
    if walk.depth = 0 ∧ walk.seenRoot then none else some ⟨walk.depth + 1, true⟩
  | .endNode => if walk.depth = 0 then none else some { walk with depth := walk.depth - 1 }
  | .property nameOffset _ =>
    if walk.depth = 0 ∨ (textAt? strings nameOffset).isNone then none else some walk
  | .finish => none

def complete (walk : Walk) : Bool :=
  walk.depth = 0 && walk.seenRoot

end Walk

def checkFrom (strings : List UInt8) (cursor : Cursor) (walk : Walk) : Except Error Unit :=
  -- what may not stand at a token is reported where its padding starts
  match _ : Token.read cursor with
  | .error error => .error error
  | .ok (.finish, _) => if walk.complete then .ok () else .error (.badStructure cursor.offset)
  | .ok (token, after) =>
    match walk.step? strings token with
    | none => .error (.badStructure cursor.offset)
    | some next => checkFrom strings after next
termination_by cursor.rest.length
decreasing_by exact Token.read_length_lt ‹_›

def checkStructure (strings block : List UInt8) : Except Error Unit :=
  checkFrom strings (.start block) .initial

end EarlyBoot.DeviceTree
