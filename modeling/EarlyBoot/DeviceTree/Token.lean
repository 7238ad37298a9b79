import EarlyBoot.DeviceTree.Header

set_option autoImplicit false

namespace EarlyBoot.DeviceTree

inductive Token where
  | beginNode (name : String)
  | endNode
  | property (nameOffset : UInt32) (value : List UInt8)
  | finish
  deriving DecidableEq, Repr

namespace Tag

def beginNode : UInt32 := 1
def endNode : UInt32 := 2
def property : UInt32 := 3
def nop : UInt32 := 4
def finish : UInt32 := 9

end Tag

def aligned (length : Nat) : Nat :=
  (length + 3) / 4 * 4

def terminatedText? (bytes : List UInt8) : Option String :=
  if 0 ∈ bytes then String.fromUTF8? (bytes.takeWhile (· ≠ 0)).toByteArray else none

def textAt? (strings : List UInt8) (offset : UInt32) : Option String :=
  terminatedText? (strings.drop offset.toNat)

structure Cursor where
  offset : Nat
  rest : List UInt8
  deriving DecidableEq, Repr

namespace Cursor

def start (block : List UInt8) : Cursor := ⟨0, block⟩

def advance (cursor : Cursor) (length : Nat) : Cursor :=
  ⟨cursor.offset + length, cursor.rest.drop length⟩

end Cursor

namespace Token

def decode? (tag : UInt32) (body : List UInt8) : Option (Token × Nat) :=
  if tag = Tag.beginNode then
    (terminatedText? body).map fun name => (.beginNode name, 4 + aligned (name.utf8ByteSize + 1))
  else if tag = Tag.property then do
    let size ← word? body
    let nameOffset ← word? (body.drop 4)
    let value := (body.drop 8).take size.toNat
    if value.length = size.toNat then
      some (.property nameOffset value, 12 + aligned size.toNat)
    else none
  else if tag = Tag.endNode then some (.endNode, 4)
  else if tag = Tag.finish then some (.finish, 4)
  else none

theorem word?_length {bytes : List UInt8} {word : UInt32} (found : word? bytes = some word) :
    4 ≤ bytes.length := by
  match bytes with
  | _ :: _ :: _ :: _ :: _ => simp
  | [] | [_] | [_, _] | [_, _, _] => simp [word?] at found

def read (cursor : Cursor) : Except Error (Token × Cursor) :=
  match _ : word? cursor.rest with
  | none => .error (.badStructure cursor.offset)
  | some tag =>
    -- an error behind padding is reported where the padding ends
    if tag = Tag.nop then read (cursor.advance 4)
    else
      match decode? tag (cursor.rest.drop 4) with
      | none => .error (.badStructure cursor.offset)
      | some (token, length) => .ok (token, cursor.advance length)
termination_by cursor.rest.length
decreasing_by
  have := word?_length ‹_›
  simp only [Cursor.advance, List.length_drop]
  omega

theorem decode?_length {tag : UInt32} {body : List UInt8} {token : Token} {length : Nat}
    (decoded : decode? tag body = some (token, length)) : 4 ≤ length := by
  unfold decode? at decoded
  split at decoded
  · simp only [Option.map_eq_some_iff, Prod.mk.injEq] at decoded
    omega
  · split at decoded
    · simp only [Option.bind_eq_bind, Option.bind_eq_some_iff] at decoded
      obtain ⟨_, _, _, _, chosen⟩ := decoded
      split at chosen
      · simp only [Option.some.injEq, Prod.mk.injEq] at chosen
        omega
      · contradiction
    · split at decoded
      · simp_all
      · split at decoded <;> simp_all

theorem read_length_lt {cursor after : Cursor} {token : Token}
    (result : read cursor = .ok (token, after)) : after.rest.length < cursor.rest.length := by
  fun_induction read cursor with
  | case1 => simp at result
  | case2 cursor found ih =>
    have := ih result
    simp only [Cursor.advance, List.length_drop] at this
    omega
  | case3 => simp at result
  | case4 cursor tag found notNop token length decoded =>
    have := word?_length found
    have := decode?_length decoded
    simp only [Except.ok.injEq, Prod.mk.injEq] at result
    obtain ⟨rfl, rfl⟩ := result
    simp only [Cursor.advance, List.length_drop]
    omega

end Token

end EarlyBoot.DeviceTree
