import EarlyBoot.Bytes.RoundTrip
import EarlyBoot.DeviceTree.Structure
import EarlyBoot.DeviceTree.Writer
import EarlyBoot.Proofs.Text.Utf8

set_option autoImplicit false

namespace EarlyBoot.DeviceTree

theorem word?_eq (bytes : List UInt8) :
    word? bytes =
      if 4 ≤ bytes.length then some (UInt32.ofNat (Bytes.ofBigEndian (bytes.take 4)))
      else none := by
  match bytes with
  | a :: b :: c :: d :: rest => simp [word?]
  | [] | [_] | [_, _] | [_, _, _] => simp [word?]

theorem toNat_ofBigEndian {bytes : List UInt8} (length : bytes.length = 4) :
    (UInt32.ofNat (Bytes.ofBigEndian bytes)).toNat = Bytes.ofBigEndian bytes := by
  have bound := Bytes.ofBigEndian_lt bytes
  have width : 256 ^ 4 = UInt32.size := by norm_num [UInt32.size]
  rw [length, width] at bound
  exact UInt32.toNat_ofNat_of_lt bound

theorem word_ofBigEndian {bytes : List UInt8} (length : bytes.length = 4) :
    Writer.word (UInt32.ofNat (Bytes.ofBigEndian bytes)) = bytes := by
  rw [Writer.word, toNat_ofBigEndian length, ← length, Bytes.bigEndian_ofBigEndian]

theorem ofBigEndian_word (word : UInt32) : Bytes.ofBigEndian (Writer.word word) = word.toNat := by
  have bound := word.toNat_lt
  rw [Writer.word, Bytes.ofBigEndian_bigEndian]
  omega

@[simp]
theorem length_word (word : UInt32) : (Writer.word word).length = 4 :=
  Bytes.length_bigEndian 4 _

theorem word?_eq_some_iff {bytes : List UInt8} {word : UInt32} :
    word? bytes = some word ↔ Writer.word word <+: bytes := by
  rw [word?_eq]
  constructor
  · intro found
    split_ifs at found with long
    obtain rfl := Option.some.inj found
    rw [word_ofBigEndian (List.length_take_of_le long)]
    exact List.take_prefix 4 bytes
  · rintro ⟨rest, rfl⟩
    have front : (Writer.word word ++ rest).take 4 = Writer.word word :=
      List.take_left' (length_word word)
    rw [if_pos (by simp), front, ofBigEndian_word, UInt32.ofNat_toNat]

theorem takeWhile_append_zero {bytes : List UInt8} (terminated : 0 ∈ bytes) :
    bytes.takeWhile (· ≠ 0) ++ [0] <+: bytes := by
  induction bytes with
  | nil => simp at terminated
  | cons byte rest ih =>
    by_cases zero : byte = 0
    · simp [zero]
    · rw [List.takeWhile_cons_of_pos (by simpa using zero), List.cons_append,
        List.prefix_cons_inj]
      exact ih (List.mem_of_ne_of_mem (Ne.symm zero) terminated)

theorem takeWhile_of_append_zero {front rest : List UInt8} (plain : 0 ∉ front) :
    (front ++ [0] ++ rest).takeWhile (· ≠ 0) = front := by
  have nonzero : ∀ byte ∈ front, decide (byte ≠ 0) = true := fun byte member =>
    decide_eq_true (ne_of_mem_of_not_mem member plain)
  rw [List.append_assoc, List.takeWhile_append_of_pos nonzero]
  simp

def Begins (text : String) (bytes : List UInt8) : Prop :=
  0 ∉ text.toUTF8.data.toList ∧ Writer.terminated text <+: bytes

theorem terminatedText?_eq_some_iff {bytes : List UInt8} {text : String} :
    terminatedText? bytes = some text ↔ Begins text bytes := by
  unfold terminatedText? Begins
  constructor
  · intro found
    split at found
    next terminated =>
      rw [Writer.terminated, ← fromUTF8?_toByteArray_iff.mp found]
      exact ⟨fun member => by simpa using List.mem_takeWhile_imp member,
        takeWhile_append_zero terminated⟩
    next => contradiction
  · rintro ⟨plain, rest, rfl⟩
    rw [if_pos (by simp [Writer.terminated]), Writer.terminated, takeWhile_of_append_zero plain]
    exact fromUTF8?_toByteArray_iff.mpr rfl

namespace Token

def tag : Token → UInt32
  | .beginNode _ => Tag.beginNode
  | .endNode => Tag.endNode
  | .property _ _ => Tag.property
  | .finish => Tag.finish

def body : Token → List UInt8
  | .beginNode name => Writer.terminated name
  | .endNode => []
  | .property nameOffset value =>
    Bytes.bigEndian 4 value.length ++ Writer.word nameOffset ++ value
  | .finish => []

def spelling (token : Token) : List UInt8 :=
  Writer.word token.tag ++ token.body

def Legible : Token → Prop
  | .beginNode name => 0 ∉ name.toUTF8.data.toList
  | .endNode => True
  | .property _ value => value.length < UInt32.size
  | .finish => True

theorem tag_ne_nop (token : Token) : token.tag ≠ Tag.nop := by
  cases token <;> simp [tag, Tag.beginNode, Tag.endNode, Tag.property, Tag.nop, Tag.finish]

theorem tag_ne_property {token : Token}
    (other : ∀ nameOffset value, token ≠ .property nameOffset value) :
    token.tag ≠ Tag.property := by
  cases token with
  | property nameOffset value => exact absurd rfl (other nameOffset value)
  | beginNode | endNode | finish =>
    simp [tag, Tag.property, Tag.beginNode, Tag.endNode, Tag.finish]

theorem decode?_beginNode {bytes : List UInt8} {token : Token} {length : Nat} :
    decode? Tag.beginNode bytes = some (token, length) ↔
      ∃ name, Begins name bytes ∧ token = .beginNode name ∧
        length = 4 + aligned (Writer.terminated name).length := by
  have size (name : String) : name.utf8ByteSize + 1 = (Writer.terminated name).length := by
    simp [Writer.terminated]
  unfold decode?
  rw [if_pos rfl, Option.map_eq_some_iff]
  simp only [terminatedText?_eq_some_iff, Prod.mk.injEq, size]
  exact exists_congr fun name => and_congr_right fun _ => and_congr eq_comm eq_comm

theorem decode?_property {bytes : List UInt8} {token : Token} {length : Nat} :
    decode? Tag.property bytes = some (token, length) ↔
      ∃ nameOffset value, value.length < UInt32.size ∧
        Bytes.bigEndian 4 value.length ++ Writer.word nameOffset ++ value <+: bytes ∧
        token = .property nameOffset value ∧ length = 12 + aligned value.length := by
  unfold decode?
  rw [if_neg (by decide), if_pos rfl]
  simp only [Option.bind_eq_bind, Option.bind_eq_some_iff, word?_eq_some_iff]
  constructor
  · rintro ⟨size, ⟨tail, rfl⟩, nameOffset, second, chosen⟩
    rw [List.drop_left' (length_word size)] at second
    obtain ⟨tail, rfl⟩ := second
    have behind : (Writer.word size ++ (Writer.word nameOffset ++ tail)).drop 8 = tail := by
      rw [← List.append_assoc]
      exact List.drop_left' (by simp)
    rw [behind] at chosen
    split_ifs at chosen with complete
    obtain ⟨rfl, rfl⟩ := Prod.mk.inj (Option.some.inj chosen)
    refine ⟨nameOffset, tail.take size.toNat, ?_, ?_, rfl, by rw [complete]⟩
    · rw [complete]
      exact size.toNat_lt
    rw [complete, ← List.append_assoc]
    exact (List.prefix_append_right_inj _).mpr (List.take_prefix _ _)
  · rintro ⟨nameOffset, value, small, ⟨tail, rfl⟩, rfl, rfl⟩
    have size : (UInt32.ofNat value.length).toNat = value.length :=
      UInt32.toNat_ofNat_of_lt small
    have first : Bytes.bigEndian 4 value.length = Writer.word (UInt32.ofNat value.length) := by
      rw [Writer.word, size]
    rw [first]
    simp only [List.append_assoc]
    refine ⟨_, List.prefix_append _ _, nameOffset, ?_, ?_⟩
    · rw [List.drop_left' (length_word _)]
      exact List.prefix_append _ _
    · have behind : (Writer.word (UInt32.ofNat value.length) ++
          (Writer.word nameOffset ++ (value ++ tail))).drop 8 = value ++ tail := by
        rw [← List.append_assoc]
        exact List.drop_left' (by simp)
      rw [behind, size, List.take_left, if_pos rfl]

theorem decode?_other {tag : UInt32} {bytes : List UInt8} {token : Token} {length : Nat}
    (noNode : tag ≠ Tag.beginNode) (noProperty : tag ≠ Tag.property) :
    decode? tag bytes = some (token, length) ↔
      (token = .endNode ∨ token = .finish) ∧ tag = token.tag ∧ length = 4 := by
  unfold decode?
  rw [if_neg noNode, if_neg noProperty]
  split_ifs with ended finished
  · cases token <;> simp_all [Token.tag, Tag.endNode, Tag.finish, eq_comm]
  · cases token <;> simp_all [Token.tag, Tag.endNode, Tag.finish, eq_comm]
  · cases token <;> simp_all [Token.tag]

theorem decode?_eq_some_iff {tag : UInt32} {bytes : List UInt8} {token : Token} {length : Nat} :
    decode? tag bytes = some (token, length) ↔
      tag = token.tag ∧ token.Legible ∧ token.body <+: bytes ∧
        length = 4 + aligned token.body.length := by
  by_cases node : tag = Tag.beginNode
  · subst node
    rw [decode?_beginNode]
    constructor
    · rintro ⟨name, ⟨plain, front⟩, rfl, rfl⟩
      exact ⟨rfl, plain, front, rfl⟩
    · rintro ⟨same, legible, front, rfl⟩
      cases token with
      | beginNode name => exact ⟨name, ⟨legible, front⟩, rfl, rfl⟩
      | endNode | property _ _ | finish => exact absurd same (by simp [Token.tag, Tag.beginNode,
          Tag.endNode, Tag.property, Tag.finish])
  by_cases property : tag = Tag.property
  · subst property
    rw [decode?_property]
    have length (nameOffset : UInt32) (value : List UInt8) :
        12 + aligned value.length = 4 + aligned (Token.property nameOffset value).body.length := by
      simp only [body, List.length_append, Bytes.length_bigEndian, length_word, aligned]
      omega
    constructor
    · rintro ⟨nameOffset, value, small, front, rfl, rfl⟩
      exact ⟨rfl, small, front, length nameOffset value⟩
    · rintro ⟨same, legible, front, rfl⟩
      cases token with
      | property nameOffset value =>
        exact ⟨nameOffset, value, legible, front, rfl, (length nameOffset value).symm⟩
      | beginNode _ => exact absurd same node
      | endNode | finish => exact absurd same (by simp [Token.tag, Tag.property, Tag.endNode,
          Tag.finish])
  rw [decode?_other node property]
  constructor
  · rintro ⟨rfl | rfl, same, rfl⟩
    · exact ⟨same, trivial, List.nil_prefix, rfl⟩
    · exact ⟨same, trivial, List.nil_prefix, rfl⟩
  · rintro ⟨same, -, -, rfl⟩
    cases token with
    | beginNode _ => exact absurd same node
    | property _ _ => exact absurd same property
    | endNode => exact ⟨.inl rfl, same, rfl⟩
    | finish => exact ⟨.inr rfl, same, rfl⟩

end Token

def cursorAt (block : List UInt8) (offset : Nat) : Cursor :=
  ⟨offset, block.drop offset⟩

theorem advance_cursorAt (block : List UInt8) (offset length : Nat) :
    (cursorAt block offset).advance length = cursorAt block (offset + length) := by
  simp [cursorAt, Cursor.advance, List.drop_drop]

-- behind no-ops at the first offset; what comes next starts at the second one
inductive Stands (block : List UInt8) (token : Token) : Nat → Nat → Prop where
  | here {offset : Nat} (legible : token.Legible) (spelled : token.spelling <+: block.drop offset) :
    Stands block token offset (aligned (offset + token.spelling.length))
  | skip {offset next : Nat} (noOp : Writer.word Tag.nop <+: block.drop offset)
    (rest : Stands block token (offset + 4) next) : Stands block token offset next

theorem Stands.next_mod {block : List UInt8} {token : Token} {offset next : Nat}
    (stands : Stands block token offset next) : next % 4 = 0 := by
  induction stands with
  | here legible spelled => exact Nat.mul_mod_left _ _
  | skip noOp rest ih => exact ih

namespace Token

theorem read_nop {cursor : Cursor} (found : word? cursor.rest = some Tag.nop) :
    read cursor = read (cursor.advance 4) := by
  rw [read]
  split
  next missing => simp [missing] at found
  next tag same =>
    rw [found, Option.some.injEq] at same
    rw [if_pos same.symm]

theorem read_of_decode? {cursor : Cursor} {token : Token} {length : Nat} {tag : UInt32}
    (found : word? cursor.rest = some tag) (notNop : tag ≠ Tag.nop)
    (decoded : decode? tag (cursor.rest.drop 4) = some (token, length)) :
    read cursor = .ok (token, cursor.advance length) := by
  rw [read]
  split
  next missing => simp [missing] at found
  next other same =>
    rw [found, Option.some.injEq] at same
    subst same
    rw [if_neg notNop, decoded]

theorem spelling_prefix_iff {token : Token} {bytes : List UInt8} :
    token.spelling <+: bytes ↔
      word? bytes = some token.tag ∧ token.body <+: bytes.drop 4 := by
  rw [word?_eq_some_iff, spelling]
  constructor
  · rintro ⟨tail, rfl⟩
    rw [List.append_assoc, List.drop_left' (length_word _)]
    exact ⟨List.prefix_append _ _, List.prefix_append _ _⟩
  · rintro ⟨⟨tail, rfl⟩, front⟩
    rw [List.drop_left' (length_word _)] at front
    exact (List.prefix_append_right_inj _).mpr front

theorem aligned_spelling {offset : Nat} (token : Token) (start : offset % 4 = 0) :
    aligned (offset + token.spelling.length) = offset + (4 + aligned token.body.length) := by
  simp only [spelling, aligned, List.length_append, length_word]
  omega

theorem read_eq_ok_iff {block : List UInt8} {offset : Nat} {token : Token} {after : Cursor}
    (start : offset % 4 = 0) :
    read (cursorAt block offset) = .ok (token, after) ↔
      ∃ next, Stands block token offset next ∧ after = cursorAt block next := by
  constructor
  · intro result
    -- the block stays fixed while no-ops move the offset on
    generalize same : cursorAt block offset = cursor at result
    fun_induction read cursor generalizing offset with
    | case1 => simp at result
    | case2 cursor found ih =>
      subst same
      obtain ⟨next, stands, rfl⟩ := ih (by omega) (advance_cursorAt block offset 4).symm result
      exact ⟨next, .skip (word?_eq_some_iff.mp found) stands, rfl⟩
    | case3 => simp at result
    | case4 cursor tag found notNop token length decoded =>
      subst same
      obtain ⟨rfl, legible, front, rfl⟩ := decode?_eq_some_iff.mp decoded
      rw [Except.ok.injEq, Prod.mk.injEq] at result
      obtain ⟨rfl, rfl⟩ := result
      refine ⟨_, .here legible (spelling_prefix_iff.mpr ⟨found, front⟩), ?_⟩
      rw [advance_cursorAt, aligned_spelling _ start]
  · rintro ⟨next, stands, rfl⟩
    induction stands with
    | skip noOp rest ih =>
      rw [read_nop (word?_eq_some_iff.mpr noOp), advance_cursorAt]
      exact ih (by omega)
    | here legible spelled =>
      obtain ⟨found, front⟩ := spelling_prefix_iff.mp spelled
      rw [aligned_spelling _ start, ← advance_cursorAt]
      exact read_of_decode? found token.tag_ne_nop
        (decode?_eq_some_iff.mpr ⟨rfl, legible, front, rfl⟩)

end Token

end EarlyBoot.DeviceTree
