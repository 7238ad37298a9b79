import EarlyBoot.DeviceTree.Property
import EarlyBoot.Proofs.DeviceTree.Grammar

set_option autoImplicit false

namespace EarlyBoot.DeviceTree

inductive Item where
  | beginNode (name : String)
  | endNode
  | property (entry : Property)
  | finish
  deriving DecidableEq, Repr

def Plain (text : String) : Prop :=
  0 ∉ text.toUTF8.data.toList

instance (text : String) : Decidable (Plain text) :=
  inferInstanceAs (Decidable (0 ∉ text.toUTF8.data.toList))

def Item.Plain : Item → Prop
  | .beginNode name => DeviceTree.Plain name
  | .property entry => DeviceTree.Plain entry.name
  | .endNode | .finish => True

instance : DecidablePred Item.Plain
  | .beginNode name => inferInstanceAs (Decidable (DeviceTree.Plain name))
  | .property entry => inferInstanceAs (Decidable (DeviceTree.Plain entry.name))
  | .endNode | .finish => inferInstanceAs (Decidable True)

-- the name of a property may go on behind a zero byte
def Item.PlainNode : Item → Prop
  | .beginNode name => DeviceTree.Plain name
  | .property _ | .endNode | .finish => True

instance : DecidablePred Item.PlainNode
  | .beginNode name => inferInstanceAs (Decidable (DeviceTree.Plain name))
  | .property _ | .endNode | .finish => inferInstanceAs (Decidable True)

-- up to the first zero character, which is what a reader finds
def seen (text : String) : String :=
  String.ofList (text.toList.takeWhile (· ≠ '\x00'))

def Item.seen : Item → Item
  | .property entry => .property { entry with name := DeviceTree.seen entry.name }
  | item => item

inductive Token.Means (strings : List UInt8) : Token → Item → Prop where
  | beginNode (name : String) : Means strings (.beginNode name) (.beginNode name)
  | endNode : Means strings .endNode .endNode
  | property {nameOffset : UInt32} {name : String} (value : List UInt8)
    (named : textAt? strings nameOffset = some name) :
    Means strings (.property nameOffset value) (.property ⟨name, value⟩)
  | finish : Means strings .finish .finish

inductive Lays (strings : List UInt8) : List UInt8 → List Item → Prop where
  | nil : Lays strings [] []
  | nop {bytes : List UInt8} {items : List Item} (rest : Lays strings bytes items) :
    Lays strings (Writer.word Tag.nop ++ bytes) items
  | token {token : Token} {item : Item} {bytes : List UInt8} {items : List Item}
    (legible : token.Legible) (means : token.Means strings item)
    (rest : Lays strings bytes items) :
    Lays strings (token.spelling ++ Writer.padding token.spelling.length ++ bytes) (item :: items)

def Tells (strings block : List UInt8) : Nat → List Item → Prop
  | _, [] => True
  | offset, item :: rest => ∃ token next,
      Stands block token offset next ∧ token.Means strings item ∧ Tells strings block next rest

theorem zero_mem_utf8EncodeChar {character : Char}
    (zero : 0 ∈ String.utf8EncodeChar character) : character = '\x00' := by
  have small {number : Nat} (bound : number < 256) (same : 0 = UInt8.ofNat number) :
      number = 0 := by
    have value := congrArg UInt8.toNat same
    rw [UInt8.toNat_ofNat_of_lt' bound] at value
    exact value.symm
  simp only [String.utf8EncodeChar] at zero
  split_ifs at zero
  · have value := small (by omega) (List.mem_singleton.mp zero)
    exact Char.ext (UInt32.toNat_inj.mp value)
  all_goals simp only [List.mem_cons, List.not_mem_nil, or_false] at zero
  -- all bytes of a longer encoding have their top bit set
  · rcases zero with same | same <;> exact absurd (small (by omega) same) (by omega)
  · rcases zero with same | same | same <;> exact absurd (small (by omega) same) (by omega)
  · rcases zero with same | same | same | same <;>
      exact absurd (small (by omega) same) (by omega)

theorem begins_seen (text : String) : Begins (seen text) (Writer.terminated text) := by
  rw [Begins, Writer.terminated, Writer.terminated, toUTF8_eq_flatMap, toUTF8_eq_flatMap, seen,
    String.toList_ofList]
  induction text.toList with
  | nil => simp
  | cons character rest ih =>
    by_cases zero : character = '\x00'
    · simp [zero, String.utf8EncodeChar]
    · rw [List.takeWhile_cons_of_pos (by simpa using zero), List.flatMap_cons, List.flatMap_cons,
        List.append_assoc, List.append_assoc, List.prefix_append_right_inj, List.mem_append, not_or]
      exact ⟨⟨fun member => zero (zero_mem_utf8EncodeChar member), ih.1⟩, ih.2⟩

theorem seen_of_plain {text : String} (plain : Plain text) : seen text = text := by
  have whole : Begins text (Writer.terminated text) := ⟨plain, List.prefix_rfl⟩
  have found := terminatedText?_eq_some_iff.mpr whole
  rw [terminatedText?_eq_some_iff.mpr (begins_seen text)] at found
  exact Option.some.inj found

theorem Item.Plain.node {item : Item} (plain : item.Plain) : item.PlainNode := by
  cases item with
  | beginNode name => exact plain
  | property | endNode | finish => trivial

theorem Item.Plain.seen_eq {item : Item} (plain : item.Plain) : item.seen = item := by
  cases item with
  | property entry => exact congrArg _ (congrArg (Property.mk · entry.value) (seen_of_plain plain))
  | beginNode | endNode | finish => rfl

section Strings

variable {strings : List UInt8}

theorem Begins.append {text : String} {bytes : List UInt8} (begins : Begins text bytes)
    (more : List UInt8) : Begins text (bytes ++ more) :=
  ⟨begins.1, begins.2.trans (List.prefix_append bytes more)⟩

theorem Begins.drop_append {text : String} {offset : Nat} (begins : Begins text (strings.drop offset))
    (more : List UInt8) : Begins text ((strings ++ more).drop offset) := by
  rw [List.drop_append]
  exact begins.append _

theorem Begins.offset_lt {text : String} {offset : Nat}
    (begins : Begins text (strings.drop offset)) : offset < strings.length := by
  have long := begins.2.length_le
  simp only [Writer.terminated, List.length_append, List.length_drop, List.length_singleton] at long
  omega

theorem Token.Means.append {token : Token} {item : Item} (means : token.Means strings item)
    (more : List UInt8) : token.Means (strings ++ more) item := by
  cases means with
  | beginNode name => exact .beginNode name
  | endNode => exact .endNode
  | property value named =>
    have begins := terminatedText?_eq_some_iff.mp named
    exact .property value (terminatedText?_eq_some_iff.mpr (begins.drop_append more))
  | finish => exact .finish

theorem Lays.strings_append {bytes : List UInt8} {items : List Item}
    (lays : Lays strings bytes items) (more : List UInt8) : Lays (strings ++ more) bytes items := by
  induction lays with
  | nil => exact .nil
  | nop rest ih => exact .nop ih
  | token legible means rest ih => exact .token legible (means.append more) ih

theorem Lays.append {first second : List UInt8} {items later : List Item}
    (lays : Lays strings first items) (other : Lays strings second later) :
    Lays strings (first ++ second) (items ++ later) := by
  induction lays with
  | nil => exact other
  | nop rest ih =>
    rw [List.append_assoc]
    exact .nop ih
  | token legible means rest ih =>
    rw [List.append_assoc, List.cons_append]
    exact .token legible means ih

theorem aligned_add {front : Nat} (start : front % 4 = 0) (length : Nat) :
    aligned (front + length) = front + (length + (aligned length - length)) := by
  simp only [aligned]
  omega

theorem Lays.tells {bytes back : List UInt8} {items later : List Item}
    (lays : Lays strings bytes items) (front : List UInt8) (start : front.length % 4 = 0)
    (rest : Tells strings (front ++ bytes ++ back) (front.length + bytes.length) later) :
    Tells strings (front ++ bytes ++ back) front.length (items ++ later) := by
  -- the block stays the same while laid bytes move over to what stands in front
  induction lays generalizing front with
  | nil => exact rest
  | @nop bytes items laid ih =>
    have whole : front ++ (Writer.word Tag.nop ++ bytes) ++ back =
        (front ++ Writer.word Tag.nop) ++ bytes ++ back := by simp
    have behind : (front ++ Writer.word Tag.nop).length = front.length + 4 := by simp
    have told := ih (front ++ Writer.word Tag.nop) (by omega)
      (by simpa [Nat.add_assoc] using rest)
    rw [whole]
    cases all : items ++ later with
    | nil => trivial
    | cons item more =>
      rw [all, behind] at told
      obtain ⟨token, next, stands, means, more⟩ := told
      have noOp : Writer.word Tag.nop <+:
          ((front ++ Writer.word Tag.nop) ++ bytes ++ back).drop front.length := by
        simp [List.append_assoc]
      exact ⟨token, next, .skip noOp stands, means, more⟩
  | @token token item bytes items legible means laid ih =>
    let spelled := token.spelling ++ Writer.padding token.spelling.length
    have whole : front ++ (spelled ++ bytes) ++ back = (front ++ spelled) ++ bytes ++ back := by
      simp
    have behind : (front ++ spelled).length = aligned (front.length + token.spelling.length) := by
      rw [aligned_add start]
      simp [spelled, Writer.padding]
    have told := ih (front ++ spelled)
      (by rw [behind]; exact Nat.mul_mod_left _ _)
      (by simpa [spelled, Nat.add_assoc] using rest)
    have stands : Stands ((front ++ spelled) ++ bytes ++ back) token front.length _ :=
      .here legible (by simp [spelled, List.append_assoc])
    rw [behind] at told
    rw [whole, List.cons_append]
    exact ⟨token, _, stands, means, told⟩

theorem Lays.tells_whole {bytes : List UInt8} {items : List Item} (lays : Lays strings bytes items) :
    Tells strings bytes 0 items := by
  have told : Tells strings ([] ++ bytes ++ []) 0 (items ++ []) := lays.tells [] rfl trivial
  simpa only [List.nil_append, List.append_nil] using told

end Strings

namespace Writer

def Step.item? : Step → Option Item
  | .beginNode name => some (.beginNode name)
  | .endNode => some .endNode
  | .nop => none
  | .property name value => some (.property ⟨name, value⟩)
  | .cellProperty name value => some (.property ⟨name, word value⟩)
  | .textProperty name text => some (.property ⟨name, terminated text⟩)
  | .regionsProperty regions => some (.property ⟨"reg", regions.flatMap fun (base, size) =>
      Bytes.bigEndian 8 base.toNat ++ Bytes.bigEndian 8 size.toNat⟩)
  | .finish => some .finish

def after (writer : Writer) : List Step → Writer
  | [] => writer
  | step :: rest => (writer.apply step).2.after rest

def Sound (writer : Writer) : Prop :=
  ∀ name offset, writer.names.lookup name = some offset →
    Begins (seen name) (writer.strings.drop offset)

def Small (writer : Writer) : Prop :=
  writer.block.length < UInt32.size ∧ writer.strings.length < UInt32.size

structure Extends (before after : Writer) (items : List Item) : Prop where
  sound : after.Sound
  strings : before.strings <+: after.strings
  block : ∃ bytes, after.block = before.block ++ bytes ∧ Lays after.strings bytes items

theorem Extends.refl {writer : Writer} (sound : writer.Sound) : writer.Extends writer [] where
  sound := sound
  strings := List.prefix_rfl
  block := ⟨[], (List.append_nil _).symm, .nil⟩

theorem Extends.trans {first second third : Writer} {items later : List Item}
    (lower : first.Extends second items) (upper : second.Extends third later) :
    first.Extends third (items ++ later) := by
  obtain ⟨_, lowerStrings, lowerBytes, lowerBlock, lowerLays⟩ := lower
  obtain ⟨sound, ⟨more, strings⟩, upperBytes, upperBlock, upperLays⟩ := upper
  refine ⟨sound, lowerStrings.trans ⟨more, strings⟩, lowerBytes ++ upperBytes, ?_, ?_⟩
  · rw [upperBlock, lowerBlock, List.append_assoc]
  · rw [← strings] at upperLays ⊢
    exact (lowerLays.strings_append more).append upperLays

theorem padding_add {front : Nat} (start : front % 4 = 0) (length : Nat) :
    padding (front + length) = padding length := by
  have same : aligned (front + length) - (front + length) = aligned length - length := by
    rw [aligned_add start]
    omega
  rw [padding, padding, same]

theorem emit_extends {writer : Writer} (sound : writer.Sound) (token : Token) {item : Item}
    (legible : token.Legible) (means : token.Means writer.strings item) :
    writer.Extends (writer.emit (token.spelling ++ padding token.spelling.length)) [item] where
  sound := sound
  strings := List.prefix_rfl
  block := ⟨_, rfl, List.append_nil (token.spelling ++ _) ▸ .token legible means .nil⟩

theorem sound_empty : empty.Sound := by
  intro name offset found
  simp [empty] at found

theorem intern_extends {writer : Writer} (sound : writer.Sound) (name : String) :
    writer.Extends (writer.intern name).2 [] ∧
      Begins (seen name) ((writer.intern name).2.strings.drop (writer.intern name).1) := by
  cases known : writer.names.lookup name with
  | some offset =>
    simp only [intern, known]
    exact ⟨.refl sound, sound name offset known⟩
  | none =>
    simp only [intern, known]
    have fresh :
        Begins (seen name) ((writer.strings ++ terminated name).drop writer.strings.length) := by
      rw [List.drop_left]
      exact begins_seen name
    refine ⟨⟨?_, List.prefix_append _ _, [], (List.append_nil _).symm, .nil⟩, fresh⟩
    intro other offset found
    rw [List.lookup_append, Option.or_eq_some_iff] at found
    rcases found with early | ⟨_, added⟩
    · exact (sound other offset early).drop_append _
    · by_cases same : other = name
      · simp only [same, List.lookup_cons, beq_self_eq_true, Option.some.injEq] at added
        rw [same, ← added]
        exact fresh
      · rw [List.lookup_cons, beq_false_of_ne same] at added
        cases added

theorem property_extends {writer : Writer} (sound : writer.Sound) {name : String}
    {value : List UInt8} (small : (writer.property name value).Small) :
    writer.Extends (writer.property name value) [.property ⟨seen name, value⟩] := by
  obtain ⟨interned, begins⟩ := intern_extends sound name
  set offset := (writer.intern name).1
  set named := (writer.intern name).2
  have offsetFits : offset < UInt32.size := Nat.lt_trans begins.offset_lt small.2
  have valueFits : value.length < UInt32.size := by
    refine Nat.lt_of_le_of_lt ?_ small.1
    simp only [property, emit, List.length_append]
    omega
  have offsetWord : (UInt32.ofNat offset).toNat = offset := UInt32.toNat_ofNat_of_lt offsetFits
  let token := Token.property (UInt32.ofNat offset) value
  have means : token.Means named.strings (.property ⟨seen name, value⟩) :=
    .property value (terminatedText?_eq_some_iff.mpr (by rwa [offsetWord]))
  have length : token.spelling.length = 12 + value.length := by
    simp only [token, Token.spelling, Token.body, List.length_append, length_word,
      Bytes.length_bigEndian]
    omega
  have spelled : token.spelling ++ padding token.spelling.length =
      word Tag.property ++ Bytes.bigEndian 4 value.length ++ Bytes.bigEndian 4 offset ++ value ++
        padding value.length := by
    rw [length, padding_add rfl]
    simp [token, Token.spelling, Token.body, Token.tag, word, offsetWord]
  have emitted := emit_extends interned.sound token valueFits means
  rw [spelled] at emitted
  exact interned.trans emitted

theorem beginNode_extends {writer : Writer} (sound : writer.Sound) {name : String}
    (plain : Plain name) : writer.Extends (writer.beginNode name) [.beginNode name] := by
  have length : (Token.beginNode name).spelling.length = 4 + (terminated name).length := by
    simp [Token.spelling, Token.body]
  have emitted := emit_extends sound (.beginNode name) plain (.beginNode name)
  rw [length, padding_add rfl] at emitted
  exact emitted

theorem nop_extends {writer : Writer} (sound : writer.Sound) : writer.Extends writer.nop [] where
  sound := sound
  strings := List.prefix_rfl
  block := ⟨word Tag.nop, rfl, by simpa using Lays.nop .nil⟩

theorem apply_extends {writer : Writer} (sound : writer.Sound) (step : Step)
    (plain : ∀ item ∈ step.item?, item.PlainNode) (small : (writer.apply step).2.Small) :
    writer.Extends (writer.apply step).2 (step.item?.toList.map Item.seen) := by
  cases step with
  | beginNode name => exact beginNode_extends sound (plain _ rfl)
  | endNode => exact emit_extends sound .endNode trivial .endNode
  | nop => exact nop_extends sound
  | property name value => exact property_extends sound small
  | cellProperty name value => exact property_extends sound small
  | textProperty name text => exact property_extends sound small
  | regionsProperty regions => exact property_extends sound small
  | finish => exact emit_extends sound .finish trivial .finish

def Grows (before after : Writer) : Prop :=
  before.block <+: after.block ∧ before.strings <+: after.strings

theorem property_grows (writer : Writer) (name : String) (value : List UInt8) :
    writer.Grows (writer.property name value) := by
  cases known : writer.names.lookup name <;> simp [Grows, property, intern, emit, known]

theorem apply_grows (writer : Writer) (step : Step) : writer.Grows (writer.apply step).2 := by
  cases step with
  | beginNode | endNode | nop | finish => simp [Grows, apply, beginNode, endNode, nop, finish, emit]
  | property | cellProperty | textProperty | regionsProperty => exact property_grows writer _ _

theorem after_grows (writer : Writer) (steps : List Step) : writer.Grows (writer.after steps) := by
  induction steps generalizing writer with
  | nil => exact ⟨List.prefix_rfl, List.prefix_rfl⟩
  | cons step rest ih =>
    have first := writer.apply_grows step
    have later := ih (writer.apply step).2
    exact ⟨first.1.trans later.1, first.2.trans later.2⟩

theorem after_extends {writer : Writer} (sound : writer.Sound) {steps : List Step}
    (plain : ∀ item ∈ steps.filterMap Step.item?, item.PlainNode)
    (small : (writer.after steps).Small) :
    writer.Extends (writer.after steps) ((steps.filterMap Step.item?).map Item.seen) := by
  induction steps generalizing writer with
  | nil => exact .refl sound
  | cons step rest ih =>
    have grows := after_grows (writer.apply step).2 rest
    have first := apply_extends sound step
      (fun item found => plain item (List.mem_filterMap.mpr ⟨step, List.mem_cons_self, found⟩))
      ⟨Nat.lt_of_le_of_lt grows.1.length_le small.1,
        Nat.lt_of_le_of_lt grows.2.length_le small.2⟩
    have later := ih first.sound
      (fun item member => plain item (by
        obtain ⟨other, inside, found⟩ := List.mem_filterMap.mp member
        exact List.mem_filterMap.mpr ⟨other, List.mem_cons_of_mem _ inside, found⟩)) small
    have whole := first.trans later
    cases item : step.item? with
    | none =>
      rw [item] at whole
      rw [List.filterMap_cons_none item]
      exact whole
    | some found =>
      rw [item] at whole
      rw [List.filterMap_cons_some item]
      exact whole

theorem after_tells_seen {steps : List Step}
    (plain : ∀ item ∈ steps.filterMap Step.item?, item.PlainNode)
    (small : (empty.after steps).Small) :
    Tells (empty.after steps).strings (empty.after steps).block 0
      ((steps.filterMap Step.item?).map Item.seen) := by
  obtain ⟨_, _, bytes, block, lays⟩ := after_extends sound_empty plain small
  have same : (empty.after steps).block = bytes := block
  exact same ▸ lays.tells_whole

theorem after_tells {steps : List Step}
    (plain : ∀ item ∈ steps.filterMap Step.item?, item.Plain) (small : (empty.after steps).Small) :
    Tells (empty.after steps).strings (empty.after steps).block 0
      (steps.filterMap Step.item?) := by
  have told := after_tells_seen (fun item member => (plain item member).node) small
  rwa [List.map_congr_left fun item member => (plain item member).seen_eq, List.map_id'] at told

theorem after_append (writer : Writer) (first second : List Step) :
    writer.after (first ++ second) = (writer.after first).after second := by
  induction first generalizing writer with
  | nil => rfl
  | cons step rest ih => exact ih (writer.apply step).2

theorem run_append (writer : Writer) (first second : List Step) :
    writer.run (first ++ second) = writer.run first ++ (writer.after first).run second := by
  induction first generalizing writer with
  | nil => rfl
  | cons step rest ih => simp only [List.cons_append, run, after, ih, List.append_assoc]

theorem run_going (writer : Writer) {steps : List Step} (going : .finish ∉ steps) :
    writer.run steps = [] := by
  induction steps generalizing writer with
  | nil => rfl
  | cons step rest ih =>
    rw [List.mem_cons, not_or] at going
    have silent : (writer.apply step).1 = none := by
      cases step with
      | finish => exact absurd rfl going.1
      | _ => rfl
    simp only [run, silent, ih _ going.2, Option.toList_none, List.append_nil]

theorem run_finish (writer : Writer) {steps : List Step} (going : .finish ∉ steps) :
    writer.run (steps ++ [.finish]) = [(writer.after (steps ++ [.finish])).blob] := by
  rw [run_append, run_going writer going, after_append]
  rfl

theorem mem_run {writer : Writer} {steps : List Step} {blob : List UInt8}
    (member : blob ∈ writer.run steps) : ∃ before, blob = (writer.after before).blob := by
  induction steps generalizing writer with
  | nil => cases member
  | cons step rest ih =>
    rcases List.mem_append.mp member with now | later
    · cases step with
      | finish => exact ⟨[.finish], List.mem_singleton.mp now⟩
      | _ => cases now
    · obtain ⟨before, same⟩ := ih later
      exact ⟨step :: before, same⟩

end Writer

end EarlyBoot.DeviceTree
