import EarlyBoot.Proofs.DeviceTree.Finishing
import EarlyBoot.Proofs.DeviceTree.Property

set_option autoImplicit false

namespace EarlyBoot.DeviceTree

namespace Writer

def Step.writesProperty : Step → Bool
  | .property .. | .cellProperty .. | .textProperty .. | .regionsProperty .. => true
  | .beginNode _ | .endNode | .nop | .finish => false

def spoken (steps : List Step) : List Step :=
  steps.filter (· ≠ .nop)

def leading (steps : List Step) : List Step :=
  steps.takeWhile Step.writesProperty

def bodies : List Step → List (String × List Step)
  | [] => []
  | .beginNode name :: rest => (name, leading rest) :: bodies rest
  | _ :: rest => bodies rest

theorem bodies_finish (steps : List Step) : bodies (steps ++ [.finish]) = bodies steps := by
  have same (rest : List Step) : leading (rest ++ [.finish]) = leading rest := by
    induction rest with
    | nil => rfl
    | cons step more ih =>
      rw [leading, List.cons_append, List.takeWhile_cons, leading, List.takeWhile_cons]
      split
      · exact congrArg _ ih
      · rfl
  induction steps with
  | nil => rfl
  | cons step rest ih =>
    cases step with
    | beginNode name => simp only [List.cons_append, bodies, same, ih]
    | _ => exact ih

end Writer

open Writer (Step)

def Property.Recalls (property : Property) : Step → Prop
  | .property name value => property.name = seen name ∧ property.value = value
  | .cellProperty name cell => property.name = seen name ∧ property.cell? = some cell
  | .textProperty name text => property.name = seen name ∧ property.text? = some text
  | .regionsProperty regions => property.name = "reg" ∧
      property.cells = regions.flatMap (fun (base, size) => halves base ++ halves size) ∧
      ∀ region, property.range? = some region ↔ regions = [region]
  | .beginNode _ | .endNode | .nop | .finish => False

section Regions

variable {regions : List (UInt64 × UInt64)}

def regionBytes (regions : List (UInt64 × UInt64)) : List UInt8 :=
  regions.flatMap fun (base, size) =>
    Bytes.bigEndian 8 base.toNat ++ Bytes.bigEndian 8 size.toNat

theorem length_regionBytes (regions : List (UInt64 × UInt64)) :
    (regionBytes regions).length = 16 * regions.length := by
  induction regions with
  | nil => rfl
  | cons region rest ih =>
    simp only [regionBytes, List.flatMap_cons, List.length_append, Bytes.length_bigEndian,
      List.length_cons] at ih ⊢
    omega

theorem cells_regionBytes (name : String) : (Property.mk name (regionBytes regions)).cells =
    regions.flatMap fun (base, size) => halves base ++ halves size := by
  have words : regionBytes regions =
      (regions.flatMap fun (base, size) => halves base ++ halves size).flatMap Writer.word := by
    simp only [regionBytes, List.flatMap_assoc, List.flatMap_append, flatMap_word_halves]
  rw [Property.cells, words, Property.cellsOf_flatMap_word]

theorem range?_regionBytes (name : String) {region : UInt64 × UInt64} :
    (Property.mk name (regionBytes regions)).range? = some region ↔ regions = [region] := by
  have single (other : UInt64 × UInt64) :
      (Property.mk name (regionBytes [other])).range? = some other :=
    Property.range?_eq_some_iff.mpr (List.append_nil _)
  constructor
  · intro found
    have long := (Property.coherent _).range.mp (Option.isSome_of_eq_some found)
    rw [length_regionBytes] at long
    obtain ⟨other, rfl⟩ := List.length_eq_one_iff.mp (by omega : regions.length = 1)
    rw [single, Option.some.injEq] at found
    rw [found]
  · rintro rfl
    exact single region

end Regions

theorem recalls_of_item {step : Step} {entry : Property}
    (written : step.item? = some (.property entry)) :
    Property.Recalls ⟨seen entry.name, entry.value⟩ step := by
  cases step with
  | beginNode | endNode | nop | finish => simp [Step.item?] at written
  | property name value =>
    obtain rfl := Item.property.inj (Option.some.inj written)
    exact ⟨rfl, rfl⟩
  | cellProperty name cell =>
    obtain rfl := Item.property.inj (Option.some.inj written)
    exact ⟨rfl, Property.cell?_eq_some_iff.mpr rfl⟩
  | textProperty name text =>
    obtain rfl := Item.property.inj (Option.some.inj written)
    exact ⟨rfl, Property.text?_eq_some_iff.mpr (.inl rfl)⟩
  | regionsProperty regions =>
    obtain rfl := Item.property.inj (Option.some.inj written)
    have plain : Plain "reg" := by decide +kernel
    exact ⟨seen_of_plain plain, cells_regionBytes _, fun _ => range?_regionBytes _⟩

def Carries (strings : List UInt8) (token : Token) (step : Step) : Prop :=
  ∃ item, step.item? = some item ∧ token.Means strings item.seen

section Carries

variable {strings : List UInt8} {token : Token} {step : Step} {rest : List Step}

theorem carries_of_means {steps : List Step} {tokens : List Token}
    (means : List.Forall₂ (Token.Means strings) tokens
      ((steps.filterMap Step.item?).map Item.seen)) :
    List.Forall₂ (Carries strings) tokens (Writer.spoken steps) := by
  induction steps generalizing tokens with
  | nil =>
    cases means
    exact .nil
  | cons step rest ih =>
    cases item : step.item? with
    | none =>
      obtain rfl : step = .nop := by
        cases step with
        | nop => rfl
        | _ => simp [Step.item?] at item
      exact ih means
    | some found =>
      have other : step ≠ .nop := by
        rintro rfl
        simp [Step.item?] at item
      rw [List.filterMap_cons_some item] at means
      rw [Writer.spoken, List.filter_cons_of_pos (by simpa using other)]
      cases means with
      | cons first later => exact .cons ⟨found, item, first⟩ (ih later)

theorem Carries.leading_property {nameOffset : UInt32} {value : List UInt8}
    (carries : Carries strings (.property nameOffset value) step) :
    Writer.leading (step :: rest) = step :: Writer.leading rest ∧
      ∃ name, textAt? strings nameOffset = some name ∧ Property.Recalls ⟨name, value⟩ step := by
  obtain ⟨item, written, means⟩ := carries
  cases item with
  | beginNode | endNode | finish => cases means
  | property entry =>
    have recalls := recalls_of_item written
    have writes : step.writesProperty = true := by
      cases step <;> simp_all [Step.item?, Step.writesProperty]
    cases means with
    | property value named =>
      exact ⟨List.takeWhile_cons_of_pos writes, _, named, recalls⟩

theorem Carries.leading_other (carries : Carries strings token step)
    (other : token.tag ≠ Tag.property) : Writer.leading (step :: rest) = [] := by
  obtain ⟨item, written, means⟩ := carries
  have silent : ¬step.writesProperty = true := by
    cases step with
    | beginNode | endNode | nop | finish => simp [Step.writesProperty]
    | property | cellProperty | textProperty | regionsProperty =>
      obtain rfl := Option.some.inj written
      cases means
      exact absurd rfl other
  exact List.takeWhile_cons_of_neg silent

theorem Carries.bodies_beginNode {name : String} (carries : Carries strings (.beginNode name) step) :
    Writer.bodies (step :: rest) = (name, Writer.leading rest) :: Writer.bodies rest := by
  obtain ⟨item, written, means⟩ := carries
  cases step with
  | beginNode other =>
    obtain rfl := Option.some.inj written
    cases means
    rfl
  | nop => cases written
  | endNode | property | cellProperty | textProperty | regionsProperty | finish =>
    obtain rfl := Option.some.inj written
    cases means

theorem Carries.bodies_other (carries : Carries strings token step)
    (other : ∀ name, token ≠ .beginNode name) :
    Writer.bodies (step :: rest) = Writer.bodies rest := by
  obtain ⟨item, written, means⟩ := carries
  cases step with
  | beginNode name =>
    obtain rfl := Option.some.inj written
    cases means
    exact absurd rfl (other name)
  | _ => rfl

end Carries

def Node.Recalls (tree : DeviceTree) (node : Node) (body : String × List Step) : Prop :=
  node.name = body.1 ∧ List.Forall₂ Property.Recalls (tree.properties node) body.2

section Reading

variable {tree : DeviceTree} {walk : Walk} {tokens : List Token} {steps : List Step} {offset : Nat}

theorem propertiesFrom_recalls (accepts : Walk.Accepts tree.strings walk tokens)
    (spells : Spells tree.block offset tokens) (start : offset % 4 = 0)
    (carries : List.Forall₂ (Carries tree.strings) tokens steps) :
    List.Forall₂ Property.Recalls (tree.propertiesFrom (cursorAt tree.block offset))
      (Writer.leading steps) := by
  -- by the tokens that are left, up to the first one that is no property
  induction accepts generalizing offset steps with
  | finish complete =>
    obtain ⟨next, stands, _⟩ := spells
    cases carries with
    | cons first later =>
      rw [propertiesFrom_other stands start (Token.tag_ne_property nofun),
        first.leading_other (Token.tag_ne_property nofun)]
      exact .nil
  | @step walk after token rest step accepts ih =>
    obtain ⟨next, stands, later⟩ := spells
    cases carries with
    | cons first others =>
      cases token with
      | property nameOffset value =>
        obtain ⟨leads, name, named, recalls⟩ := first.leading_property
        rw [propertiesFrom_property stands start named, leads]
        exact .cons recalls (ih later stands.next_mod others)
      | beginNode | endNode | finish =>
        rw [propertiesFrom_other stands start (Token.tag_ne_property nofun),
          first.leading_other (Token.tag_ne_property nofun)]
        exact .nil

theorem nodes_recall (accepts : Walk.Accepts tree.strings walk tokens)
    (spells : Spells tree.block offset tokens) (start : offset % 4 = 0)
    (carries : List.Forall₂ (Carries tree.strings) tokens steps) :
    List.Forall₂ (Node.Recalls tree) (traversalAt tree.block offset walk.depth 0).nodes
      (Writer.bodies steps) := by
  induction accepts generalizing offset steps with
  | finish complete =>
    obtain ⟨next, stands, _⟩ := spells
    cases carries with
    | cons first later =>
      cases later
      rw [Traversal.nodes_finish stands start, first.bodies_other (by simp)]
      exact .nil
  | @step walk after token rest step accepts ih =>
    obtain ⟨next, stands, later⟩ := spells
    cases carries with
    | cons first others =>
      have read := ih later stands.next_mod others
      cases token with
      | beginNode name =>
        have depth : after.depth = walk.depth + 1 := Walk.depth_of_step? step
        rw [depth] at read
        rw [Traversal.nodes_beginNode stands start, first.bodies_beginNode]
        exact .cons ⟨rfl, propertiesFrom_recalls accepts later stands.next_mod others⟩ read
      | endNode =>
        have inside : walk.depth ≠ 0 := by
          intro bottom
          simp [Walk.step?, bottom] at step
        have left : after.depth = walk.depth - 1 := Walk.depth_of_step? step
        have depth : walk.depth = after.depth + 1 := by omega
        rw [depth, Traversal.nodes_endNode stands start (Nat.zero_le _), first.bodies_other (by simp)]
        exact read
      | property nameOffset value =>
        obtain ⟨_, _, rfl⟩ := Walk.step?_property.mp step
        rw [Traversal.nodes_property stands start, first.bodies_other (by simp)]
        exact read
      | finish => exact absurd rfl (Walk.ne_finish step)

end Reading

theorem Balanced.seen {items : List Item} (balanced : Balanced items) :
    Balanced (items.map Item.seen) := by
  induction balanced with
  | empty => exact .empty
  | property entry later ih => exact .property _ ih
  | node name inner outer innerIh outerIh =>
    rw [List.map_cons, List.map_append]
    exact .node name innerIh outerIh

theorem OneRoot.seen {items : List Item} (root : OneRoot items) :
    OneRoot (items.map Item.seen) := by
  obtain ⟨name, below, balanced, rfl⟩ := root
  exact ⟨name, below.map Item.seen, balanced.seen, by simp [Item.seen]⟩

namespace Writer

variable {steps : List Step} {blob : List UInt8}

theorem run_recalls (plain : ∀ item ∈ (opening steps).filterMap Step.item?, item.PlainNode)
    (root : OneRoot ((opening steps).filterMap Step.item?)) (finished : blob ∈ empty.run steps)
    (small : blob.length < UInt32.size) :
    ∃ tree, ofBytes blob = .ok tree ∧
      List.Forall₂ (Node.Recalls tree) tree.nodes (bodies (spoken (opening steps))) := by
  obtain ⟨later, rfl⟩ := exists_after_settled finished
  obtain ⟨blocks, texts⟩ := after_grows (settled steps) later
  have going : .finish ∉ ((opening steps).filterMap Step.item?).map Item.seen := by
    rw [List.mem_map]
    rintro ⟨item, member, same⟩
    cases item with
    | finish => exact finish_not_mem_items steps member
    | _ => cases same
  have told := settled_tells plain (small_of_blob_lt (settled_blob_lt small))
  have valid := (checkStructure_iff_oneRoot told going).mpr root.seen
  obtain ⟨tree, read, block, strings⟩ :=
    ofBytes_blob small (checkStructure_extend valid blocks texts)
  have tells := told.extend (block.symm ▸ blocks) (strings.symm ▸ texts)
  obtain ⟨tokens, spells, derives⟩ := checkStructure_eq_ok_iff.mp tree.wellFormed
  have accepts := Walk.accepts_initial_iff.mpr derives
  have means := accepts.means spells rfl tells going
  have items : ((opening steps).filterMap Step.item?).map Item.seen ++ [.finish] =
      ((opening steps ++ [Step.finish]).filterMap Step.item?).map Item.seen := by
    simp [Step.item?, Item.seen]
  rw [items] at means
  have recalls := nodes_recall accepts spells rfl (carries_of_means means)
  have ended : spoken (opening steps ++ [.finish]) = spoken (opening steps) ++ [.finish] := by
    simp [spoken]
  rw [ended, bodies_finish] at recalls
  exact ⟨tree, read, recalls⟩

theorem typed_readings :
    (∀ steps : List Step, (∀ item ∈ (opening steps).filterMap Step.item?, item.PlainNode) →
      OneRoot ((opening steps).filterMap Step.item?) →
      ∀ blob ∈ empty.run steps, blob.length < UInt32.size → ∃ tree, ofBytes blob = .ok tree ∧
        List.Forall₂ (Node.Recalls tree) tree.nodes (bodies (spoken (opening steps)))) ∧
    ∀ property : Property, property.Coherent :=
  ⟨fun _ plain root _ => run_recalls plain root, Property.coherent⟩

-- a name and a text that hold zero bytes, one region, and a second blob
def typedSteps : List Step :=
  [.beginNode "", .cellProperty "cells\x00high" 7, .nop, .textProperty "model" "board\x00\x00",
    .regionsProperty [(0x80000000, 0x1000)], .endNode, .finish, .cellProperty "late" 1, .finish]

theorem typedSteps_readings :
    (empty.run typedSteps).length = 2 ∧ ∀ blob ∈ empty.run typedSteps,
      ∃ tree node cell text regions, ofBytes blob = .ok tree ∧ tree.nodes = [node] ∧
        tree.properties node = [cell, text, regions] ∧
        (cell.name = "cells" ∧ cell.cell? = some 7) ∧ text.text? = some "board\x00\x00" ∧
        regions.cells = [0, 0x80000000, 0, 0x1000] ∧
        regions.range? = some (0x80000000, 0x1000) ∧ regions.Coherent := by
  have plain : ∀ item ∈ (opening typedSteps).filterMap Step.item?, item.PlainNode := by
    decide +kernel
  have root : OneRoot ((opening typedSteps).filterMap Step.item?) :=
    ⟨"", _, .property _ (.property _ (.property _ .empty)), rfl⟩
  have small : ∀ blob ∈ empty.run typedSteps, blob.length < UInt32.size := by decide +kernel
  have written : bodies (spoken (opening typedSteps)) = [("", [.cellProperty "cells\x00high" 7,
      .textProperty "model" "board\x00\x00", .regionsProperty [(0x80000000, 0x1000)]])] := rfl
  refine ⟨by decide +kernel, fun blob finished => ?_⟩
  obtain ⟨tree, read, recalls⟩ :=
    typed_readings.1 typedSteps plain root blob finished (small blob finished)
  rw [written] at recalls
  obtain ⟨node, rest, ⟨_, body⟩, noNodes, nodes⟩ := List.forall₂_cons_right_iff.mp recalls
  obtain ⟨cell, others, ⟨name, number⟩, texts, listed⟩ := List.forall₂_cons_right_iff.mp body
  obtain ⟨text, last, ⟨_, content⟩, pairs, rfl⟩ := List.forall₂_cons_right_iff.mp texts
  obtain ⟨regions, ending, ⟨_, cells, range⟩, noMore, rfl⟩ := List.forall₂_cons_right_iff.mp pairs
  obtain rfl := List.forall₂_nil_right_iff.mp noNodes
  obtain rfl := List.forall₂_nil_right_iff.mp noMore
  have shortened : seen "cells\x00high" = "cells" := by decide +kernel
  exact ⟨tree, node, cell, text, regions, read, nodes, listed, ⟨name.trans shortened, number⟩,
    content, cells, (range _).mpr rfl, typed_readings.2 regions⟩

end Writer

end EarlyBoot.DeviceTree
