import EarlyBoot.DeviceTree.Node
import EarlyBoot.Proofs.DeviceTree.Written

set_option autoImplicit false

namespace EarlyBoot.DeviceTree

variable {strings block : List UInt8} {offset next depth floor : Nat} {token : Token}

theorem Stands.read (stands : Stands block token offset next) (start : offset % 4 = 0) :
    Token.read (cursorAt block offset) = .ok (token, cursorAt block next) :=
  (Token.read_eq_ok_iff start).mpr ⟨next, stands, rfl⟩

def traversalAt (block : List UInt8) (offset depth floor : Nat) : Traversal :=
  ⟨cursorAt block offset, depth, floor, false⟩

namespace Traversal

theorem next_of_stands (stands : Stands block token offset next) (start : offset % 4 = 0) :
    (traversalAt block offset depth floor).next =
      match token with
      | .beginNode name =>
        (some ⟨name, depth, cursorAt block next⟩, traversalAt block next (depth + 1) floor)
      | .endNode =>
        if depth = floor then (none, ⟨cursorAt block next, depth, floor, true⟩)
        else (traversalAt block next (depth - 1) floor).next
      | .property _ _ => (traversalAt block next depth floor).next
      | .finish => (none, ⟨cursorAt block next, depth, floor, true⟩) := by
  have read := stands.read start
  rw [Traversal.next, if_neg (by simp [traversalAt])]
  split
  next error failed => simp [traversalAt, read] at failed
  all_goals
    next same =>
      simp only [traversalAt, read, Except.ok.injEq, Prod.mk.injEq] at same
      obtain ⟨rfl, rfl⟩ := same
      rfl

theorem nodes_eq_nil {traversal : Traversal} (ended : traversal.next.1 = none) :
    traversal.nodes = [] := by
  rw [nodes]
  split
  next => rfl
  next node after found => simp [found] at ended

theorem nodes_eq_cons {traversal after : Traversal} {node : Node}
    (found : traversal.next = (some node, after)) : traversal.nodes = node :: after.nodes := by
  rw [nodes]
  split
  next other ended => simp [ended] at found
  next first later same =>
    rw [found, Prod.mk.injEq, Option.some.injEq] at same
    rw [same.1, same.2]

theorem nodes_congr {first second : Traversal} (same : first.next = second.next) :
    first.nodes = second.nodes := by
  cases found : second.next with
  | mk node after =>
    rw [found] at same
    cases node with
    | none => rw [nodes_eq_nil (by rw [same]), nodes_eq_nil (by rw [found])]
    | some node => rw [nodes_eq_cons same, nodes_eq_cons found]

variable {name : String}

theorem nodes_beginNode (stands : Stands block (.beginNode name) offset next)
    (start : offset % 4 = 0) :
    (traversalAt block offset depth floor).nodes =
      ⟨name, depth, cursorAt block next⟩ :: (traversalAt block next (depth + 1) floor).nodes :=
  nodes_eq_cons (next_of_stands stands start)

theorem nodes_property {nameOffset : UInt32} {value : List UInt8}
    (stands : Stands block (.property nameOffset value) offset next) (start : offset % 4 = 0) :
    (traversalAt block offset depth floor).nodes = (traversalAt block next depth floor).nodes :=
  nodes_congr (next_of_stands stands start)

theorem nodes_endNode (stands : Stands block .endNode offset next) (start : offset % 4 = 0)
    (above : floor ≤ depth) :
    (traversalAt block offset (depth + 1) floor).nodes =
      (traversalAt block next depth floor).nodes := by
  have going : depth + 1 ≠ floor := by omega
  exact nodes_congr ((next_of_stands stands start).trans (if_neg going))

theorem nodes_endNode_floor (stands : Stands block .endNode offset next) (start : offset % 4 = 0) :
    (traversalAt block offset floor floor).nodes = [] := by
  apply nodes_eq_nil
  rw [next_of_stands stands start]
  simp

theorem nodes_finish (stands : Stands block .finish offset next) (start : offset % 4 = 0) :
    (traversalAt block offset depth floor).nodes = [] := by
  apply nodes_eq_nil
  rw [next_of_stands stands start]

end Traversal

section Properties

variable {tree : DeviceTree}

theorem propertiesFrom_property {nameOffset : UInt32} {name : String} {value : List UInt8}
    (stands : Stands tree.block (.property nameOffset value) offset next) (start : offset % 4 = 0)
    (named : textAt? tree.strings nameOffset = some name) :
    tree.propertiesFrom (cursorAt tree.block offset) =
      ⟨name, value⟩ :: tree.propertiesFrom (cursorAt tree.block next) := by
  have found : tree.nextProperty (cursorAt tree.block offset) =
      (some ⟨name, value⟩, cursorAt tree.block next) := by
    simp only [nextProperty, stands.read start, named, Option.map_some]
  rw [propertiesFrom]
  split
  next ended => simp [found] at ended
  next property after same =>
    rw [found, Prod.mk.injEq, Option.some.injEq] at same
    rw [same.1, same.2]

theorem propertiesFrom_other (stands : Stands tree.block token offset next)
    (start : offset % 4 = 0) (other : token.tag ≠ Tag.property) :
    tree.propertiesFrom (cursorAt tree.block offset) = [] := by
  have ended : tree.nextProperty (cursorAt tree.block offset) =
      (none, cursorAt tree.block offset) := by
    cases token with
    | property => exact absurd rfl other
    | beginNode | endNode | finish => simp only [nextProperty, stands.read start]
  rw [propertiesFrom]
  split
  next => rfl
  next property after found => simp [ended] at found

theorem propertiesFrom_of_tells {properties : List Property} {item : Item} {rest : List Item}
    (tells : Tells tree.strings tree.block offset (properties.map .property ++ item :: rest))
    (start : offset % 4 = 0) (other : ∀ property, item ≠ .property property) :
    tree.propertiesFrom (cursorAt tree.block offset) = properties ∧
      ∃ behind, behind % 4 = 0 ∧ Tells tree.strings tree.block behind (item :: rest) ∧
        ∀ depth floor, (traversalAt tree.block offset depth floor).nodes =
          (traversalAt tree.block behind depth floor).nodes := by
  induction properties generalizing offset with
  | nil =>
    have ⟨token, next, stands, means, _⟩ := tells
    have noProperty : token.tag ≠ Tag.property := by
      apply Token.tag_ne_property
      rintro nameOffset value rfl
      cases means
      exact other _ rfl
    exact ⟨propertiesFrom_other stands start noProperty, offset, start, tells, fun _ _ => rfl⟩
  | cons property later ih =>
    obtain ⟨token, next, stands, means, tells⟩ := tells
    cases means with
    | property value named =>
      obtain ⟨read, behind, aligned, told, skipped⟩ := ih tells stands.next_mod
      rw [propertiesFrom_property stands start named, read]
      exact ⟨rfl, behind, aligned, told, fun depth floor =>
        (Traversal.nodes_property stands start).trans (skipped depth floor)⟩

end Properties

end EarlyBoot.DeviceTree
