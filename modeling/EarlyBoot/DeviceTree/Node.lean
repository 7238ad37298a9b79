import EarlyBoot.DeviceTree.Basic
import EarlyBoot.DeviceTree.Property
import EarlyBoot.Text.Quoted

set_option autoImplicit false

namespace EarlyBoot.DeviceTree

structure Node where
  name : String
  depth : Nat
  body : Cursor
  deriving DecidableEq, Repr

namespace Node

def unitName (node : Node) : String :=
  String.ofList (node.name.toList.takeWhile (· ≠ '@'))

def matchesComponent (node : Node) (component : String) : Bool :=
  if '@' ∈ component.toList then node.name = component else node.unitName = component

def describe (node : Node) : String :=
  "Node \x7b name: " ++ Quoted.render node.name ++ ", depth: " ++ toString node.depth ++
    ", body: " ++ toString node.body.offset ++ ", .. \x7d"

end Node

structure Traversal where
  cursor : Cursor
  depth : Nat
  floor : Nat
  finished : Bool
  deriving DecidableEq, Repr

namespace Traversal

def start (cursor : Cursor) (depth : Nat) : Traversal :=
  ⟨cursor, depth, depth, false⟩

def next (traversal : Traversal) : Option Node × Traversal :=
  if traversal.finished then (none, traversal)
  else
    match _ : Token.read traversal.cursor with
    | .error _ => (none, { traversal with finished := true })
    | .ok (.beginNode name, after) =>
      (some ⟨name, traversal.depth, after⟩,
        { traversal with cursor := after, depth := traversal.depth + 1 })
    | .ok (.endNode, after) =>
      if traversal.depth = traversal.floor then
        (none, { traversal with cursor := after, finished := true })
      else next { traversal with cursor := after, depth := traversal.depth - 1 }
    | .ok (.property .., after) => next { traversal with cursor := after }
    | .ok (.finish, after) => (none, { traversal with cursor := after, finished := true })
termination_by traversal.cursor.rest.length
decreasing_by all_goals exact Token.read_length_lt ‹_›

theorem next_length_lt {traversal after : Traversal} {node : Node}
    (result : traversal.next = (some node, after)) :
    after.cursor.rest.length < traversal.cursor.rest.length := by
  fun_induction next traversal with
  | case1 => simp at result
  | case2 => simp at result
  | case3 traversal _ name body read =>
    simp only [Prod.mk.injEq] at result
    obtain ⟨_, rfl⟩ := result
    exact Token.read_length_lt read
  | case4 => simp at result
  | case5 traversal _ body read _ ih => exact Nat.lt_trans (ih result) (Token.read_length_lt read)
  | case6 traversal _ _ _ body read ih =>
    exact Nat.lt_trans (ih result) (Token.read_length_lt read)
  | case7 => simp at result

def nodes (traversal : Traversal) : List Node :=
  match _ : traversal.next with
  | (none, _) => []
  | (some node, after) => node :: nodes after
termination_by traversal.cursor.rest.length
decreasing_by exact next_length_lt ‹_›

def nextAt (depth : Nat) (traversal : Traversal) : Option Node × Traversal :=
  match _ : traversal.next with
  | (none, after) => (none, after)
  | (some node, after) => if node.depth = depth then (some node, after) else nextAt depth after
termination_by traversal.cursor.rest.length
decreasing_by exact next_length_lt ‹_›

end Traversal

def Node.inside (node : Node) : Traversal :=
  .start node.body (node.depth + 1)

def Node.children (node : Node) : List Node :=
  node.inside.nodes.filter fun child => child.depth = node.depth + 1

def traversal (tree : DeviceTree) : Traversal :=
  .start (.start tree.block) 0

def nodes (tree : DeviceTree) : List Node :=
  tree.traversal.nodes

def root? (tree : DeviceTree) : Option Node :=
  tree.traversal.next.1

def nextProperty (tree : DeviceTree) (cursor : Cursor) : Option Property × Cursor :=
  match Token.read cursor with
  | .ok (.property nameOffset value, after) =>
    ((textAt? tree.strings nameOffset).map fun name => ⟨name, value⟩, after)
  | _ => (none, cursor)

theorem nextProperty_length_lt {tree : DeviceTree} {cursor after : Cursor} {property : Property}
    (result : tree.nextProperty cursor = (some property, after)) :
    after.rest.length < cursor.rest.length := by
  unfold nextProperty at result
  split at result
  · next read =>
    simp only [Prod.mk.injEq] at result
    obtain ⟨_, rfl⟩ := result
    exact Token.read_length_lt read
  · simp at result

def propertiesFrom (tree : DeviceTree) (cursor : Cursor) : List Property :=
  match _ : tree.nextProperty cursor with
  | (none, _) => []
  | (some property, after) => property :: tree.propertiesFrom after
termination_by cursor.rest.length
decreasing_by exact nextProperty_length_lt ‹_›

def properties (tree : DeviceTree) (node : Node) : List Property :=
  tree.propertiesFrom node.body

def property? (tree : DeviceTree) (node : Node) (name : String) : Option Property :=
  (tree.properties node).find? fun property => property.name = name

end EarlyBoot.DeviceTree
