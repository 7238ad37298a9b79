import EarlyBoot.Proofs.DeviceTree.PathLookup

set_option autoImplicit false

namespace EarlyBoot.DeviceTree

namespace Forest

variable {α β : Type} {change : α → β}

def map (change : α → β) : Forest α → Forest β
  | .empty => .empty
  | .tree label below beside => .tree (change label) (below.map change) (beside.map change)

theorem preorder_map (forest : Forest α) :
    (forest.map change).preorder = forest.preorder.map change := by
  induction forest with
  | empty => rfl
  | tree label below beside belowIh besideIh => simp [map, preorder, belowIh, besideIh]

theorem roots_map (forest : Forest α) : (forest.map change).roots = forest.roots.map change := by
  induction forest with
  | empty => rfl
  | tree label below beside _ besideIh => simp [map, roots, besideIh]

theorem Has.map {forest below : Forest α} {label : α} (has : forest.Has label below) :
    (forest.map change).Has (change label) (below.map change) := by
  induction has with
  | here => exact .here
  | inner _ ih => exact .inner ih
  | outer _ ih => exact .outer ih

end Forest

section Tokens

variable {block longer strings more : List UInt8} {offset next : Nat} {token : Token}
  {tokens : List Token} {walk : Walk}

theorem Stands.extend (stands : Stands block token offset next) (front : block <+: longer) :
    Stands longer token offset next := by
  induction stands with
  | @here offset legible spelled => exact .here legible (spelled.trans (front.drop offset))
  | @skip offset next noOp rest ih => exact .skip (noOp.trans (front.drop offset)) ih

theorem Spells.extend (spells : Spells block offset tokens) (front : block <+: longer) :
    Spells longer offset tokens := by
  induction tokens generalizing offset with
  | nil => trivial
  | cons token rest ih =>
    obtain ⟨next, stands, later⟩ := spells
    exact ⟨next, stands.extend front, ih later⟩

theorem Tells.extend {items : List Item} (tells : Tells strings block offset items)
    (blocks : block <+: longer) (texts : strings <+: more) : Tells more longer offset items := by
  obtain ⟨rest, rfl⟩ := texts
  induction items generalizing offset with
  | nil => trivial
  | cons item later ih =>
    obtain ⟨token, next, stands, means, told⟩ := tells
    exact ⟨token, next, stands.extend blocks, means.append rest, ih told⟩

theorem textAt?_extend {nameOffset : UInt32} {name : String}
    (named : textAt? strings nameOffset = some name) (front : strings <+: more) :
    textAt? more nameOffset = some name := by
  obtain ⟨rest, rfl⟩ := front
  exact terminatedText?_eq_some_iff.mpr ((terminatedText?_eq_some_iff.mp named).drop_append rest)

theorem Names.extend {nameOffset : UInt32} (named : Names strings nameOffset)
    (front : strings <+: more) : Names more nameOffset := by
  obtain ⟨rest, rfl⟩ := front
  obtain ⟨name, begins⟩ := named
  exact ⟨name, begins.drop_append rest⟩

theorem Walk.step?_extend {after : Walk} (step : walk.step? strings token = some after)
    (front : strings <+: more) : walk.step? more token = some after := by
  cases token with
  | property nameOffset value =>
    obtain ⟨inside, named, same⟩ := Walk.step?_property.mp step
    exact Walk.step?_property.mpr ⟨inside, named.extend front, same⟩
  | beginNode | endNode | finish => exact step

theorem Walk.Accepts.extend (accepts : Walk.Accepts strings walk tokens)
    (front : strings <+: more) : Walk.Accepts more walk tokens := by
  induction accepts with
  | finish complete => exact .finish complete
  | step step _ ih => exact .step (Walk.step?_extend step front) ih

theorem checkStructure_extend (valid : checkStructure strings block = .ok ())
    (blocks : block <+: longer) (texts : strings <+: more) :
    checkStructure more longer = .ok () := by
  obtain ⟨tokens, spells, derives⟩ := checkStructure_eq_ok_iff.mp valid
  refine checkStructure_eq_ok_iff.mpr ⟨tokens, spells.extend blocks, ?_⟩
  rw [← Walk.accepts_initial_iff] at derives ⊢
  exact derives.extend texts

end Tokens

def Node.onto (block : List UInt8) (node : Node) : Node :=
  { node with body := cursorAt block node.body.offset }

structure SameReading (tree other : DeviceTree) : Prop where
  nodes : other.nodes = tree.nodes.map (Node.onto other.block)
  properties : ∀ node ∈ tree.nodes,
    other.properties (node.onto other.block) = tree.properties node
  children : ∀ node ∈ tree.nodes,
    (node.onto other.block).children = node.children.map (Node.onto other.block)
  found : ∀ path, other.findNode? path = (tree.findNode? path).map (Node.onto other.block)

namespace SameReading

variable {core tree other : DeviceTree}

theorem of_core (first : SameReading core tree) (second : SameReading core other) :
    SameReading tree other where
  nodes := by
    rw [first.nodes, second.nodes, List.map_map]
    rfl
  properties := by
    rw [first.nodes]
    refine List.forall_mem_map.mpr fun node member => ?_
    exact (second.properties node member).trans (first.properties node member).symm
  children := by
    rw [first.nodes]
    refine List.forall_mem_map.mpr fun node member => ?_
    rw [first.children node member, List.map_map]
    exact second.children node member
  found := by
    intro path
    rw [first.found, second.found, Option.map_map]
    rfl

end SameReading

structure Continues (tree longer : DeviceTree) : Prop where
  block : tree.block <+: longer.block
  strings : tree.strings <+: longer.strings

theorem Nests.extend {block longer : List UInt8} {depth offset stop : Nat}
    {forest : Forest Node} (nests : Nests block depth offset forest stop)
    (front : block <+: longer) : Nests longer depth offset (forest.map (Node.onto longer)) stop := by
  induction nests with
  | empty => exact .empty
  | property stands _ ih => exact .property (stands.extend front) ih
  | tree opening _ closed _ insideIh restIh =>
    exact .tree (opening.extend front) insideIh (closed.extend front) restIh

theorem spells_of_mem_nodes {tree : DeviceTree} {node : Node} (member : node ∈ tree.nodes) :
    node.body = cursorAt tree.block node.body.offset ∧ node.body.offset % 4 = 0 ∧
      ∃ tokens walk, Spells tree.block node.body.offset tokens ∧
        Walk.Accepts tree.strings walk tokens := by
  obtain ⟨stop, stops⟩ := exists_stop tree.wellFormed
  obtain ⟨walk, ⟨place, aligned, checked, _⟩, _⟩ := (tracks_traversal stops).opened member
  rw [place] at checked
  obtain ⟨tokens, spells, accepts⟩ := (checkFrom_eq_ok_iff aligned).mp checked
  exact ⟨place, aligned, tokens, walk, spells, accepts⟩

namespace Continues

variable {tree longer : DeviceTree} {node : Node}

theorem propertiesFrom_eq (continues : Continues tree longer) {offset : Nat}
    {tokens : List Token} {walk : Walk} (start : offset % 4 = 0)
    (spells : Spells tree.block offset tokens) (accepts : Walk.Accepts tree.strings walk tokens) :
    longer.propertiesFrom (cursorAt longer.block offset) =
      tree.propertiesFrom (cursorAt tree.block offset) := by
  -- by the tokens that are left; both readers give up at the same one
  induction accepts generalizing offset with
  | finish complete =>
    obtain ⟨next, stands, _⟩ := spells
    have stillStands := stands.extend continues.block
    rw [propertiesFrom_other stands start (Token.tag_ne_property nofun),
      propertiesFrom_other stillStands start (Token.tag_ne_property nofun)]
  | @step walk after token rest step accepts ih =>
    obtain ⟨next, stands, later⟩ := spells
    have stillStands := stands.extend continues.block
    cases token with
    | property nameOffset value =>
      obtain ⟨name, named⟩ := names_iff.mp (Walk.step?_property.mp step).2.1
      rw [propertiesFrom_property stands start named, propertiesFrom_property stillStands start
        (textAt?_extend named continues.strings), ih stands.next_mod later]
    | beginNode | endNode | finish =>
      rw [propertiesFrom_other stands start (Token.tag_ne_property nofun),
        propertiesFrom_other stillStands start (Token.tag_ne_property nofun)]

theorem properties_eq (continues : Continues tree longer) (member : node ∈ tree.nodes) :
    longer.properties (node.onto longer.block) = tree.properties node := by
  obtain ⟨place, aligned, tokens, walk, spells, accepts⟩ := spells_of_mem_nodes member
  rw [properties, properties, place]
  exact continues.propertiesFrom_eq aligned spells accepts

theorem nodes_eq (continues : Continues tree longer) :
    longer.nodes = tree.nodes.map (Node.onto longer.block) := by
  obtain ⟨root, below, ⟨stop, next, nests, ended⟩, listed⟩ := exists_unfolds tree
  have longerNests := nests.extend continues.block
  have longerEnded := ended.extend continues.block
  calc longer.nodes = (traversalAt longer.block 0 0 0).nodes := rfl
    _ = ((Forest.single root below).map (Node.onto longer.block)).preorder ++
        (traversalAt longer.block stop 0 0).nodes := longerNests.nodes rfl (Nat.le_refl 0)
    _ = ((Forest.single root below).map (Node.onto longer.block)).preorder := by
      rw [Traversal.nodes_finish longerEnded (nests.stop_mod rfl), List.append_nil]
    _ = tree.nodes.map (Node.onto longer.block) := by rw [Forest.preorder_map, listed]

theorem children_eq (continues : Continues tree longer) (member : node ∈ tree.nodes) :
    (node.onto longer.block).children = node.children.map (Node.onto longer.block) := by
  obtain ⟨root, below, unfolds⟩ := exists_unfolds tree
  obtain ⟨under, has⟩ := unfolds.exists_has member
  obtain ⟨stop, next, nests, _⟩ := unfolds.nests
  rw [(nests.extend continues.block).children rfl has.map, nests.children rfl has,
    Forest.roots_map]

theorem child?_eq (continues : Continues tree longer) (member : node ∈ tree.nodes)
    (component : String) :
    (node.onto longer.block).child? component =
      (node.child? component).map (Node.onto longer.block) := by
  rw [Node.child?, Node.child?, continues.children_eq member, List.find?_map]
  rfl

theorem descend_eq (continues : Continues tree longer) (member : node ∈ tree.nodes)
    (names : List String) :
    names.foldlM Node.child? (node.onto longer.block) =
      (names.foldlM Node.child? node).map (Node.onto longer.block) := by
  induction names generalizing node with
  | nil => rfl
  | cons component rest ih =>
    rw [List.foldlM_cons, List.foldlM_cons, continues.child?_eq member]
    cases found : node.child? component with
    | none => rfl
    | some child =>
      rw [child?_eq_childAmong? member] at found
      exact ih (mem_of_childrenAmong (Node.childAmong?_eq_some found).1).1

theorem findNode?_eq (continues : Continues tree longer) (path : String) :
    longer.findNode? path = (tree.findNode? path).map (Node.onto longer.block) := by
  have roots : longer.root? = tree.root?.map (Node.onto longer.block) := by
    rw [root?_eq_head?, root?_eq_head?, continues.nodes_eq, List.head?_map]
  rw [findNode?, findNode?, roots]
  cases pathComponents? path with
  | none => rfl
  | some names =>
    cases first : tree.root? with
    | none => rfl
    | some root => exact continues.descend_eq (mem_of_root? first) names

theorem sameReading (continues : Continues tree longer) : SameReading tree longer where
  nodes := continues.nodes_eq
  properties := fun _ => continues.properties_eq
  children := fun _ => continues.children_eq
  found := continues.findNode?_eq

end Continues

end EarlyBoot.DeviceTree
