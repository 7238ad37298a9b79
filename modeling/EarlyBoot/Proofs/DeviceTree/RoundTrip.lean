import EarlyBoot.Proofs.DeviceTree.Balance
import EarlyBoot.Proofs.DeviceTree.Blob

set_option autoImplicit false

namespace EarlyBoot.DeviceTree

-- the first tree has a label and trees below it, the others stand beside it
inductive Forest (α : Type) where
  | empty
  | tree (label : α) (below beside : Forest α)

namespace Forest

variable {α : Type}

abbrev single (root : α) (below : Forest α) : Forest α :=
  .tree root below .empty

def roots : Forest α → List α
  | .empty => []
  | .tree label _ beside => label :: beside.roots

def preorder : Forest α → List α
  | .empty => []
  | .tree label below beside => label :: (below.preorder ++ beside.preorder)

end Forest

structure Entry where
  name : String
  properties : List Property
  deriving DecidableEq, Repr

def Entry.Plain (entry : Entry) : Prop :=
  DeviceTree.Plain entry.name ∧ ∀ property ∈ entry.properties, DeviceTree.Plain property.name

instance (entry : Entry) : Decidable entry.Plain :=
  inferInstanceAs (Decidable (DeviceTree.Plain entry.name ∧
    ∀ property ∈ entry.properties, DeviceTree.Plain property.name))

def Forest.items : Forest Entry → List Item
  | .empty => []
  | .tree entry below beside =>
    .beginNode entry.name :: (entry.properties.map .property ++
      (below.items ++ .endNode :: beside.items))

inductive Mirrors (tree : DeviceTree) : Nat → Forest Entry → Forest Node → Prop where
  | empty {depth : Nat} : Mirrors tree depth .empty .empty
  | tree {depth : Nat} {entry : Entry} {node : Node} {below beside : Forest Entry}
    {foundBelow foundBeside : Forest Node} (name : node.name = entry.name)
    (level : node.depth = depth) (properties : tree.properties node = entry.properties)
    (children : node.children = foundBelow.roots)
    (inner : Mirrors tree (depth + 1) below foundBelow)
    (outer : Mirrors tree depth beside foundBeside) :
    Mirrors tree depth (.tree entry below beside) (.tree node foundBelow foundBeside)

inductive Levels : Nat → Forest Node → Prop where
  | empty {depth : Nat} : Levels depth .empty
  | tree {depth : Nat} {node : Node} {below beside : Forest Node} (level : node.depth = depth)
    (inner : Levels (depth + 1) below) (outer : Levels depth beside) :
    Levels depth (.tree node below beside)

namespace Forest

variable {forest : Forest Entry}

theorem finish_not_mem_items : .finish ∉ forest.items := by
  induction forest with
  | empty => exact List.not_mem_nil
  | tree entry below beside belowIh besideIh => simp [items, belowIh, besideIh]

theorem balanced (forest : Forest Entry) : Balanced forest.items := by
  induction forest with
  | empty => exact .empty
  | tree entry below beside belowIh besideIh =>
    have whole := Balanced.node entry.name (belowIh.properties entry.properties) besideIh
    rwa [List.append_assoc] at whole

theorem oneRoot (root : Entry) (below : Forest Entry) : OneRoot (single root below).items :=
  ⟨root.name, root.properties.map .property ++ below.items,
    below.balanced.properties root.properties, by simp [items]⟩

end Forest

theorem checkStructure_of_tells {strings block : List UInt8} {root : Entry} {below : Forest Entry}
    (tells : Tells strings block 0 ((Forest.single root below).items ++ [.finish])) :
    checkStructure strings block = .ok () :=
  (checkStructure_iff_oneRoot tells Forest.finish_not_mem_items).mpr (Forest.oneRoot root below)

section Nodes

variable {tree : DeviceTree} {depth : Nat} {forest : Forest Entry} {found : Forest Node}

theorem Mirrors.levels (mirrors : Mirrors tree depth forest found) : Levels depth found := by
  induction mirrors with
  | empty => exact .empty
  | tree name level properties children inner outer innerIh outerIh =>
    exact .tree level innerIh outerIh

theorem Levels.depth_le (levels : Levels depth found) {node : Node}
    (member : node ∈ found.preorder) : depth ≤ node.depth := by
  induction levels with
  | empty => simp [Forest.preorder] at member
  | tree level inner outer innerIh outerIh =>
    simp only [Forest.preorder, List.mem_cons, List.mem_append] at member
    rcases member with rfl | inside | outside
    · exact Nat.le_of_eq level.symm
    · exact Nat.le_of_succ_le (innerIh inside)
    · exact outerIh outside

theorem Levels.filter_preorder (levels : Levels depth found) :
    found.preorder.filter (fun node => node.depth = depth) = found.roots := by
  induction levels with
  | empty => rfl
  | @tree depth node below beside level inner outer innerIh outerIh =>
    have deeper : below.preorder.filter (fun node => node.depth = depth) = [] := by
      rw [List.filter_eq_nil_iff]
      intro other member
      have under := inner.depth_le member
      rw [decide_eq_true_eq]
      omega
    simp [Forest.preorder, Forest.roots, level, deeper, outerIh]

theorem Forest.items_append_endNode (forest : Forest Entry) (later : List Item) :
    ∃ item rest, forest.items ++ .endNode :: later = item :: rest ∧
      ∀ property, item ≠ .property property := by
  cases forest with
  | empty => exact ⟨.endNode, later, rfl, nofun⟩
  | tree entry below beside => exact ⟨.beginNode entry.name, _, rfl, nofun⟩

theorem mirrors_of_tells (depth : Nat) {forest : Forest Entry} {offset : Nat} {later : List Item}
    (tells : Tells tree.strings tree.block offset (forest.items ++ later))
    (start : offset % 4 = 0) :
    ∃ found behind, Mirrors tree depth forest found ∧ behind % 4 = 0 ∧
      Tells tree.strings tree.block behind later ∧
      ∀ floor ≤ depth, (traversalAt tree.block offset depth floor).nodes =
        found.preorder ++ (traversalAt tree.block behind depth floor).nodes := by
  -- the offset runs over the block, and one forest ends where the next one starts
  induction forest generalizing offset depth later with
  | empty => exact ⟨.empty, offset, .empty, start, tells, fun _ _ => rfl⟩
  | tree entry below beside belowIh besideIh =>
    simp only [Forest.items, List.cons_append, List.append_assoc] at tells
    obtain ⟨token, body, opening, means, tells⟩ := tells
    cases means
    obtain ⟨item, rest, shape, other⟩ := below.items_append_endNode (beside.items ++ later)
    rw [shape] at tells
    obtain ⟨properties, inner, innerStart, tells, skipped⟩ :=
      propertiesFrom_of_tells tells opening.next_mod other
    rw [← shape] at tells
    obtain ⟨foundBelow, closing, innerMirrors, closingStart, tells, innerNodes⟩ :=
      belowIh (depth + 1) tells innerStart
    obtain ⟨token, outer, closed, means, tells⟩ := tells
    cases means
    obtain ⟨foundBeside, behind, outerMirrors, behindStart, tells, outerNodes⟩ :=
      besideIh depth tells closed.next_mod
    let node : Node := ⟨entry.name, depth, cursorAt tree.block body⟩
    have children : node.children = foundBelow.roots := by
      have inside : node.inside.nodes = foundBelow.preorder := by
        calc node.inside.nodes
            = (traversalAt tree.block body (depth + 1) (depth + 1)).nodes := rfl
          _ = (traversalAt tree.block inner (depth + 1) (depth + 1)).nodes := skipped _ _
          _ = foundBelow.preorder ++
              (traversalAt tree.block closing (depth + 1) (depth + 1)).nodes :=
            innerNodes _ (Nat.le_refl _)
          _ = foundBelow.preorder := by
            rw [Traversal.nodes_endNode_floor closed closingStart, List.append_nil]
      rw [Node.children, inside]
      exact innerMirrors.levels.filter_preorder
    refine ⟨.tree node foundBelow foundBeside, behind,
      .tree rfl rfl properties children innerMirrors outerMirrors, behindStart, tells, ?_⟩
    intro floor above
    calc (traversalAt tree.block offset depth floor).nodes
        = node :: (traversalAt tree.block body (depth + 1) floor).nodes :=
          Traversal.nodes_beginNode opening start
      _ = node :: (traversalAt tree.block inner (depth + 1) floor).nodes := by rw [skipped]
      _ = node :: (foundBelow.preorder ++
            (traversalAt tree.block closing (depth + 1) floor).nodes) := by
          rw [innerNodes floor (Nat.le_succ_of_le above)]
      _ = node :: (foundBelow.preorder ++ (traversalAt tree.block outer depth floor).nodes) := by
          rw [Traversal.nodes_endNode closed closingStart above]
      _ = node :: (foundBelow.preorder ++ (foundBeside.preorder ++
            (traversalAt tree.block behind depth floor).nodes)) := by rw [outerNodes floor above]
      _ = (Forest.tree node foundBelow foundBeside).preorder ++
            (traversalAt tree.block behind depth floor).nodes := by simp [Forest.preorder]

theorem nodes_of_tells {root : Entry} {below : Forest Entry}
    (tells : Tells tree.strings tree.block 0 ((Forest.single root below).items ++ [.finish])) :
    ∃ found, tree.nodes = found.preorder ∧ Mirrors tree 0 (.single root below) found := by
  obtain ⟨found, behind, mirrors, aligned, ⟨token, next, ended, means, _⟩, nodes⟩ :=
    mirrors_of_tells 0 tells rfl
  cases means
  refine ⟨found, ?_, mirrors⟩
  calc tree.nodes = (traversalAt tree.block 0 0 0).nodes := rfl
    _ = found.preorder ++ (traversalAt tree.block behind 0 0).nodes := nodes 0 (Nat.le_refl 0)
    _ = found.preorder := by rw [Traversal.nodes_finish ended aligned, List.append_nil]

end Nodes

namespace Forest

variable {forest : Forest Entry}

theorem plain_of_mem_items (plain : ∀ entry ∈ forest.preorder, entry.Plain) {item : Item}
    (member : item ∈ forest.items) : item.Plain := by
  induction forest with
  | empty => cases member
  | tree entry below beside belowIh besideIh =>
    simp only [preorder, List.forall_mem_cons, List.forall_mem_append] at plain
    obtain ⟨⟨name, properties⟩, belowPlain, besidePlain⟩ := plain
    simp only [items, List.mem_cons, List.mem_append, List.mem_map] at member
    rcases member with rfl | ⟨property, inside, rfl⟩ | inside | rfl | inside
    · exact name
    · exact properties property inside
    · exact belowIh belowPlain inside
    · trivial
    · exact besideIh besidePlain inside

end Forest

theorem run_mirrors {root : Entry} {below : Forest Entry} {steps : List Writer.Step}
    (plain : ∀ entry ∈ (Forest.single root below).preorder, entry.Plain)
    (written : steps.filterMap Writer.Step.item? = (Forest.single root below).items) :
    ∃ blob, Writer.empty.run (steps ++ [.finish]) = [blob] ∧
      (blob.length < UInt32.size → ∃ tree found, ofBytes blob = .ok tree ∧
        tree.nodes = found.preorder ∧ Mirrors tree 0 (.single root below) found) := by
  have going : .finish ∉ steps := by
    intro member
    have item : Item.finish ∈ steps.filterMap Writer.Step.item? :=
      List.mem_filterMap.mpr ⟨.finish, member, rfl⟩
    exact Forest.finish_not_mem_items (written ▸ item)
  refine ⟨_, Writer.empty.run_finish going, fun small => ?_⟩
  set writer := Writer.empty.after (steps ++ [Writer.Step.finish])
  have items : (steps ++ [Writer.Step.finish]).filterMap Writer.Step.item? =
      (Forest.single root below).items ++ [.finish] := by
    rw [List.filterMap_append, written]
    rfl
  have fits : writer.Small := by
    rw [Writer.length_blob] at small
    exact ⟨by omega, by omega⟩
  have itemsPlain : ∀ item ∈ (steps ++ [Writer.Step.finish]).filterMap Writer.Step.item?, item.Plain := by
    rw [items]
    intro item member
    rcases List.mem_append.mp member with inside | last
    · exact Forest.plain_of_mem_items plain inside
    · rw [List.mem_singleton.mp last]
      trivial
  have tells := Writer.after_tells itemsPlain fits
  rw [items] at tells
  obtain ⟨tree, read, block, strings⟩ := Writer.ofBytes_blob small (checkStructure_of_tells tells)
  rw [← block, ← strings] at tells
  obtain ⟨found, nodes, mirrors⟩ := nodes_of_tells tells
  exact ⟨tree, found, read, nodes, mirrors⟩

def board : Entry := ⟨"", [⟨"model", [1]⟩]⟩

def boardNodes : Forest Entry :=
  .tree ⟨"cpus", [⟨"reg", [0, 0, 0]⟩, ⟨"status", []⟩]⟩ (.single ⟨"cpu@0", [⟨"reg", [7]⟩]⟩ .empty)
    (.single ⟨"memory@0", [⟨"reg", [1, 2, 3, 4, 5]⟩]⟩ .empty)

def boardSteps : List Writer.Step :=
  [.nop, .beginNode "", .nop, .property "model" [1], .beginNode "cpus", .property "reg" [0, 0, 0],
    .nop, .nop, .property "status" [], .nop, .beginNode "cpu@0", .property "reg" [7], .endNode,
    .endNode, .beginNode "memory@0", .property "reg" [1, 2, 3, 4, 5], .nop, .endNode, .nop,
    .endNode, .nop]

theorem board_mirrors :
    (∀ entry ∈ (Forest.single board boardNodes).preorder, entry.Plain) ∧
      boardSteps.filterMap Writer.Step.item? = (Forest.single board boardNodes).items ∧
      ∃ blob tree found, Writer.empty.run (boardSteps ++ [.finish]) = [blob] ∧
        ofBytes blob = .ok tree ∧ tree.nodes = found.preorder ∧
        Mirrors tree 0 (.single board boardNodes) found := by
  have plain : ∀ entry ∈ (Forest.single board boardNodes).preorder, entry.Plain := by
    decide +kernel
  have written : boardSteps.filterMap Writer.Step.item? =
      (Forest.single board boardNodes).items := by
    decide +kernel
  have small : ∀ blob ∈ Writer.empty.run (boardSteps ++ [.finish]), blob.length < UInt32.size := by
    decide +kernel
  obtain ⟨blob, finished, read⟩ := run_mirrors plain written
  obtain ⟨tree, found, accepted, nodes, mirrors⟩ :=
    read (small blob (finished ▸ List.mem_singleton_self blob))
  exact ⟨plain, written, blob, tree, found, finished, accepted, nodes, mirrors⟩

end EarlyBoot.DeviceTree
