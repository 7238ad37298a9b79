import EarlyBoot.Proofs.DeviceTree.Attribution
import EarlyBoot.Proofs.DeviceTree.RoundTrip

set_option autoImplicit false

namespace EarlyBoot.DeviceTree

namespace Forest

variable {α : Type} {label : α} {below forest : Forest α}

inductive Has : Forest α → α → Forest α → Prop where
  | here {label : α} {below beside : Forest α} : Has (.tree label below beside) label below
  | inner {label other : α} {below inside beside : Forest α} (has : Has inside label below) :
    Has (.tree other inside beside) label below
  | outer {label other : α} {below inside beside : Forest α} (has : Has beside label below) :
    Has (.tree other inside beside) label below

theorem exists_has (member : label ∈ forest.preorder) : ∃ below, forest.Has label below := by
  induction forest with
  | empty => cases member
  | tree other inside beside insideIh besideIh =>
    simp only [preorder, List.mem_cons, List.mem_append] at member
    rcases member with rfl | within | without
    · exact ⟨inside, .here⟩
    · obtain ⟨below, has⟩ := insideIh within
      exact ⟨below, .inner has⟩
    · obtain ⟨below, has⟩ := besideIh without
      exact ⟨below, .outer has⟩

theorem mem_preorder_of_mem_roots (member : label ∈ forest.roots) : label ∈ forest.preorder := by
  induction forest with
  | empty => cases member
  | tree other inside beside _ ih =>
    rcases List.mem_cons.mp member with rfl | later
    · exact List.mem_cons_self
    · exact List.mem_cons_of_mem _ (List.mem_append_right _ (ih later))

theorem Has.mem (has : forest.Has label below) : label ∈ forest.preorder := by
  induction has with
  | here => exact List.mem_cons_self
  | inner _ ih => exact List.mem_cons_of_mem _ (List.mem_append_left _ ih)
  | outer _ ih => exact List.mem_cons_of_mem _ (List.mem_append_right _ ih)

theorem Has.mem_of_below (has : forest.Has label below) {other : α}
    (member : other ∈ below.preorder) : other ∈ forest.preorder := by
  induction has with
  | here => exact List.mem_cons_of_mem _ (List.mem_append_left _ member)
  | inner _ ih => exact List.mem_cons_of_mem _ (List.mem_append_left _ (ih member))
  | outer _ ih => exact List.mem_cons_of_mem _ (List.mem_append_right _ (ih member))

theorem mem_roots_or_below (member : label ∈ forest.preorder) :
    label ∈ forest.roots ∨ ∃ parent below, forest.Has parent below ∧ label ∈ below.roots := by
  induction forest with
  | empty => cases member
  | tree other inside beside insideIh besideIh =>
    simp only [preorder, List.mem_cons, List.mem_append] at member
    rcases member with rfl | within | without
    · exact .inl List.mem_cons_self
    · right
      obtain root | ⟨parent, below, has, root⟩ := insideIh within
      · exact ⟨other, inside, .here, root⟩
      · exact ⟨parent, below, .inner has, root⟩
    · obtain root | ⟨parent, below, has, root⟩ := besideIh without
      · exact .inl (List.mem_cons_of_mem _ root)
      · exact .inr ⟨parent, below, .outer has, root⟩

end Forest

namespace Levels

variable {depth : Nat} {node first second : Node} {forest below under : Forest Node}

theorem of_has (levels : Levels depth forest) (has : forest.Has node below) :
    depth ≤ node.depth ∧ Levels (node.depth + 1) below := by
  induction levels with
  | empty => cases has
  | tree level inner outer innerIh outerIh =>
    cases has with
    | here => exact ⟨level.ge, level ▸ inner⟩
    | inner has =>
      obtain ⟨deeper, levels⟩ := innerIh has
      exact ⟨Nat.le_of_succ_le deeper, levels⟩
    | outer has => exact outerIh has

theorem depth_of_mem_roots (levels : Levels depth forest) (member : node ∈ forest.roots) :
    node.depth = depth := by
  rw [← levels.filter_preorder, List.mem_filter] at member
  exact of_decide_eq_true member.2

theorem depth_of_mem_below (levels : Levels depth forest) (has : forest.Has first below)
    (member : node ∈ below.roots) : node.depth = first.depth + 1 :=
  (levels.of_has has).2.depth_of_mem_roots member

theorem not_mem_roots (levels : Levels depth forest) (has : forest.Has first below)
    (member : node ∈ below.roots) : node ∉ forest.roots := by
  intro root
  have level := levels.depth_of_mem_roots root
  have under := levels.depth_of_mem_below has member
  have above := (levels.of_has has).1
  omega

theorem parent_unique (levels : Levels depth forest) (distinct : forest.preorder.Nodup)
    (has : forest.Has first below) (member : node ∈ below.roots)
    (other : forest.Has second under) (also : node ∈ under.roots) : first = second := by
  have inside := Forest.mem_preorder_of_mem_roots member
  have insideAlso := Forest.mem_preorder_of_mem_roots also
  induction levels with
  | empty => cases has
  | tree level inner outer innerIh outerIh =>
    simp only [Forest.preorder, List.nodup_cons, List.nodup_append] at distinct
    obtain ⟨_, distinctInner, distinctOuter, apart⟩ := distinct
    cases has with
    | here =>
      cases other with
      | here => rfl
      | inner other => exact absurd member (inner.not_mem_roots other also)
      | outer other => exact absurd rfl (apart _ inside _ (other.mem_of_below insideAlso))
    | inner has =>
      cases other with
      | here => exact absurd also (inner.not_mem_roots has member)
      | inner other => exact innerIh distinctInner has other
      | outer other =>
        exact absurd rfl (apart _ (has.mem_of_below inside) _ (other.mem_of_below insideAlso))
    | outer has =>
      cases other with
      | here => exact absurd rfl (apart _ insideAlso _ (has.mem_of_below inside))
      | inner other =>
        exact absurd rfl (apart _ (other.mem_of_below insideAlso) _ (has.mem_of_below inside))
      | outer other => exact outerIh distinctOuter has other

theorem head_append (levels : Levels depth forest) {rest : List Node}
    (shallow : ∀ next ∈ rest.head?, next.depth ≤ depth) :
    ∀ next ∈ (forest.preorder ++ rest).head?, next.depth ≤ depth := by
  cases levels with
  | empty => exact shallow
  | tree level inner outer => simp [Forest.preorder, level]

theorem head_le (levels : Levels depth forest) :
    ∀ next ∈ forest.preorder.head?, next.depth ≤ depth := by
  rw [← List.append_nil forest.preorder]
  exact levels.head_append nofun

theorem gradual (levels : Levels depth forest) {rest : List Node}
    (shallow : ∀ next ∈ rest.head?, next.depth ≤ depth)
    (later : rest.IsChain fun node next => next.depth ≤ node.depth + 1) :
    (forest.preorder ++ rest).IsChain fun node next => next.depth ≤ node.depth + 1 := by
  -- what comes behind a forest is not below its last node, whichever that is
  induction levels generalizing rest with
  | empty => exact later
  | @tree depth node below beside level inner outer innerIh outerIh =>
    have behind := outer.head_append shallow
    have deeper : ∀ next ∈ (beside.preorder ++ rest).head?, next.depth ≤ depth + 1 :=
      fun next head => Nat.le_succ_of_le (behind next head)
    rw [Forest.preorder, List.cons_append, List.append_assoc]
    refine (innerIh deeper (outerIh shallow later)).cons fun next head => ?_
    rw [level]
    exact inner.head_append deeper next head

theorem splits (levels : Levels depth forest) (has : forest.Has node below) :
    ∃ before after, forest.preorder = before ++ node :: (below.preorder ++ after) ∧
      ∀ next ∈ after.head?, next.depth ≤ node.depth := by
  induction levels with
  | empty => cases has
  | @tree depth other inside beside level inner outer innerIh outerIh =>
    cases has with
    | here =>
      refine ⟨[], beside.preorder, rfl, ?_⟩
      rw [level]
      exact outer.head_le
    | inner has =>
      obtain ⟨before, after, split, shallow⟩ := innerIh has
      refine ⟨other :: before, after ++ beside.preorder, by simp [Forest.preorder, split], ?_⟩
      have above := (inner.of_has has).1
      cases after with
      | nil =>
        exact fun next head => (outer.head_le next head).trans (Nat.le_of_succ_le above)
      | cons next after => simpa using shallow
    | outer has =>
      obtain ⟨before, after, split, shallow⟩ := outerIh has
      exact ⟨other :: (inside.preorder ++ before), after, by simp [Forest.preorder, split], shallow⟩

end Levels

def Node.segment (node : Node) (nodes : List Node) : List Node :=
  (nodes.dropWhile (· ≠ node)).tail.takeWhile (node.depth < ·.depth)

theorem Node.segment_of_split {node : Node} {before inside after : List Node}
    (fresh : node ∉ before) (deeper : ∀ other ∈ inside, node.depth < other.depth)
    (shallow : ∀ next ∈ after.head?, next.depth ≤ node.depth) :
    node.segment (before ++ node :: (inside ++ after)) = inside := by
  have skipped : ∀ other ∈ before, decide (other ≠ node) = true := fun other member =>
    decide_eq_true (ne_of_mem_of_not_mem member fresh)
  have taken : ∀ other ∈ inside, decide (node.depth < other.depth) = true := fun other member =>
    decide_eq_true (deeper other member)
  have stopped : after.takeWhile (fun other => node.depth < other.depth) = [] := by
    cases after with
    | nil => rfl
    | cons next rest =>
      have level := shallow next rfl
      exact List.takeWhile_cons_of_neg (by simpa using level)
  rw [segment, List.dropWhile_append_of_pos skipped, List.dropWhile_cons_of_neg (by simp),
    List.tail_cons, List.takeWhile_append_of_pos taken, stopped, List.append_nil]

theorem Levels.segment {depth : Nat} {node : Node} {forest below : Forest Node}
    (levels : Levels depth forest) (distinct : forest.preorder.Nodup)
    (has : forest.Has node below) : node.segment forest.preorder = below.preorder := by
  obtain ⟨before, after, split, shallow⟩ := levels.splits has
  have under := (levels.of_has has).2
  rw [split] at distinct ⊢
  have fresh : node ∉ before := fun member =>
    (List.nodup_append.mp distinct).2.2 node member node List.mem_cons_self rfl
  exact Node.segment_of_split fresh (fun other member => under.depth_le member) shallow

-- properties may stand anywhere among the nodes
inductive Nests (block : List UInt8) : Nat → Nat → Forest Node → Nat → Prop where
  | empty {depth offset : Nat} : Nests block depth offset .empty offset
  | property {depth offset next stop : Nat} {nameOffset : UInt32} {value : List UInt8}
    {forest : Forest Node} (stands : Stands block (.property nameOffset value) offset next)
    (rest : Nests block depth next forest stop) : Nests block depth offset forest stop
  | tree {depth offset body closing outside stop : Nat} {name : String}
    {below beside : Forest Node} (opening : Stands block (.beginNode name) offset body)
    (inside : Nests block (depth + 1) body below closing)
    (closed : Stands block .endNode closing outside)
    (rest : Nests block depth outside beside stop) :
    Nests block depth offset (.tree ⟨name, depth, cursorAt block body⟩ below beside) stop

def Symbol.Shows (block : List UInt8) (depth offset : Nat) (rest : List Token) : Symbol → Prop
  | .block => True
  | .node => ∃ name body below closing outside, Stands block (.beginNode name) offset body ∧
      Nests block (depth + 1) body below closing ∧ Stands block .endNode closing outside ∧
        Spells block outside rest
  | .contents => ∃ forest stop, Nests block depth offset forest stop ∧ Spells block stop rest

theorem Derives.shows {strings block : List UInt8} {symbol : Symbol} {tokens rest : List Token}
    {offset : Nat} (derives : Derives strings symbol tokens)
    (spells : Spells block offset (tokens ++ rest)) (depth : Nat) :
    symbol.Shows block depth offset rest := by
  induction derives generalizing depth offset rest with
  | block => trivial
  | node name contents ih =>
    rw [List.cons_append, List.cons_append, List.append_assoc] at spells
    obtain ⟨body, opening, spells⟩ := spells
    obtain ⟨below, closing, inside, outside, closed, spells⟩ := ih spells (depth + 1)
    exact ⟨name, body, below, closing, outside, opening, inside, closed, spells⟩
  | empty => exact ⟨.empty, offset, .empty, spells⟩
  | property value named contents ih =>
    obtain ⟨next, stands, spells⟩ := spells
    obtain ⟨forest, stop, rest, spells⟩ := ih spells depth
    exact ⟨forest, stop, .property stands rest, spells⟩
  | child node contents nodeIh contentsIh =>
    rw [List.append_assoc] at spells
    obtain ⟨name, body, below, closing, outside, opening, inside, closed, spells⟩ :=
      nodeIh spells depth
    obtain ⟨beside, stop, rest, spells⟩ := contentsIh spells depth
    exact ⟨_, stop, .tree opening inside closed rest, spells⟩

namespace Nests

variable {block : List UInt8} {depth offset stop : Nat} {forest below : Forest Node} {node : Node}

theorem levels (nests : Nests block depth offset forest stop) : Levels depth forest := by
  induction nests with
  | empty => exact .empty
  | property stands rest ih => exact ih
  | tree opening inside closed rest insideIh restIh => exact .tree rfl insideIh restIh

theorem stop_mod (nests : Nests block depth offset forest stop) (start : offset % 4 = 0) :
    stop % 4 = 0 := by
  induction nests with
  | empty => exact start
  | property stands rest ih => exact ih stands.next_mod
  | tree opening inside closed rest insideIh restIh => exact restIh closed.next_mod

theorem nodes (nests : Nests block depth offset forest stop) (start : offset % 4 = 0)
    {floor : Nat} (above : floor ≤ depth) :
    (traversalAt block offset depth floor).nodes =
      forest.preorder ++ (traversalAt block stop depth floor).nodes := by
  induction nests with
  | empty => rfl
  | property stands rest ih =>
    rw [Traversal.nodes_property stands start]
    exact ih stands.next_mod above
  | tree opening inside closed rest insideIh restIh =>
    rw [Traversal.nodes_beginNode opening start,
      insideIh opening.next_mod (Nat.le_succ_of_le above),
      Traversal.nodes_endNode closed (inside.stop_mod opening.next_mod) above,
      restIh closed.next_mod above, Forest.preorder, List.cons_append, List.append_assoc]

theorem inside_nodes (nests : Nests block depth offset forest stop) (start : offset % 4 = 0)
    (has : forest.Has node below) : node.inside.nodes = below.preorder := by
  induction nests with
  | empty => cases has
  | property stands rest ih => exact ih stands.next_mod has
  | @tree depth offset body closing outside stop name below beside opening inside closed rest
      insideIh restIh =>
    cases has with
    | here =>
      have whole := inside.nodes opening.next_mod (Nat.le_refl (depth + 1))
      have closing := inside.stop_mod opening.next_mod
      rwa [Traversal.nodes_endNode_floor closed closing, List.append_nil] at whole
    | inner has => exact insideIh opening.next_mod has
    | outer has => exact restIh closed.next_mod has

theorem children (nests : Nests block depth offset forest stop) (start : offset % 4 = 0)
    (has : forest.Has node below) : node.children = below.roots := by
  rw [Node.children, nests.inside_nodes start has]
  exact (nests.levels.of_has has).2.filter_preorder

end Nests

theorem nodes_nodup (tree : DeviceTree) : tree.nodes.Nodup := by
  obtain ⟨postings, recorded⟩ := exists_record tree.wellFormed
  have walked : recordFrom tree.strings (cursorAt tree.block 0) .initial [] = .ok postings :=
    recorded
  exact (records_of_recordFrom walked rfl rfl).accounts.distinct

theorem Traversal.head?_nodes (traversal : Traversal) :
    traversal.nodes.head? = traversal.next.1 := by
  cases given : traversal.next with
  | mk node after =>
    cases node with
    | none => rw [nodes_eq_nil (by rw [given]), List.head?_nil]
    | some node => rw [nodes_eq_cons given, List.head?_cons]

theorem root?_eq_head? (tree : DeviceTree) : tree.root? = tree.nodes.head? :=
  tree.traversal.head?_nodes.symm

def Node.childrenAmong (node : Node) (nodes : List Node) : List Node :=
  (node.segment nodes).filter fun child => child.depth = node.depth + 1

structure Unfolds (tree : DeviceTree) (root : Node) (below : Forest Node) : Prop where
  nests : ∃ stop next, Nests tree.block 0 0 (.single root below) stop ∧
    Stands tree.block .finish stop next
  listed : tree.nodes = (Forest.single root below).preorder

theorem exists_unfolds (tree : DeviceTree) : ∃ root below, Unfolds tree root below := by
  obtain ⟨tokens, spells, derives⟩ := checkStructure_eq_ok_iff.mp tree.wellFormed
  cases derives with
  | block node =>
    obtain ⟨name, body, below, closing, outside, opening, inside, closed, next, ended, _⟩ :=
      node.shows spells 0
    have nests : Nests tree.block 0 0 (.single ⟨name, 0, cursorAt tree.block body⟩ below) outside :=
      .tree opening inside closed .empty
    refine ⟨_, below, ⟨outside, next, nests, ended⟩, ?_⟩
    calc tree.nodes = (traversalAt tree.block 0 0 0).nodes := rfl
      _ = (Forest.single _ below).preorder ++ (traversalAt tree.block outside 0 0).nodes :=
        nests.nodes rfl (Nat.le_refl 0)
      _ = (Forest.single _ below).preorder := by
        rw [Traversal.nodes_finish ended closed.next_mod, List.append_nil]

namespace Unfolds

variable {tree : DeviceTree} {root node child : Node} {below under : Forest Node}

theorem levels (unfolds : Unfolds tree root below) : Levels 0 (.single root below) := by
  obtain ⟨_, _, nests, _⟩ := unfolds.nests
  exact nests.levels

theorem root?_eq (unfolds : Unfolds tree root below) : tree.root? = some root := by
  rw [root?_eq_head?, unfolds.listed]
  rfl

theorem exists_has (unfolds : Unfolds tree root below) (member : node ∈ tree.nodes) :
    ∃ under, (Forest.single root below).Has node under :=
  Forest.exists_has (unfolds.listed ▸ member)

theorem segment_eq (unfolds : Unfolds tree root below)
    (has : (Forest.single root below).Has node under) :
    node.segment tree.nodes = under.preorder := by
  have distinct := tree.nodes_nodup
  rw [unfolds.listed] at distinct ⊢
  exact unfolds.levels.segment distinct has

theorem children_eq_roots (unfolds : Unfolds tree root below)
    (has : (Forest.single root below).Has node under) : node.children = under.roots := by
  obtain ⟨_, _, nests, _⟩ := unfolds.nests
  exact nests.children rfl has

theorem parent_or_root (unfolds : Unfolds tree root below) (member : node ∈ tree.nodes) :
    node = root ∨ ∃ parent ∈ tree.nodes, node ∈ parent.children := by
  rw [unfolds.listed] at member ⊢
  obtain top | ⟨parent, under, has, child⟩ := Forest.mem_roots_or_below member
  · exact .inl (List.mem_singleton.mp top)
  · exact .inr ⟨parent, has.mem, unfolds.children_eq_roots has ▸ child⟩

theorem parent_unique (unfolds : Unfolds tree root below) {first second : Node}
    (member : first ∈ tree.nodes) (child : node ∈ first.children) (other : second ∈ tree.nodes)
    (also : node ∈ second.children) : first = second := by
  have distinct := tree.nodes_nodup
  rw [unfolds.listed] at distinct
  obtain ⟨underFirst, hasFirst⟩ := unfolds.exists_has member
  obtain ⟨underSecond, hasSecond⟩ := unfolds.exists_has other
  rw [unfolds.children_eq_roots hasFirst] at child
  rw [unfolds.children_eq_roots hasSecond] at also
  exact unfolds.levels.parent_unique distinct hasFirst child hasSecond also

end Unfolds

theorem children_eq_among {tree : DeviceTree} {node : Node} (member : node ∈ tree.nodes) :
    node.children = node.childrenAmong tree.nodes := by
  obtain ⟨root, below, unfolds⟩ := exists_unfolds tree
  obtain ⟨under, has⟩ := unfolds.exists_has member
  rw [unfolds.children_eq_roots has, Node.childrenAmong, unfolds.segment_eq has]
  exact (unfolds.levels.of_has has).2.filter_preorder.symm

theorem mem_of_childrenAmong {nodes : List Node} {node child : Node}
    (member : child ∈ node.childrenAmong nodes) :
    child ∈ nodes ∧ child.depth = node.depth + 1 := by
  obtain ⟨inside, level⟩ := List.mem_filter.mp member
  have behind := List.mem_of_mem_tail ((List.takeWhile_sublist _).mem inside)
  exact ⟨(List.dropWhile_sublist _).mem behind, of_decide_eq_true level⟩

structure Arranged (tree : DeviceTree) (root : Node) (below : Forest Node) : Prop
    extends Unfolds tree root below where
  distinct : tree.nodes.Nodup
  drains : Drains Traversal.next tree.traversal tree.nodes
  subtree : ∀ node ∈ tree.nodes, ∃ under,
    (Forest.single root below).Has node under ∧ node.segment tree.nodes = under.preorder
  children : ∀ node ∈ tree.nodes, node.children = node.childrenAmong tree.nodes
  children_drain : ∀ node ∈ tree.nodes,
    Drains (Traversal.nextAt (node.depth + 1)) node.inside node.children
  parent : ∀ node ∈ tree.nodes, node ≠ root →
    ∃! parent, parent ∈ tree.nodes ∧ node ∈ parent.children
  gradual : tree.nodes.IsChain fun node next => next.depth ≤ node.depth + 1

theorem nodes_arranged (tree : DeviceTree) :
    ∃ root below, tree.root? = some root ∧ Arranged tree root below := by
  obtain ⟨root, below, unfolds⟩ := exists_unfolds tree
  refine ⟨root, below, unfolds.root?_eq, ?_⟩
  exact {
    nests := unfolds.nests
    listed := unfolds.listed
    distinct := tree.nodes_nodup
    drains := tree.traversal.next_drains
    subtree := by
      intro node member
      obtain ⟨under, has⟩ := unfolds.exists_has member
      exact ⟨under, has, unfolds.segment_eq has⟩
    children := fun _ => children_eq_among
    children_drain := fun node _ => node.inside.nextAt_drains (node.depth + 1)
    parent := by
      intro node member other
      obtain ⟨parent, listed, child⟩ := (unfolds.parent_or_root member).resolve_left other
      refine ⟨parent, ⟨listed, child⟩, ?_⟩
      rintro second ⟨listedSecond, also⟩
      exact unfolds.parent_unique listedSecond also listed child
    gradual := by
      rw [unfolds.listed, ← List.append_nil (Forest.preorder _)]
      exact unfolds.levels.gradual nofun .nil }

end EarlyBoot.DeviceTree
