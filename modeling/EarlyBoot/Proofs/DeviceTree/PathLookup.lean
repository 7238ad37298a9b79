import EarlyBoot.Proofs.DeviceTree.Nesting

set_option autoImplicit false

namespace EarlyBoot.DeviceTree

def Absolute (path : String) : Prop :=
  path.toList.head? = some '/'

def components (path : String) : List String :=
  ((path.toList.splitOn '/').filter (· ≠ [])).map String.ofList

section Components

variable {path component : String}

@[simp]
theorem components_empty : components "" = [] := rfl

theorem components_slash (before after : String) :
    components (before ++ "/" ++ after) = components before ++ components after := by
  have slash : (before ++ "/" ++ after).toList = before.toList ++ '/' :: after.toList := by simp
  simp only [components, slash, List.splitOn_append_cons_self, List.filter_append, List.map_append]

theorem components_slash_left (after : String) : components ("/" ++ after) = components after := by
  simpa using components_slash "" after

theorem components_slash_right (before : String) :
    components (before ++ "/") = components before := by
  simpa using components_slash before ""

theorem components_single (given : component ≠ "") (whole : '/' ∉ component.toList) :
    components component = [component] := by
  have filled : component.toList ≠ [] := by simpa using given
  simp [components, List.splitOn_eq_singleton whole, filled]

theorem components_intercalate {names : List String}
    (plain : ∀ name ∈ names, name ≠ "" ∧ '/' ∉ name.toList) :
    components (String.intercalate "/" names) = names := by
  induction names with
  | nil => rfl
  | cons name rest ih =>
    obtain ⟨⟨given, whole⟩, plain⟩ := List.forall_mem_cons.mp plain
    cases rest with
    | nil => simpa using components_single given whole
    | cons second rest =>
      have split : String.intercalate "/" (name :: second :: rest) =
          name ++ "/" ++ String.intercalate "/" (second :: rest) := by
        simp
      rw [split, components_slash, components_single given whole, ih plain, List.singleton_append]

theorem absolute_append {rest : String} (given : path ≠ "") :
    Absolute (path ++ rest) ↔ Absolute path := by
  have filled : path.toList ≠ [] := by simpa using given
  rw [Absolute, String.toList_append, List.head?_append_of_ne_nil _ filled, Absolute]

theorem pathComponents?_of_absolute (absolute : Absolute path) :
    pathComponents? path = some (components path) := by
  obtain ⟨rest, same⟩ := List.head?_eq_some_iff.mp absolute
  have skipped : List.splitOn '/' ('/' :: rest) = [] :: List.splitOn '/' rest := by
    rw [List.splitOn_cons_eq_if_modifyHead, if_pos (by simp)]
  simp [pathComponents?, components, same, skipped]

theorem pathComponents?_of_relative (relative : ¬Absolute path) : pathComponents? path = none := by
  unfold pathComponents?
  split
  next rest same => exact absurd (congrArg List.head? same) relative
  next => rfl

end Components

namespace Node

-- without a unit address a component is also the part of a name in front of the address
def Answers (node : Node) (component : String) : Prop :=
  if '@' ∈ component.toList then node.name = component
  else node.name = component ∨ ∃ address, node.name = component ++ "@" ++ address

theorem unitName_eq_iff {node : Node} {component : String} (bare : '@' ∉ component.toList) :
    node.unitName = component ↔
      node.name = component ∨ ∃ address, node.name = component ++ "@" ++ address := by
  have plain : ∀ c ∈ component.toList, decide (c ≠ '@') = true := fun c member =>
    decide_eq_true (ne_of_mem_of_not_mem member bare)
  have front : node.unitName.toList = node.name.toList.takeWhile (· ≠ '@') := by simp [unitName]
  rw [← String.toList_inj, front]
  constructor
  · intro same
    have split := List.takeWhile_append_dropWhile (p := (· ≠ '@')) (l := node.name.toList)
    rw [same] at split
    cases behind : node.name.toList.dropWhile (· ≠ '@') with
    | nil =>
      rw [behind, List.append_nil] at split
      exact .inl (String.toList_inj.mp split.symm)
    | cons mark rest =>
      have first := List.head_dropWhile_not (· ≠ '@') (l := node.name.toList)
        (by rw [behind]; exact List.cons_ne_nil _ _)
      simp only [behind, List.head_cons] at first
      obtain rfl : mark = '@' := by simpa using first
      rw [behind] at split
      refine .inr ⟨String.ofList rest, String.toList_inj.mp ?_⟩
      simp [← split]
  · rintro (same | ⟨address, same⟩)
    · rw [same]
      exact List.takeWhile_eq_self_iff.mpr plain
    · rw [same, String.toList_append, String.toList_append, List.append_assoc,
        List.takeWhile_append_of_pos plain]
      simp

theorem matchesComponent_iff {node : Node} {component : String} :
    node.matchesComponent component = true ↔ node.Answers component := by
  unfold matchesComponent Answers
  split_ifs with addressed
  · exact decide_eq_true_iff
  · rw [decide_eq_true_iff, unitName_eq_iff addressed]

def childAmong? (nodes : List Node) (node : Node) (component : String) : Option Node :=
  (node.childrenAmong nodes).find? fun child => child.matchesComponent component

theorem childAmong?_eq_some {nodes : List Node} {node child : Node} {component : String}
    (found : childAmong? nodes node component = some child) :
    child ∈ node.childrenAmong nodes ∧ child.matchesComponent component = true := by
  unfold childAmong? at found
  exact ⟨List.mem_of_find?_eq_some found, (List.find?_eq_some_iff_append.mp found).1⟩

structure Distinguishes (nodes : List Node) (parent child : Node) : Prop where
  below : child ∈ parent.childrenAmong nodes
  addressed : '@' ∈ child.name.toList
  whole : '/' ∉ child.name.toList
  alone : ∀ sibling ∈ parent.childrenAmong nodes, sibling.name = child.name → sibling = child

theorem Distinguishes.childAmong?_eq {nodes : List Node} {parent child : Node}
    (distinguishes : Distinguishes nodes parent child) :
    childAmong? nodes parent child.name = some child := by
  have same (sibling : Node) :
      sibling.matchesComponent child.name = true ↔ sibling.name = child.name := by
    rw [matchesComponent, if_pos distinguishes.addressed, decide_eq_true_iff]
  cases found : childAmong? nodes parent child.name with
  | none =>
    have missed := List.find?_eq_none.mp found child distinguishes.below
    exact absurd ((same child).mpr rfl) missed
  | some sibling =>
    obtain ⟨member, matching⟩ := childAmong?_eq_some found
    rw [distinguishes.alone sibling member ((same sibling).mp matching)]

end Node

section Lookup

variable {tree : DeviceTree}

theorem child?_eq_childAmong? {node : Node} (member : node ∈ tree.nodes) (component : String) :
    node.child? component = node.childAmong? tree.nodes component := by
  rw [Node.child?, children_eq_among member, Node.childAmong?]

theorem descend_eq {node : Node} (member : node ∈ tree.nodes) (names : List String) :
    names.foldlM Node.child? node = names.foldlM (Node.childAmong? tree.nodes) node := by
  induction names generalizing node with
  | nil => rfl
  | cons component rest ih =>
    rw [List.foldlM_cons, List.foldlM_cons, child?_eq_childAmong? member]
    cases found : node.childAmong? tree.nodes component with
    | none => rfl
    | some child => exact ih (mem_of_childrenAmong (Node.childAmong?_eq_some found).1).1

theorem mem_of_descend {node last : Node} (member : node ∈ tree.nodes) {names : List String}
    (descends : names.foldlM (Node.childAmong? tree.nodes) node = some last) :
    last ∈ tree.nodes ∧ last.depth = node.depth + names.length := by
  induction names generalizing node with
  | nil =>
    obtain rfl := Option.some.inj descends
    exact ⟨member, rfl⟩
  | cons component rest ih =>
    rw [List.foldlM_cons, Option.bind_eq_bind, Option.bind_eq_some_iff] at descends
    obtain ⟨child, chosen, later⟩ := descends
    obtain ⟨listed, level⟩ := mem_of_childrenAmong (Node.childAmong?_eq_some chosen).1
    obtain ⟨found, depth⟩ := ih listed later
    exact ⟨found, by rw [depth, level, List.length_cons]; omega⟩

theorem plain_of_way {nodes : List Node} {root child : Node} {way : List Node}
    (distinguished : (root :: way).IsChain (Node.Distinguishes nodes)) (member : child ∈ way) :
    child.name ≠ "" ∧ '/' ∉ child.name.toList := by
  induction way generalizing root with
  | nil => cases member
  | cons next rest ih =>
    obtain ⟨first, later⟩ := List.isChain_cons_cons.mp distinguished
    rcases List.mem_cons.mp member with rfl | behind
    · refine ⟨fun empty => ?_, first.whole⟩
      simpa [empty] using first.addressed
    · exact ih later behind

theorem descend_way {root node : Node} {way : List Node}
    (distinguished : (root :: way).IsChain (Node.Distinguishes tree.nodes))
    (last : (root :: way).getLast? = some node) :
    (way.map Node.name).foldlM (Node.childAmong? tree.nodes) root = some node := by
  induction way generalizing root with
  | nil => simpa using last
  | cons child rest ih =>
    obtain ⟨first, later⟩ := List.isChain_cons_cons.mp distinguished
    rw [List.map_cons, List.foldlM_cons, first.childAmong?_eq]
    exact ih later (by simpa using last)

theorem mem_of_root? {root : Node} (first : tree.root? = some root) : root ∈ tree.nodes :=
  List.mem_of_head? (root?_eq_head? tree ▸ first)

theorem depth_of_root? {root : Node} (first : tree.root? = some root) : root.depth = 0 := by
  obtain ⟨top, below, unfolds⟩ := exists_unfolds tree
  obtain rfl : top = root := Option.some.inj (unfolds.root?_eq.symm.trans first)
  exact unfolds.levels.depth_of_mem_roots List.mem_cons_self

theorem findNode?_of_absolute {path : String} (absolute : Absolute path) :
    tree.findNode? path =
      tree.root?.bind fun root => (components path).foldlM (Node.childAmong? tree.nodes) root := by
  rw [findNode?, pathComponents?_of_absolute absolute]
  cases first : tree.root? with
  | none => rfl
  | some root => exact descend_eq (mem_of_root? first) _

theorem findNode?_of_relative {path : String} (relative : ¬Absolute path) :
    tree.findNode? path = none := by
  rw [findNode?, pathComponents?_of_relative relative]
  rfl

theorem findNode?_congr {path other : String} (same : components path = components other)
    (both : Absolute path ↔ Absolute other) : tree.findNode? path = tree.findNode? other := by
  by_cases absolute : Absolute path
  · rw [findNode?_of_absolute absolute, findNode?_of_absolute (both.mp absolute), same]
  · rw [findNode?_of_relative absolute, findNode?_of_relative (mt both.mpr absolute)]

theorem findNode?_append {path component : String} (given : path ≠ "") (filled : component ≠ "")
    (whole : '/' ∉ component.toList) :
    tree.findNode? (path ++ "/" ++ component) =
      (tree.findNode? path).bind fun node => node.childAmong? tree.nodes component := by
  have both : Absolute (path ++ "/" ++ component) ↔ Absolute path := by
    rw [String.append_assoc]
    exact absolute_append given
  by_cases absolute : Absolute path
  · rw [findNode?_of_absolute absolute, findNode?_of_absolute (both.mpr absolute),
      components_slash, components_single filled whole]
    cases tree.root? with
    | none => rfl
    | some root => simp [List.foldlM_append]
  · rw [findNode?_of_relative absolute, findNode?_of_relative (mt both.mp absolute)]
    rfl

theorem exists_way {root node : Node} (first : tree.root? = some root) (member : node ∈ tree.nodes) :
    ∃ way, (root :: way).IsChain (fun parent child => child ∈ parent.childrenAmong tree.nodes) ∧
      (root :: way).getLast? = some node := by
  obtain ⟨top, below, unfolds⟩ := exists_unfolds tree
  obtain rfl : top = root := Option.some.inj (unfolds.root?_eq.symm.trans first)
  -- a parent lies on a lower level than its child
  induction level : node.depth using Nat.strong_induction_on generalizing node with
  | _ depth ih =>
    obtain rfl | ⟨parent, listed, child⟩ := unfolds.parent_or_root member
    · exact ⟨[], .singleton _, rfl⟩
    · rw [children_eq_among listed] at child
      have under := (mem_of_childrenAmong child).2
      obtain ⟨way, chain, last⟩ := ih parent.depth (by omega) listed rfl
      refine ⟨way ++ [node], ?_, List.getLast?_concat (l := top :: way)⟩
      rw [← List.cons_append, List.isChain_append]
      refine ⟨chain, .singleton _, fun before same after next => ?_⟩
      obtain rfl : parent = before := Option.some.inj (last.symm.trans same)
      obtain rfl : node = after := Option.some.inj next
      exact child

end Lookup

structure Resolves (tree : DeviceTree) : Prop where
  relative : ∀ path, ¬Absolute path → tree.findNode? path = none
  absolute : ∀ path, Absolute path → tree.findNode? path =
    tree.root?.bind fun root => (components path).foldlM (Node.childAmong? tree.nodes) root
  matching : ∀ (node : Node) (component : String),
    node.matchesComponent component = true ↔ node.Answers component
  listed : ∀ path node, tree.findNode? path = some node →
    node ∈ tree.nodes ∧ node.depth = (components path).length
  doubled : ∀ before after,
    tree.findNode? (before ++ "//" ++ after) = tree.findNode? (before ++ "/" ++ after)
  trailing : ∀ path, path ≠ "" → tree.findNode? (path ++ "/") = tree.findNode? path
  child : ∀ path component, path ≠ "" → component ≠ "" → '/' ∉ component.toList →
    tree.findNode? (path ++ "/" ++ component) =
      (tree.findNode? path).bind fun node => node.childAmong? tree.nodes component
  way : ∀ root node, tree.root? = some root → node ∈ tree.nodes → ∃ way,
    (root :: way).IsChain (fun parent child => child ∈ parent.childrenAmong tree.nodes) ∧
      (root :: way).getLast? = some node
  exact : ∀ root way node, tree.root? = some root →
    (root :: way).IsChain (Node.Distinguishes tree.nodes) → (root :: way).getLast? = some node →
      tree.findNode? ("/" ++ String.intercalate "/" (way.map Node.name)) = some node

theorem paths_resolve (tree : DeviceTree) : Resolves tree where
  relative := fun _ => findNode?_of_relative
  absolute := fun _ => findNode?_of_absolute
  matching := fun _ _ => Node.matchesComponent_iff
  listed := by
    intro path node found
    by_cases absolute : Absolute path
    · rw [findNode?_of_absolute absolute, Option.bind_eq_some_iff] at found
      obtain ⟨root, first, descends⟩ := found
      obtain ⟨listed, depth⟩ := mem_of_descend (mem_of_root? first) descends
      rw [depth_of_root? first, Nat.zero_add] at depth
      exact ⟨listed, depth⟩
    · rw [findNode?_of_relative absolute] at found
      cases found
  doubled := by
    intro before after
    have twice : before ++ "//" ++ after = before ++ "/" ++ "/" ++ after := by
      simp [← String.toList_inj]
    rw [twice]
    apply findNode?_congr
    · rw [components_slash, components_slash_right, components_slash]
    · simp [Absolute]
  trailing := by
    intro path given
    exact findNode?_congr (components_slash_right path) (absolute_append given)
  child := fun _ _ => findNode?_append
  way := fun _ _ => exists_way
  exact := by
    intro root way node first distinguished last
    have plain : ∀ name ∈ way.map Node.name, name ≠ "" ∧ '/' ∉ name.toList :=
      List.forall_mem_map.mpr fun child member => plain_of_way distinguished member
    have absolute : Absolute ("/" ++ String.intercalate "/" (way.map Node.name)) := by
      simp [Absolute]
    rw [findNode?_of_absolute absolute, first, components_slash_left,
      components_intercalate plain]
    exact descend_way distinguished last

end EarlyBoot.DeviceTree
