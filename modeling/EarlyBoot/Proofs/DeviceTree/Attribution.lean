import EarlyBoot.Proofs.DeviceTree.Draining

set_option autoImplicit false

namespace EarlyBoot.DeviceTree

structure Posting where
  node : Node
  property : Property
  -- behind a child of the node
  late : Bool
  deriving DecidableEq, Repr

structure OpenNode where
  node : Node
  entered : Bool
  deriving DecidableEq, Repr

def OpenNode.enter (opening : OpenNode) : OpenNode :=
  { opening with entered := true }

def openedBy (after : Cursor) (opened : List OpenNode) : Token → List OpenNode
  | .beginNode name => ⟨⟨name, opened.length, after⟩, false⟩ :: opened.map OpenNode.enter
  | .endNode => opened.tail
  | .property _ _ | .finish => opened

def postedBy (strings : List UInt8) (opened : List OpenNode) : Token → List Posting
  | .property nameOffset value =>
    match opened, textAt? strings nameOffset with
    | innermost :: _, some name => [⟨innermost.node, ⟨name, value⟩, innermost.entered⟩]
    | _, _ => []
  | .beginNode _ | .endNode | .finish => []

def recordFrom (strings : List UInt8) (cursor : Cursor) (walk : Walk) (opened : List OpenNode) :
    Except Error (List Posting) :=
  match _ : Token.read cursor with
  | .error error => .error error
  | .ok (.finish, _) => if walk.complete then .ok [] else .error (.badStructure cursor.offset)
  | .ok (token, after) =>
    match walk.step? strings token with
    | none => .error (.badStructure cursor.offset)
    | some next =>
      (recordFrom strings after next (openedBy after opened token)).map
        (postedBy strings opened token ++ ·)
termination_by cursor.rest.length
decreasing_by exact Token.read_length_lt ‹_›

def recordStructure (strings block : List UInt8) : Except Error (List Posting) :=
  recordFrom strings (.start block) .initial []

theorem recordFrom_checks (strings : List UInt8) (cursor : Cursor) (walk : Walk)
    (opened : List OpenNode) :
    (recordFrom strings cursor walk opened).map (fun _ => ()) = checkFrom strings cursor walk := by
  fun_induction recordFrom strings cursor walk opened with
  | case1 cursor walk opened error failed =>
    rw [checkFrom]
    split <;> simp_all [Except.map]
  | case2 cursor walk opened after read complete =>
    rw [checkFrom_finish read, if_pos complete]
    rfl
  | case3 cursor walk opened after read incomplete =>
    rw [checkFrom_finish read, if_neg incomplete]
    rfl
  | case4 cursor walk opened token after going read refused =>
    rw [checkFrom]
    split <;> simp_all [Except.map]
  | case5 cursor walk opened token after going read next step ih =>
    rw [checkFrom_step read step, ← ih]
    cases recordFrom strings after next (openedBy after opened token) <;> rfl

def attributed (postings : List Posting) (node : Node) : List Property :=
  (postings.filter (·.node = node)).map Posting.property

def timely (postings : List Posting) (node : Node) : List Property :=
  attributed (postings.filter (!·.late)) node

def hidden (postings : List Posting) (node : Node) : List Property :=
  attributed (postings.filter (·.late)) node

section Postings

variable (posting : Posting) (postings : List Posting) (node : Node)

theorem attributed_cons :
    attributed (posting :: postings) node =
      if posting.node = node then posting.property :: attributed postings node
      else attributed postings node := by
  unfold attributed
  split_ifs with same <;> simp [same]

theorem timely_cons :
    timely (posting :: postings) node =
      if posting.late = false ∧ posting.node = node then
        posting.property :: timely postings node
      else timely postings node := by
  unfold timely
  cases late : posting.late <;> simp [late, attributed_cons]

theorem hidden_cons :
    hidden (posting :: postings) node =
      if posting.late = true ∧ posting.node = node then
        posting.property :: hidden postings node
      else hidden postings node := by
  unfold hidden
  cases late : posting.late <;> simp [late, attributed_cons]

end Postings

inductive Records (block strings : List UInt8) : Nat → List OpenNode → List Posting → Prop where
  | finish {offset next : Nat} (stands : Stands block .finish offset next) :
    Records block strings offset [] []
  | beginNode {offset next : Nat} {opened : List OpenNode} {name : String}
    {postings : List Posting} (stands : Stands block (.beginNode name) offset next)
    (later : Records block strings next
      (⟨⟨name, opened.length, cursorAt block next⟩, false⟩ :: opened.map OpenNode.enter)
      postings) :
    Records block strings offset opened postings
  | endNode {offset next : Nat} {innermost : OpenNode} {opened : List OpenNode}
    {postings : List Posting} (stands : Stands block .endNode offset next)
    (later : Records block strings next opened postings) :
    Records block strings offset (innermost :: opened) postings
  | property {offset next : Nat} {innermost : OpenNode} {opened : List OpenNode}
    {nameOffset : UInt32} {name : String} {value : List UInt8} {postings : List Posting}
    (stands : Stands block (.property nameOffset value) offset next)
    (named : textAt? strings nameOffset = some name)
    (later : Records block strings next (innermost :: opened) postings) :
    Records block strings offset (innermost :: opened)
      (⟨innermost.node, ⟨name, value⟩, innermost.entered⟩ :: postings)

theorem records_of_recordFrom {block strings : List UInt8} {offset : Nat} {walk : Walk}
    {opened : List OpenNode} {postings : List Posting}
    (recorded : recordFrom strings (cursorAt block offset) walk opened = .ok postings)
    (start : offset % 4 = 0) (counted : opened.length = walk.depth) :
    Records block strings offset opened postings := by
  generalize same : cursorAt block offset = cursor at recorded
  fun_induction recordFrom strings cursor walk opened generalizing offset postings with
  | case1 | case3 | case4 => contradiction
  | case2 cursor walk opened after read complete =>
    subst same
    obtain ⟨next, stands, _⟩ := (Token.read_eq_ok_iff start).mp read
    obtain rfl := Except.ok.inj recorded
    have closed : walk.depth = 0 := by
      simp only [Walk.complete, Bool.and_eq_true, decide_eq_true_eq] at complete
      exact complete.1
    obtain rfl := List.length_eq_zero_iff.mp (counted.trans closed)
    exact .finish stands
  | case5 cursor walk opened token after going read next step ih =>
    subst same
    obtain ⟨offset, stands, rfl⟩ := (Token.read_eq_ok_iff start).mp read
    have level := Walk.depth_of_step? step
    cases made : recordFrom strings (cursorAt block offset) next
        (openedBy (cursorAt block offset) opened token) with
    | error error =>
      rw [made] at recorded
      cases recorded
    | ok later =>
      rw [made] at recorded
      obtain rfl := Except.ok.inj recorded
      cases token with
      | beginNode name =>
        exact .beginNode stands (ih stands.next_mod (by simp [openedBy, counted, level]) rfl made)
      | endNode =>
        have inside : walk.depth ≠ 0 := by
          intro outside
          simp [Walk.step?, outside] at step
        obtain ⟨innermost, outer, rfl⟩ := List.exists_cons_of_ne_nil
          (List.ne_nil_of_length_pos (by omega : 0 < opened.length))
        rw [List.length_cons] at counted
        exact .endNode stands (ih stands.next_mod (by simp [openedBy, ← counted, level]) rfl made)
      | property nameOffset value =>
        have accepted : ¬(walk.depth = 0 ∨ (textAt? strings nameOffset).isNone = true) := by
          intro refused
          rw [Walk.step?, if_pos refused] at step
          contradiction
        obtain ⟨inside, known⟩ := not_or.mp accepted
        obtain ⟨name, named⟩ := Option.ne_none_iff_exists'.mp (by simpa using known)
        obtain ⟨innermost, outer, rfl⟩ := List.exists_cons_of_ne_nil
          (List.ne_nil_of_length_pos (by omega : 0 < opened.length))
        simp only [postedBy, named]
        exact .property stands named (ih stands.next_mod (counted.trans level.symm) rfl made)
      | finish => exact absurd rfl going

structure Nested (offset : Nat) (opened : List OpenNode) : Prop where
  behind : ∀ opening ∈ opened, opening.node.body.offset ≤ offset
  entered : ∀ opening ∈ opened.tail, opening.entered = true

namespace Nested

variable {offset next : Nat} {opened : List OpenNode} {innermost : OpenNode}

theorem mono (nested : Nested offset opened) (order : offset ≤ next) : Nested next opened where
  behind := fun opening member => (nested.behind opening member).trans order
  entered := nested.entered

theorem close (nested : Nested offset (innermost :: opened)) : Nested offset opened where
  behind := fun opening member => nested.behind opening (List.mem_cons_of_mem _ member)
  entered := fun opening member => nested.entered opening (List.mem_of_mem_tail member)

theorem enter (nested : Nested offset opened) (order : offset ≤ next) (node : Node)
    (body : node.body.offset = next) :
    Nested next (⟨node, false⟩ :: opened.map OpenNode.enter) where
  behind := by
    refine List.forall_mem_cons.mpr ⟨Nat.le_of_eq body, ?_⟩
    refine List.forall_mem_map.mpr fun opening member => ?_
    exact (nested.behind opening member).trans order
  entered := List.forall_mem_map.mpr fun _ _ => rfl

end Nested

def unread (tree : DeviceTree) (offset : Nat) (node : Node) : List OpenNode → List Property
  | ⟨innermost, false⟩ :: _ =>
    if innermost = node then tree.propertiesFrom (cursorAt tree.block offset) else []
  | _ => []

section Unread

variable {tree : DeviceTree} {offset : Nat} {node : Node} {opened : List OpenNode}

theorem unread_of_entered (entered : ∀ opening ∈ opened, opening.entered = true) :
    tree.unread offset node opened = [] := by
  match opened with
  | [] => rfl
  | ⟨innermost, true⟩ :: outer => rfl
  | ⟨innermost, false⟩ :: outer => simp at entered

theorem unread_of_ended (ended : tree.propertiesFrom (cursorAt tree.block offset) = []) :
    tree.unread offset node opened = [] := by
  unfold unread
  split
  · rw [ended, ite_self]
  · rfl

end Unread

namespace Records

variable {tree : DeviceTree} {offset : Nat} {opened : List OpenNode} {postings : List Posting}

theorem timely_eq (records : Records tree.block tree.strings offset opened postings)
    (start : offset % 4 = 0) (nested : Nested offset opened) {node : Node}
    (begun : node.body.offset ≤ offset) :
    timely postings node = tree.unread offset node opened := by
  induction records with
  | finish stands => rfl
  | @beginNode offset next opened name postings stands later ih =>
    have order := stands.inside.2
    have ended := propertiesFrom_other stands start
      (by simp [Token.tag, Tag.beginNode, Tag.property])
    rw [ih stands.next_mod (nested.enter order.le _ rfl) (begun.trans order.le),
      unread_of_ended ended]
    -- the node that begins here is another one
    have other : (⟨name, opened.length, cursorAt tree.block next⟩ : Node) ≠ node := by
      rintro rfl
      exact absurd order (Nat.not_lt.mpr begun)
    simp only [unread, if_neg other]
  | @endNode offset next innermost opened postings stands later ih =>
    have order := stands.inside.2
    have ended := propertiesFrom_other stands start (by simp [Token.tag, Tag.endNode, Tag.property])
    rw [ih stands.next_mod (nested.close.mono order.le) (begun.trans order.le),
      unread_of_ended ended]
    exact unread_of_entered nested.entered
  | @property offset next innermost opened nameOffset name value postings stands named later ih =>
    have order := stands.inside.2
    have rest := ih stands.next_mod (nested.mono order.le) (begun.trans order.le)
    obtain ⟨innermost, entered⟩ := innermost
    rw [timely_cons, rest]
    cases entered with
    | true => simp [unread]
    | false =>
      by_cases same : innermost = node
      · simp only [unread, propertiesFrom_property stands start named, same, and_self, if_true]
      · simp only [unread, same, and_false, if_false]

theorem timely_nodes (records : Records tree.block tree.strings offset opened postings)
    (start : offset % 4 = 0) (nested : Nested offset opened) :
    ∀ node ∈ (traversalAt tree.block offset opened.length 0).nodes,
      offset < node.body.offset ∧ timely postings node = tree.properties node := by
  induction records with
  | finish stands =>
    rw [Traversal.nodes_finish stands start]
    simp
  | @beginNode offset next opened name postings stands later ih =>
    have order := stands.inside.2
    have inside := nested.enter order.le ⟨name, opened.length, cursorAt tree.block next⟩ rfl
    rw [Traversal.nodes_beginNode stands start]
    refine List.forall_mem_cons.mpr ⟨⟨order, ?_⟩, fun node member => ?_⟩
    · rw [later.timely_eq stands.next_mod inside (Nat.le_refl _)]
      simp only [unread, if_true, properties]
    · rw [← List.length_map OpenNode.enter, ← List.length_cons] at member
      obtain ⟨after, same⟩ := ih stands.next_mod inside node member
      exact ⟨order.trans after, same⟩
  | @endNode offset next innermost opened postings stands later ih =>
    have order := stands.inside.2
    rw [List.length_cons, Traversal.nodes_endNode stands start (Nat.zero_le _)]
    intro node member
    obtain ⟨after, same⟩ := ih stands.next_mod (nested.close.mono order.le) node member
    exact ⟨order.trans after, same⟩
  | @property offset next innermost opened nameOffset name value postings stands named later ih =>
    have order := stands.inside.2
    rw [Traversal.nodes_property stands start]
    intro node member
    obtain ⟨after, same⟩ := ih stands.next_mod (nested.mono order.le) node member
    refine ⟨order.trans after, ?_⟩
    -- the property belongs to a node that has begun already
    have other : innermost.node ≠ node := by
      rintro rfl
      have begun := nested.behind innermost List.mem_cons_self
      omega
    rw [timely_cons, if_neg fun mine => other mine.2, same]

theorem increasing (records : Records tree.block tree.strings offset opened postings)
    (start : offset % 4 = 0) (nested : Nested offset opened) :
    (traversalAt tree.block offset opened.length 0).nodes.Pairwise
      fun earlier later => earlier.body.offset < later.body.offset := by
  induction records with
  | finish stands =>
    rw [Traversal.nodes_finish stands start]
    exact .nil
  | @beginNode offset next opened name postings stands later ih =>
    have inside := nested.enter stands.inside.2.le
      ⟨name, opened.length, cursorAt tree.block next⟩ rfl
    have behind := later.timely_nodes stands.next_mod inside
    have rest := ih stands.next_mod inside
    rw [List.length_cons, List.length_map] at behind rest
    rw [Traversal.nodes_beginNode stands start]
    exact List.pairwise_cons.mpr ⟨fun node member => (behind node member).1, rest⟩
  | @endNode offset next innermost opened postings stands later ih =>
    rw [List.length_cons, Traversal.nodes_endNode stands start (Nat.zero_le _)]
    exact ih stands.next_mod (nested.close.mono stands.inside.2.le)
  | property stands named later ih =>
    rw [Traversal.nodes_property stands start]
    exact ih stands.next_mod (nested.mono stands.inside.2.le)

theorem owned (records : Records tree.block tree.strings offset opened postings)
    (start : offset % 4 = 0) :
    ∀ posting ∈ postings, posting.node ∈ opened.map OpenNode.node ∨
      posting.node ∈ (traversalAt tree.block offset opened.length 0).nodes := by
  induction records with
  | finish => simp
  | @beginNode offset next opened name postings stands later ih =>
    intro posting member
    rw [Traversal.nodes_beginNode stands start]
    have found := ih stands.next_mod posting member
    have names : (opened.map OpenNode.enter).map OpenNode.node = opened.map OpenNode.node := by
      simp [OpenNode.enter]
    rw [List.map_cons, names, List.length_cons, List.length_map, List.mem_cons] at found
    rwa [List.mem_cons, or_left_comm, ← or_assoc]
  | @endNode offset next innermost opened postings stands later ih =>
    intro posting member
    rw [List.length_cons, Traversal.nodes_endNode stands start (Nat.zero_le _)]
    exact (ih stands.next_mod posting member).imp_left (List.mem_cons_of_mem _)
  | @property offset next innermost opened nameOffset name value postings stands named later ih =>
    rw [Traversal.nodes_property stands start]
    exact List.forall_mem_cons.mpr ⟨.inl List.mem_cons_self, ih stands.next_mod⟩

theorem attributed_eq (records : Records tree.block tree.strings offset opened postings)
    (start : offset % 4 = 0) (nested : Nested offset opened) (node : Node) :
    attributed postings node = timely postings node ++ hidden postings node := by
  induction records with
  | finish => rfl
  | @beginNode offset next opened name postings stands later ih =>
    exact ih stands.next_mod (nested.enter stands.inside.2.le _ rfl)
  | @endNode offset next innermost opened postings stands later ih =>
    exact ih stands.next_mod (nested.close.mono stands.inside.2.le)
  | @property offset next innermost opened nameOffset name value postings stands named later ih =>
    have order := stands.inside.2
    have rest := ih stands.next_mod (nested.mono order.le)
    rw [attributed_cons, timely_cons, hidden_cons]
    by_cases same : innermost.node = node
    · obtain ⟨innermost, entered⟩ := innermost
      subst same
      cases entered with
      | true =>
        -- nothing timely is to come for a node that has a child
        have none := later.timely_eq stands.next_mod (nested.mono order.le)
          ((nested.behind _ List.mem_cons_self).trans order.le)
        simp only [unread] at none
        simp [rest, none]
      | false => simp [rest]
    · simp [same, rest]

end Records

structure Accounts (tree : DeviceTree) (postings : List Posting) : Prop where
  distinct : tree.nodes.Nodup
  owned : ∀ posting ∈ postings, posting.node ∈ tree.nodes
  given : ∀ node ∈ tree.nodes, tree.properties node = timely postings node
  ordered : ∀ node, attributed postings node = timely postings node ++ hidden postings node

theorem Records.accounts {tree : DeviceTree} {postings : List Posting}
    (records : Records tree.block tree.strings 0 [] postings) : Accounts tree postings := by
  have nested : Nested 0 [] := ⟨by simp, by simp⟩
  have increasing : tree.nodes.Pairwise fun earlier later =>
      earlier.body.offset < later.body.offset := records.increasing rfl nested
  exact {
    distinct := increasing.imp fun {earlier later} order same => by
      rw [same] at order
      exact Nat.lt_irrefl _ order
    owned := fun posting member => (records.owned rfl posting member).resolve_left (by simp)
    given := fun node member => (records.timely_nodes rfl nested node member).2.symm
    ordered := records.attributed_eq rfl nested }

theorem mem_hidden {posting : Posting} {postings : List Posting} (member : posting ∈ postings)
    (late : posting.late = true) : posting.property ∈ hidden postings posting.node := by
  simp only [hidden, attributed, List.mem_map, List.mem_filter]
  exact ⟨posting, ⟨⟨member, late⟩, by simp⟩, rfl⟩

theorem Accounts.complete_iff {tree : DeviceTree} {postings : List Posting}
    (accounts : Accounts tree postings) :
    (∀ node ∈ tree.nodes, tree.properties node = attributed postings node) ↔
      ∀ posting ∈ postings, posting.late = false := by
  constructor
  · intro complete posting member
    have whole := complete posting.node (accounts.owned posting member)
    rw [accounts.given _ (accounts.owned posting member), accounts.ordered,
      List.self_eq_append_right] at whole
    rw [← Bool.not_eq_true]
    intro late
    have lost := mem_hidden member late
    simp [whole] at lost
  · intro early node member
    have none_late : postings.filter Posting.late = [] :=
      List.filter_eq_nil_iff.mpr fun posting member => by simp [early posting member]
    have nothing : hidden postings node = [] := by
      rw [hidden, none_late]
      rfl
    rw [accounts.given node member, accounts.ordered, nothing, List.append_nil]

theorem exists_record {strings block : List UInt8} (valid : checkStructure strings block = .ok ()) :
    ∃ postings, recordStructure strings block = .ok postings := by
  have checks := recordFrom_checks strings (.start block) .initial []
  cases recorded : recordStructure strings block with
  | ok postings => exact ⟨postings, rfl⟩
  | error error =>
    rw [recordStructure] at recorded
    rw [recorded, ← checkStructure, valid] at checks
    cases checks

theorem ofBytes_accounts {bytes : List UInt8} {tree : DeviceTree}
    (accepted : ofBytes bytes = .ok tree) :
    ∃ postings, recordStructure (stringsBlock bytes) (structureBlock bytes) = .ok postings ∧
      Accounts tree postings ∧
      ((∀ node ∈ tree.nodes, tree.properties node = attributed postings node) ↔
        ∀ posting ∈ postings, posting.late = false) := by
  obtain ⟨block, strings⟩ := blocks_of_ofBytes accepted
  rw [← block, ← strings]
  obtain ⟨postings, recorded⟩ := exists_record tree.wellFormed
  have walked : recordFrom tree.strings (cursorAt tree.block 0) .initial [] = .ok postings :=
    recorded
  have records := records_of_recordFrom walked rfl rfl
  exact ⟨postings, recorded, records.accounts, records.accounts.complete_iff⟩

-- the range of the memory node stands behind a child
def shadowedBlob : List UInt8 :=
  let memory := ((Writer.empty.beginNode "").beginNode "memory").textProperty "device_type" "memory"
  let bank := (memory.beginNode "bank").endNode
  (bank.regionsProperty [(0x80000000, 0x2000000)]).endNode.endNode.finish.1

theorem shadowedBlob_accounts :
    ∃ tree postings, ofBytes shadowedBlob = .ok tree ∧
      recordStructure (stringsBlock shadowedBlob) (structureBlock shadowedBlob) = .ok postings ∧
      Accounts tree postings := by
  have read : (ofBytes shadowedBlob).toOption.isSome = true := by decide +kernel
  cases accepted : ofBytes shadowedBlob with
  | error error => simp [accepted, Except.toOption] at read
  | ok tree =>
    obtain ⟨postings, recorded, accounts, _⟩ := ofBytes_accounts accepted
    exact ⟨tree, postings, rfl, recorded, accounts⟩

theorem shadowedBlob_loses_range :
    ∃ tree postings, ofBytes shadowedBlob = .ok tree ∧
      recordStructure (stringsBlock shadowedBlob) (structureBlock shadowedBlob) = .ok postings ∧
      ∃ node ∈ tree.nodes, (attributed postings node).map Property.name = ["device_type", "reg"] ∧
        (tree.properties node).map Property.name = ["device_type"] := by
  have found : (ofBytes shadowedBlob).map (fun tree =>
      (recordStructure (stringsBlock shadowedBlob) (structureBlock shadowedBlob)).map
        fun postings => decide (∃ node ∈ tree.nodes,
          (attributed postings node).map Property.name = ["device_type", "reg"] ∧
            (tree.properties node).map Property.name = ["device_type"])) = .ok (.ok true) := by
    decide +kernel
  cases accepted : ofBytes shadowedBlob with
  | error error =>
    rw [accepted] at found
    cases found
  | ok tree =>
    rw [accepted] at found
    cases recorded : recordStructure (stringsBlock shadowedBlob) (structureBlock shadowedBlob) with
    | error error =>
      rw [recorded] at found
      cases Except.ok.inj found
    | ok postings =>
      rw [recorded] at found
      exact ⟨tree, postings, rfl, rfl, of_decide_eq_true (Except.ok.inj (Except.ok.inj found))⟩

end EarlyBoot.DeviceTree
