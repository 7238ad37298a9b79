import EarlyBoot.DeviceTree.Path
import EarlyBoot.Proofs.DeviceTree.Reading
import EarlyBoot.Proofs.DeviceTree.Validation

set_option autoImplicit false

namespace EarlyBoot.DeviceTree

section Calls

variable {σ α : Type}

def stateAfter (next : σ → Option α × σ) (state : σ) : Nat → σ
  | 0 => state
  | calls + 1 => stateAfter next (next state).2 calls

/-- The calls give these items in order, and nothing ever after. -/
def Drains (next : σ → Option α × σ) (state : σ) (items : List α) : Prop :=
  ∀ calls, (next (stateAfter next state calls)).1 = items[calls]?

variable {next : σ → Option α × σ} {state after : σ} {items : List α}

theorem stateAfter_of_still (still : next after = (none, after)) (calls : Nat) :
    stateAfter next after calls = after := by
  induction calls with
  | zero => rfl
  | succ calls ih => rwa [stateAfter, still]

theorem drains_nil (ended : next state = (none, after)) (still : next after = (none, after)) :
    Drains next state [] := by
  intro calls
  cases calls with
  | zero => simp only [stateAfter, ended, List.getElem?_nil]
  | succ calls => simp only [stateAfter, ended, stateAfter_of_still still, still, List.getElem?_nil]

theorem Drains.cons {item : α} (rest : Drains next after items)
    (given : next state = (some item, after)) : Drains next state (item :: items) := by
  intro calls
  cases calls with
  | zero => simp only [stateAfter, given, List.getElem?_cons_zero]
  | succ calls => simpa only [stateAfter, given, List.getElem?_cons_succ] using rest calls

theorem Drains.congr {other : σ} (rest : Drains next other items) (same : next state = next other) :
    Drains next state items := by
  intro calls
  have others := rest calls
  cases calls with
  | zero => simpa only [stateAfter, same] using others
  | succ calls => simpa only [stateAfter, same] using others

end Calls

def Cursor.stop? (cursor : Cursor) : Option Nat :=
  match _ : Token.read cursor with
  | .error _ => none
  | .ok (.finish, after) => some after.offset
  | .ok (_, after) => after.stop?
termination_by cursor.rest.length
decreasing_by exact Token.read_length_lt ‹_›

structure Readable (block strings : List UInt8) (stop : Nat) (cursor : Cursor) : Prop where
  place : cursor = cursorAt block cursor.offset
  aligned : cursor.offset % 4 = 0
  inside : cursor.offset < block.length
  before_stop : cursor.offset < stop
  readable : ∃ token after, Token.read cursor = .ok (token, after)
  named : ∀ nameOffset value after, Token.read cursor = .ok (.property nameOffset value, after) →
    ∃ name, textAt? strings nameOffset = some name

structure Passes (block strings : List UInt8) (stop : Nat) (cursor : Cursor) (walk : Walk) :
    Prop where
  place : cursor = cursorAt block cursor.offset
  aligned : cursor.offset % 4 = 0
  checked : checkFrom strings cursor walk = .ok ()
  stops : cursor.stop? = some stop

section Passes

variable {block strings : List UInt8} {stop offset next : Nat} {cursor after : Cursor}
  {walk : Walk} {token : Token}

theorem Stands.inside (stands : Stands block token offset next) :
    offset < block.length ∧ offset < next := by
  induction stands with
  | @here offset legible spelled =>
    have length := spelled.length_le
    simp only [Token.spelling, List.length_append, length_word, List.length_drop] at length
    simp only [Token.spelling, List.length_append, length_word, aligned]
    omega
  | skip noOp rest ih => omega

theorem Stands.finish_le (stands : Stands block .finish offset next) (start : offset % 4 = 0) :
    next ≤ block.length := by
  induction stands with
  | @here offset legible spelled =>
    have length := spelled.length_le
    have whole : Token.finish.spelling.length = 4 := rfl
    simp only [whole, List.length_drop, aligned] at length ⊢
    omega
  | skip noOp rest ih => exact ih (by omega)

theorem Cursor.stop?_finish (read : Token.read cursor = .ok (.finish, after)) :
    cursor.stop? = some after.offset := by
  rw [stop?]
  split <;> simp_all

theorem Cursor.stop?_of_read (read : Token.read cursor = .ok (token, after))
    (going : token ≠ .finish) : cursor.stop? = after.stop? := by
  rw [stop?]
  split <;> simp_all

theorem stop?_bounds (found : (cursorAt block offset).stop? = some stop) (start : offset % 4 = 0) :
    offset < stop ∧ stop ≤ block.length := by
  generalize same : cursorAt block offset = cursor at found
  fun_induction Cursor.stop? cursor generalizing offset with
  | case1 => contradiction
  | case2 cursor after read =>
    subst same
    obtain ⟨next, stands, rfl⟩ := (Token.read_eq_ok_iff start).mp read
    obtain rfl := Option.some.inj found
    exact ⟨stands.inside.2, stands.finish_le start⟩
  | case3 cursor token after going read ih =>
    subst same
    obtain ⟨next, stands, rfl⟩ := (Token.read_eq_ok_iff start).mp read
    have later := ih stands.next_mod rfl found
    exact ⟨stands.inside.2.trans later.1, later.2⟩

theorem exists_stop (checked : checkFrom strings cursor walk = .ok ()) :
    ∃ stop, cursor.stop? = some stop := by
  fun_induction checkFrom strings cursor walk with
  | case1 | case3 | case4 => contradiction
  | case2 cursor walk after read complete => exact ⟨_, Cursor.stop?_finish read⟩
  | case5 cursor walk token after going read next step ih =>
    rw [Cursor.stop?_of_read read going]
    exact ih checked

theorem Passes.cases (passes : Passes block strings stop cursor walk) :
    ∃ token after, Token.read cursor = .ok (token, after) ∧
      (token = .finish ∧ walk.complete = true ∨
        ∃ next, walk.step? strings token = some next ∧ Passes block strings stop after next) := by
  obtain ⟨place, aligned, checked, stops⟩ := passes
  rw [checkFrom] at checked
  split at checked
  next => contradiction
  next after read =>
    split at checked
    next complete => exact ⟨_, after, read, .inl ⟨rfl, complete⟩⟩
    next => contradiction
  next token after going read =>
    split at checked
    next => contradiction
    next walkNext step =>
      refine ⟨token, after, read, .inr ⟨walkNext, step, ?_⟩⟩
      rw [Cursor.stop?_of_read read going] at stops
      rw [place] at read
      obtain ⟨next, stands, rfl⟩ := (Token.read_eq_ok_iff aligned).mp read
      exact ⟨rfl, stands.next_mod, checked, stops⟩

theorem Passes.readable (passes : Passes block strings stop cursor walk) :
    Readable block strings stop cursor := by
  obtain ⟨token, after, read, goes⟩ := passes.cases
  obtain ⟨place, aligned, _, stops⟩ := passes
  have standing := read
  rw [place] at standing
  obtain ⟨next, stands, _⟩ := (Token.read_eq_ok_iff aligned).mp standing
  rw [place] at stops
  exact {
    place := place
    aligned := aligned
    inside := stands.inside.1
    before_stop := (stop?_bounds stops aligned).1
    readable := ⟨token, after, read⟩
    named := by
      intro nameOffset value later same
      rw [read, Except.ok.injEq, Prod.mk.injEq] at same
      obtain ⟨rfl, rfl⟩ := same
      obtain ⟨absurdity, _⟩ | ⟨walkNext, step, _⟩ := goes
      · cases absurdity
      · by_cases missing : (textAt? strings nameOffset).isNone
        · simp [Walk.step?, missing] at step
        · exact Option.ne_none_iff_exists'.mp (by simpa using missing) }

end Passes

namespace Traversal

def round (traversal : Traversal) : Option Node × Traversal :=
  match Token.read traversal.cursor with
  | .error _ => (none, { traversal with finished := true })
  | .ok (.beginNode name, after) =>
    (some ⟨name, traversal.depth, after⟩,
      { traversal with cursor := after, depth := traversal.depth + 1 })
  | .ok (.endNode, after) =>
    if traversal.depth = traversal.floor then
      (none, { traversal with cursor := after, finished := true })
    else (none, { traversal with cursor := after, depth := traversal.depth - 1 })
  | .ok (.property .., after) => (none, { traversal with cursor := after })
  | .ok (.finish, after) => (none, { traversal with cursor := after, finished := true })

inductive Reaches (start : Traversal) : Traversal → Prop where
  | start : Reaches start start
  | round {traversal : Traversal} (reaches : Reaches start traversal)
    (going : traversal.finished = false) : Reaches start traversal.round.2

theorem Reaches.trans {start middle last : Traversal} (later : Reaches middle last)
    (reaches : Reaches start middle) : Reaches start last := by
  induction later with
  | start => exact reaches
  | round _ going ih => exact .round ih going

theorem Reaches.of_round {traversal after : Traversal} (going : ¬traversal.finished = true)
    (turn : traversal.round.2 = after) : traversal.Reaches after :=
  turn ▸ .round .start (Bool.eq_false_of_not_eq_true going)

theorem next_reaches (traversal : Traversal) :
    ∃ last, traversal.Reaches last ∧
      (last.finished = true ∧ traversal.next = (none, last) ∨
        last.finished = false ∧ ∃ node, last.round.1 = some node ∧
          traversal.next = (some node, last.round.2)) := by
  -- a call is one round for each token up to the next node, or up to the end
  fun_induction next traversal with
  | case1 traversal ended => exact ⟨traversal, .start, .inl ⟨ended, rfl⟩⟩
  | case2 traversal going error failed =>
    exact ⟨{ traversal with finished := true }, .of_round going (by simp only [round, failed]),
      .inl ⟨rfl, rfl⟩⟩
  | case3 traversal going name after read =>
    have turn : traversal.round = (some ⟨name, traversal.depth, after⟩,
        { traversal with cursor := after, depth := traversal.depth + 1 }) := by
      simp only [round, read]
    exact ⟨traversal, .start, .inr ⟨by simpa using going, _, by rw [turn], by rw [turn]⟩⟩
  | case4 traversal going after read floor =>
    exact ⟨{ traversal with cursor := after, finished := true },
      .of_round going (by simp only [round, read, if_pos floor]), .inl ⟨rfl, rfl⟩⟩
  | case5 traversal going after read above ih =>
    obtain ⟨last, reaches, ends⟩ := ih
    exact ⟨last, reaches.trans (.of_round going (by simp only [round, read, if_neg above])), ends⟩
  | case6 traversal going nameOffset value after read ih =>
    obtain ⟨last, reaches, ends⟩ := ih
    exact ⟨last, reaches.trans (.of_round going (by simp only [round, read])), ends⟩
  | case7 traversal going after read =>
    exact ⟨{ traversal with cursor := after, finished := true },
      .of_round going (by simp only [round, read]), .inl ⟨rfl, rfl⟩⟩

theorem next_of_finished {traversal : Traversal} (ended : traversal.finished = true) :
    traversal.next = (none, traversal) := by
  rw [next, if_pos ended]

theorem finished_of_next_none {traversal after : Traversal}
    (ended : traversal.next = (none, after)) : after.finished = true := by
  obtain ⟨last, _, ⟨finished, same⟩ | ⟨_, node, _, same⟩⟩ := traversal.next_reaches
  · rw [ended, Prod.mk.injEq] at same
    rw [same.2, finished]
  · simp [ended] at same

theorem nextAt_eq (depth : Nat) (traversal : Traversal) :
    traversal.nextAt depth =
      match traversal.next with
      | (none, after) => (none, after)
      | (some node, after) =>
        if node.depth = depth then (some node, after) else after.nextAt depth := by
  rw [nextAt]
  split <;> simp_all

theorem nextAt_of_finished {traversal : Traversal} (ended : traversal.finished = true)
    (depth : Nat) : traversal.nextAt depth = (none, traversal) := by
  rw [nextAt_eq, next_of_finished ended]

theorem next_drains (traversal : Traversal) : Drains next traversal traversal.nodes := by
  fun_induction nodes traversal with
  | case1 traversal after ended =>
    exact drains_nil ended (next_of_finished (finished_of_next_none ended))
  | case2 traversal node after given ih => exact ih.cons given

theorem nextAt_drains (depth : Nat) (traversal : Traversal) :
    Drains (nextAt depth) traversal (traversal.nodes.filter fun node => node.depth = depth) := by
  fun_induction nodes traversal with
  | case1 traversal after ended =>
    have silent : traversal.nextAt depth = (none, after) := by rw [nextAt_eq, ended]
    exact drains_nil silent (nextAt_of_finished (finished_of_next_none ended) depth)
  | case2 traversal node after given ih =>
    by_cases level : node.depth = depth
    · rw [List.filter_cons_of_pos (by simpa using level)]
      exact ih.cons (by simp only [nextAt_eq depth traversal, given, if_pos level])
    · -- a node on another level is passed over within the same call
      rw [List.filter_cons_of_neg (by simpa using level)]
      exact ih.congr (by simp only [nextAt_eq depth traversal, given, if_neg level])

theorem reaches_next (traversal : Traversal) : traversal.Reaches traversal.next.2 := by
  obtain ⟨last, reaches, ⟨_, same⟩ | ⟨going, node, _, same⟩⟩ := traversal.next_reaches
  · rwa [same]
  · rw [same]
    exact .round reaches going

theorem reaches_nextAt (depth : Nat) (traversal : Traversal) :
    traversal.Reaches (traversal.nextAt depth).2 := by
  have one := traversal.reaches_next
  fun_induction nextAt depth traversal with
  | case1 traversal after ended => rwa [ended] at one
  | case2 traversal node after given level => rwa [given] at one
  | case3 traversal node after given level ih =>
    rw [given] at one
    exact (ih after.reaches_next).trans one

theorem reaches_stateAfter {call : Traversal → Option Node × Traversal}
    (reaches : ∀ traversal : Traversal, traversal.Reaches (call traversal).2) (start : Traversal)
    (calls : Nat) : start.Reaches (stateAfter call start calls) := by
  induction calls generalizing start with
  | zero => exact .start
  | succ calls ih => exact (ih _).trans (reaches start)

end Traversal

theorem Walk.depth_of_step? {strings : List UInt8} {walk next : Walk} {token : Token}
    (step : walk.step? strings token = some next) :
    next.depth =
      match token with
      | .beginNode _ => walk.depth + 1
      | .endNode => walk.depth - 1
      | .property _ _ | .finish => walk.depth := by
  unfold Walk.step? at step
  cases token with
  | beginNode | endNode | property =>
    dsimp only at step ⊢
    split at step
    · contradiction
    · rw [← Option.some.inj step]
  | finish => contradiction

section Tracks

variable {block strings : List UInt8} {stop : Nat}

def Opened (block strings : List UInt8) (stop : Nat) (node : Node) : Prop :=
  ∃ walk, Passes block strings stop node.body walk ∧ walk.depth = node.depth + 1

def Tracks (block strings : List UInt8) (stop : Nat) (traversal : Traversal) : Prop :=
  traversal.finished = false → traversal.floor ≤ traversal.depth ∧
    ∃ walk, Passes block strings stop traversal.cursor walk ∧ walk.depth = traversal.depth

theorem Tracks.round {traversal : Traversal} (tracks : Tracks block strings stop traversal)
    (going : traversal.finished = false) :
    Tracks block strings stop traversal.round.2 ∧
      ∀ node, traversal.round.1 = some node → Opened block strings stop node := by
  obtain ⟨above, walk, passes, depth⟩ := tracks going
  obtain ⟨token, after, read, ⟨rfl, _⟩ | ⟨next, step, later⟩⟩ := passes.cases
  · simp [Tracks, Traversal.round, read]
  have level := Walk.depth_of_step? step
  rw [depth] at level
  cases token with
  | beginNode name =>
    simp only [Tracks, Traversal.round, read, Option.some.injEq, forall_eq']
    exact ⟨fun _ => ⟨Nat.le_succ_of_le above, next, later, level⟩, next, later, level⟩
  | endNode =>
    -- closing the node it started under ends the traversal, so it never gets below the floor
    by_cases floor : traversal.depth = traversal.floor
    · simp [Tracks, Traversal.round, read, floor]
    simp only [Tracks, Traversal.round, read, if_neg floor, reduceCtorEq, false_implies,
      implies_true, and_true]
    exact fun _ => ⟨by omega, next, later, level⟩
  | property nameOffset value =>
    simp only [Tracks, Traversal.round, read, reduceCtorEq, false_implies, implies_true, and_true]
    exact fun _ => ⟨above, next, later, level⟩
  | finish => simp [Walk.step?] at step

theorem Tracks.of_reaches {start last : Traversal} (tracks : Tracks block strings stop start)
    (reaches : start.Reaches last) : Tracks block strings stop last := by
  induction reaches with
  | start => exact tracks
  | round _ going ih => exact (ih.round going).1

theorem Tracks.readable {start last : Traversal} (tracks : Tracks block strings stop start)
    (reaches : start.Reaches last) (going : last.finished = false) :
    Readable block strings stop last.cursor := by
  obtain ⟨_, walk, passes, _⟩ := tracks.of_reaches reaches going
  exact passes.readable

theorem Tracks.next {traversal after : Traversal} {node : Node}
    (tracks : Tracks block strings stop traversal) (given : traversal.next = (some node, after)) :
    Opened block strings stop node ∧ Tracks block strings stop after := by
  obtain ⟨last, reaches, ⟨_, same⟩ | ⟨going, found, opens, same⟩⟩ := traversal.next_reaches
  · simp [given] at same
  · rw [given, Prod.mk.injEq, Option.some.injEq] at same
    obtain ⟨rfl, rfl⟩ := same
    have turned := (tracks.of_reaches reaches).round going
    exact ⟨turned.2 _ opens, turned.1⟩

theorem Tracks.opened {traversal : Traversal} (tracks : Tracks block strings stop traversal)
    {node : Node} (member : node ∈ traversal.nodes) : Opened block strings stop node := by
  fun_induction Traversal.nodes traversal with
  | case1 => simp at member
  | case2 traversal first after given ih =>
    obtain ⟨opened, later⟩ := tracks.next given
    rcases List.mem_cons.mp member with rfl | behind
    · exact opened
    · exact ih later behind

theorem Opened.tracks_inside {node : Node} (opened : Opened block strings stop node) :
    Tracks block strings stop node.inside := by
  obtain ⟨walk, passes, depth⟩ := opened
  exact fun _ => ⟨Nat.le_refl _, walk, passes, depth⟩

theorem Opened.child {node child : Node} (opened : Opened block strings stop node)
    (member : child ∈ node.children) : Opened block strings stop child :=
  opened.tracks_inside.opened (List.mem_of_mem_filter member)

theorem Opened.descendant {node last : Node} (opened : Opened block strings stop node)
    {components : List String} (descends : components.foldlM Node.child? node = some last) :
    Opened block strings stop last := by
  induction components generalizing node with
  | nil =>
    obtain rfl := Option.some.inj descends
    exact opened
  | cons component rest ih =>
    rw [List.foldlM_cons, Option.bind_eq_bind, Option.bind_eq_some_iff] at descends
    obtain ⟨child, chosen, later⟩ := descends
    exact ih (opened.child (List.mem_of_find?_eq_some chosen)) later

end Tracks

inductive Reachable (tree : DeviceTree) : Node → Prop where
  | listed {node : Node} (member : node ∈ tree.nodes) : Reachable tree node
  | child {node child : Node} (reachable : Reachable tree node)
    (member : child ∈ node.children) : Reachable tree child
  | found {path : String} {node : Node} (found : tree.findNode? path = some node) :
    Reachable tree node

section Tree

variable {tree : DeviceTree} {stop : Nat}

theorem passes_start (stops : (Cursor.start tree.block).stop? = some stop) :
    Passes tree.block tree.strings stop (.start tree.block) .initial where
  place := rfl
  aligned := rfl
  checked := tree.wellFormed
  stops := stops

theorem tracks_traversal (stops : (Cursor.start tree.block).stop? = some stop) :
    Tracks tree.block tree.strings stop tree.traversal :=
  fun _ => ⟨Nat.le_refl _, .initial, passes_start stops, rfl⟩

theorem exists_root (tree : DeviceTree) : ∃ root, tree.root? = some root := by
  obtain ⟨stop, stops⟩ := exists_stop tree.wellFormed
  obtain ⟨token, after, read, ⟨_, complete⟩ | ⟨next, step, _⟩⟩ := (passes_start stops).cases
  · simp [Walk.initial, Walk.complete] at complete
  cases token with
  | beginNode name =>
    have start : Token.read (cursorAt tree.block 0) = .ok (.beginNode name, after) := read
    obtain ⟨body, stands, rfl⟩ := (Token.read_eq_ok_iff rfl).mp start
    have first : tree.traversal.next = _ := Traversal.next_of_stands stands rfl
    exact ⟨_, congrArg Prod.fst first⟩
  | endNode | property | finish => simp [Walk.initial, Walk.step?] at step

theorem opened_of_findNode? (stops : (Cursor.start tree.block).stop? = some stop) {path : String}
    {node : Node} (found : tree.findNode? path = some node) :
    Opened tree.block tree.strings stop node := by
  simp only [findNode?, Option.bind_eq_bind, Option.bind_eq_some_iff] at found
  obtain ⟨components, _, root, first, descends⟩ := found
  have given : tree.traversal.next = (some root, tree.traversal.next.2) := Prod.ext first rfl
  exact ((tracks_traversal stops).next given).1.descendant descends

theorem Reachable.opened (stops : (Cursor.start tree.block).stop? = some stop) {node : Node}
    (reachable : Reachable tree node) : Opened tree.block tree.strings stop node := by
  induction reachable with
  | listed member => exact (tracks_traversal stops).opened member
  | child _ member ih => exact ih.child member
  | found found => exact opened_of_findNode? stops found

theorem nextProperty_property {cursor after : Cursor} {nameOffset : UInt32} {name : String}
    {value : List UInt8} (read : Token.read cursor = .ok (.property nameOffset value, after))
    (named : textAt? tree.strings nameOffset = some name) :
    tree.nextProperty cursor = (some ⟨name, value⟩, after) := by
  simp only [nextProperty, read, named, Option.map_some]

theorem nextProperty_other {cursor after : Cursor} {token : Token}
    (read : Token.read cursor = .ok (token, after)) (other : token.tag ≠ Tag.property) :
    tree.nextProperty cursor = (none, cursor) := by
  cases token with
  | property => exact absurd rfl other
  | beginNode | endNode | finish => simp only [nextProperty, read]

theorem Passes.nextProperty {cursor : Cursor} {walk : Walk}
    (passes : Passes tree.block tree.strings stop cursor walk) :
    (∃ property after, tree.nextProperty cursor = (some property, after) ∧
        ∃ next, Passes tree.block tree.strings stop after next) ∨
      tree.nextProperty cursor = (none, cursor) := by
  obtain ⟨token, after, read, goes⟩ := passes.cases
  -- a call that yields no property does not move, so further calls yield none either
  by_cases other : token.tag = Tag.property
  · cases token with
    | property nameOffset value =>
      obtain ⟨name, named⟩ := passes.readable.named nameOffset value after read
      obtain ⟨absurdity, _⟩ | ⟨next, _, later⟩ := goes
      · cases absurdity
      · exact .inl ⟨_, after, nextProperty_property read named, next, later⟩
    | beginNode | endNode | finish =>
      simp [Token.tag, Tag.beginNode, Tag.endNode, Tag.finish, Tag.property] at other
  · exact .inr (nextProperty_other read other)

theorem Passes.drains {cursor : Cursor} {walk : Walk}
    (passes : Passes tree.block tree.strings stop cursor walk) :
    Drains tree.nextProperty cursor (tree.propertiesFrom cursor) := by
  fun_induction propertiesFrom tree cursor generalizing walk with
  | case1 cursor after ended =>
    obtain ⟨property, _, given, _⟩ | still := passes.nextProperty
    · simp [ended] at given
    · exact drains_nil still still
  | case2 cursor property after given ih =>
    obtain ⟨_, _, same, next, later⟩ | still := passes.nextProperty
    · rw [given, Prod.mk.injEq] at same
      rw [← same.2] at later
      exact (ih later).cons given
    · simp [given] at still

theorem Passes.stateAfter_nextProperty {cursor : Cursor} {walk : Walk}
    (passes : Passes tree.block tree.strings stop cursor walk) (calls : Nat) :
    ∃ next, Passes tree.block tree.strings stop (stateAfter tree.nextProperty cursor calls)
      next := by
  induction calls generalizing cursor walk with
  | zero => exact ⟨walk, passes⟩
  | succ calls ih =>
    obtain ⟨property, after, given, next, later⟩ | still := passes.nextProperty
    · rw [stateAfter, given]
      exact ih later
    · rw [stateAfter, still]
      exact ih passes

end Tree

structure Traversal.Safe (block strings : List UInt8) (stop : Nat)
    (call : Traversal → Option Node × Traversal) (start : Traversal) (nodes : List Node) :
    Prop where
  drains : Drains call start nodes
  calls : ∀ calls, start.Reaches (stateAfter call start calls)
  reads : ∀ traversal, start.Reaches traversal → traversal.finished = false →
    Readable block strings stop traversal.cursor

structure Traversable (block strings : List UInt8) (tree : DeviceTree) (stop : Nat) : Prop where
  stops : (Cursor.start block).stop? = some stop
  root : ∃ root, tree.root? = some root
  nodes : Traversal.Safe block strings stop Traversal.next tree.traversal tree.nodes
  children : ∀ node, Reachable tree node →
    Traversal.Safe block strings stop (Traversal.nextAt (node.depth + 1)) node.inside node.children
  properties : ∀ node, Reachable tree node →
    Drains tree.nextProperty node.body (tree.properties node)
  properties_reads : ∀ node, Reachable tree node → ∀ calls,
    Readable block strings stop (stateAfter tree.nextProperty node.body calls)

theorem blocks_of_ofBytes {bytes : List UInt8} {tree : DeviceTree}
    (accepted : ofBytes bytes = .ok tree) :
    tree.block = structureBlock bytes ∧ tree.strings = stringsBlock bytes :=
  (parts_of_ofBytes accepted).2.2

theorem ofBytes_traversable {bytes : List UInt8} {tree : DeviceTree}
    (accepted : ofBytes bytes = .ok tree) :
    ∃ stop, Traversable (structureBlock bytes) (stringsBlock bytes) tree stop := by
  obtain ⟨block, strings⟩ := blocks_of_ofBytes accepted
  rw [← block, ← strings]
  obtain ⟨stop, stops⟩ := exists_stop tree.wellFormed
  have whole := tracks_traversal stops
  refine ⟨stop, ?_⟩
  exact {
    stops := stops
    root := exists_root tree
    nodes := {
      drains := tree.traversal.next_drains
      calls := Traversal.reaches_stateAfter Traversal.reaches_next _
      reads := fun _ => whole.readable }
    children := by
      intro node reachable
      have inside := (reachable.opened stops).tracks_inside
      exact {
        drains := node.inside.nextAt_drains (node.depth + 1)
        calls := Traversal.reaches_stateAfter (Traversal.reaches_nextAt _) _
        reads := fun _ => inside.readable }
    properties := by
      intro node reachable
      obtain ⟨walk, passes, _⟩ := reachable.opened stops
      exact passes.drains
    properties_reads := by
      intro node reachable calls
      obtain ⟨walk, passes, _⟩ := reachable.opened stops
      obtain ⟨next, later⟩ := passes.stateAfter_nextProperty calls
      exact later.readable }

-- no-ops on both sides of every token, and a property behind a child
def sparseBlob : List UInt8 :=
  let root := (Writer.empty.nop.beginNode "").nop
  let child := (root.beginNode "soc").nop.endNode.nop
  (child.cellProperty "late" 1).nop.endNode.nop.finish.1

theorem sparseBlob_traversable :
    ∃ tree stop, ofBytes sparseBlob = .ok tree ∧
      Traversable (structureBlock sparseBlob) (stringsBlock sparseBlob) tree stop := by
  have read : (ofBytes sparseBlob).toOption.isSome = true := by decide +kernel
  cases accepted : ofBytes sparseBlob with
  | error error => simp [accepted, Except.toOption] at read
  | ok tree =>
    obtain ⟨stop, traversable⟩ := ofBytes_traversable accepted
    exact ⟨tree, stop, rfl, traversable⟩

end EarlyBoot.DeviceTree
