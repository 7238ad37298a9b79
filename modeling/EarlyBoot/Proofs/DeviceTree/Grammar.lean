import EarlyBoot.Proofs.DeviceTree.Spelling

set_option autoImplicit false

namespace EarlyBoot.DeviceTree

def Names (strings : List UInt8) (nameOffset : UInt32) : Prop :=
  ∃ name, Begins name (strings.drop nameOffset.toNat)

def Spells (block : List UInt8) : Nat → List Token → Prop
  | _, [] => True
  | offset, token :: rest => ∃ next, Stands block token offset next ∧ Spells block next rest

inductive Symbol where
  | block
  | node
  | contents
  deriving DecidableEq, Repr

inductive Derives (strings : List UInt8) : Symbol → List Token → Prop where
  | block {tokens : List Token} (node : Derives strings .node tokens) :
    Derives strings .block (tokens ++ [.finish])
  | node {tokens : List Token} (name : String) (contents : Derives strings .contents tokens) :
    Derives strings .node (.beginNode name :: tokens ++ [.endNode])
  | empty : Derives strings .contents []
  | property {nameOffset : UInt32} {tokens : List Token} (value : List UInt8)
    (named : Names strings nameOffset) (rest : Derives strings .contents tokens) :
    Derives strings .contents (.property nameOffset value :: tokens)
  | child {first tokens : List Token} (node : Derives strings .node first)
    (rest : Derives strings .contents tokens) : Derives strings .contents (first ++ tokens)

inductive Walk.Accepts (strings : List UInt8) : Walk → List Token → Prop where
  | finish {walk : Walk} (complete : walk.complete = true) : Accepts strings walk [.finish]
  | step {walk next : Walk} {token : Token} {rest : List Token}
    (step : walk.step? strings token = some next) (accepts : Accepts strings next rest) :
    Accepts strings walk (token :: rest)

inductive Closes (strings : List UInt8) : Nat → List Token → Prop where
  | finish : Closes strings 0 [.finish]
  | close {depth : Nat} {inner rest : List Token} (contents : Derives strings .contents inner)
    (outer : Closes strings depth rest) : Closes strings (depth + 1) (inner ++ .endNode :: rest)

variable {strings : List UInt8}

theorem names_iff {nameOffset : UInt32} :
    Names strings nameOffset ↔ ∃ name, textAt? strings nameOffset = some name :=
  exists_congr fun _ => terminatedText?_eq_some_iff.symm

namespace Closes

variable {depth : Nat} {rest : List Token}

theorem beginNode (name : String) (closes : Closes strings (depth + 2) rest) :
    Closes strings (depth + 1) (.beginNode name :: rest) := by
  cases closes with
  | @close _ inner _ contents outer =>
    cases outer with
    | @close _ later rest laterContents outer =>
      -- what the new node leaves open becomes contents of the node around it
      have whole := Closes.close (.child (.node name contents) laterContents) outer
      simpa using whole

theorem property {nameOffset : UInt32} (value : List UInt8) (named : Names strings nameOffset)
    (closes : Closes strings (depth + 1) rest) :
    Closes strings (depth + 1) (.property nameOffset value :: rest) := by
  cases closes with
  | close contents outer => exact .close (.property value named contents) outer

theorem endNode (closes : Closes strings depth rest) :
    Closes strings (depth + 1) (.endNode :: rest) :=
  .close .empty closes

end Closes

namespace Walk

theorem ne_finish {walk next : Walk} {token : Token} (step : walk.step? strings token = some next) :
    token ≠ .finish := by
  rintro rfl
  simp [step?] at step

theorem step?_property {walk next : Walk} {nameOffset : UInt32} {value : List UInt8} :
    walk.step? strings (.property nameOffset value) = some next ↔
      walk.depth ≠ 0 ∧ Names strings nameOffset ∧ next = walk := by
  rw [names_iff]
  by_cases refused : walk.depth = 0 ∨ (textAt? strings nameOffset).isNone = true
  · rw [step?, if_pos refused]
    simp only [reduceCtorEq, false_iff]
    rintro ⟨inside, ⟨name, named⟩, _⟩
    simp [inside, named] at refused
  · rw [step?, if_neg refused, Option.some.injEq, eq_comm]
    obtain ⟨inside, known⟩ := not_or.mp refused
    have named := Option.ne_none_iff_exists'.mp (by simpa using known)
    exact ⟨fun same => ⟨inside, named, same⟩, fun accepted => accepted.2.2⟩

variable {depth : Nat} {tokens rest : List Token}

theorem Accepts.closes (accepts : Accepts strings ⟨depth, true⟩ tokens) :
    Closes strings depth tokens := by
  -- by the tokens that are left; the depth says how many nodes they still have to close
  generalize same : Walk.mk depth true = walk at accepts
  induction accepts generalizing depth with
  | finish complete =>
    subst same
    obtain rfl : depth = 0 := by simpa [Walk.complete] using complete
    exact .finish
  | @step walk next token rest step accepts ih =>
    subst same
    cases token with
    | beginNode name =>
      cases depth with
      | zero => simp [step?] at step
      | succ depth => exact (ih (by simpa [step?] using step)).beginNode name
    | endNode =>
      cases depth with
      | zero => simp [step?] at step
      | succ depth => exact (ih (by simpa [step?] using step)).endNode
    | property nameOffset value =>
      cases depth with
      | zero => simp [step?] at step
      | succ depth =>
        obtain ⟨_, named, same⟩ := step?_property.mp step
        exact (ih same.symm).property value named
    | finish => simp [step?] at step

theorem Accepts.append {symbol : Symbol} (derives : Derives strings symbol tokens)
    (inside : symbol ≠ .block) (accepts : Accepts strings ⟨depth + 1, true⟩ rest) :
    Accepts strings ⟨depth + 1, true⟩ (tokens ++ rest) := by
  induction derives generalizing depth rest with
  | block => exact absurd rfl inside
  | @node tokens name contents ih =>
    have closed : Accepts strings ⟨depth + 2, true⟩ (.endNode :: rest) :=
      .step (by simp [step?]) accepts
    have opened := ih (by decide) closed
    simp only [List.cons_append, List.append_assoc, List.nil_append]
    exact .step (by simp [step?]) opened
  | empty => exact accepts
  | property value named contents ih =>
    have inside : (Walk.mk (depth + 1) true).depth ≠ 0 := Nat.succ_ne_zero depth
    exact .step (step?_property.mpr ⟨inside, named, rfl⟩) (ih (by decide) accepts)
  | child node contents nodeIh contentsIh =>
    rw [List.append_assoc]
    exact nodeIh (by decide) (contentsIh (by decide) accepts)

theorem accepts_of_closes (closes : Closes strings depth tokens) :
    Accepts strings ⟨depth, true⟩ tokens := by
  induction closes with
  | finish => exact .finish rfl
  | close contents outer ih => exact .append contents (by decide) (.step (by simp [step?]) ih)

theorem accepts_initial_iff :
    Accepts strings initial tokens ↔ Derives strings .block tokens := by
  constructor
  · intro accepts
    cases accepts with
    | finish complete => simp [initial, Walk.complete] at complete
    | @step _ next token rest step accepts =>
      cases token with
      | beginNode name =>
        obtain rfl : ⟨1, true⟩ = next := by simpa [initial, step?] using step
        cases accepts.closes with
        | @close _ inner _ contents outer =>
          cases outer
          have whole := Derives.block (.node name contents)
          simpa using whole
      | endNode | property _ _ | finish => simp [initial, step?] at step
  · intro derives
    cases derives with
    | block node =>
      cases node with
      | @node inner name contents =>
        have closes : Closes strings 1 (inner ++ [.endNode, .finish]) := .close contents .finish
        simp only [List.cons_append, List.append_assoc, List.nil_append]
        exact .step rfl (accepts_of_closes closes)

end Walk

variable {block : List UInt8} {offset : Nat} {walk : Walk}

theorem checkFrom_finish {cursor after : Cursor}
    (read : Token.read cursor = .ok (.finish, after)) :
    checkFrom strings cursor walk =
      if walk.complete then .ok () else .error (.badStructure cursor.offset) := by
  rw [checkFrom]
  split
  next error failed => simp [failed] at read
  next => rfl
  next found later notFinish same =>
    rw [read, Except.ok.injEq, Prod.mk.injEq] at same
    exact absurd same.1.symm notFinish

theorem checkFrom_of_read {cursor after : Cursor} {token : Token}
    (read : Token.read cursor = .ok (token, after)) (going : token ≠ .finish) :
    checkFrom strings cursor walk =
      match walk.step? strings token with
      | none => .error (.badStructure cursor.offset)
      | some next => checkFrom strings after next := by
  rw [checkFrom]
  split
  next error failed => simp [failed] at read
  next last finished => simp_all
  next found later _ same =>
    rw [read, Except.ok.injEq, Prod.mk.injEq] at same
    obtain ⟨rfl, rfl⟩ := same
    rfl

theorem checkFrom_step {cursor after : Cursor} {token : Token} {next : Walk}
    (read : Token.read cursor = .ok (token, after)) (step : walk.step? strings token = some next) :
    checkFrom strings cursor walk = checkFrom strings after next := by
  rw [checkFrom_of_read read (Walk.ne_finish step), step]

theorem checkFrom_refused {cursor after : Cursor} {token : Token}
    (read : Token.read cursor = .ok (token, after)) (going : token ≠ .finish)
    (refused : walk.step? strings token = none) :
    checkFrom strings cursor walk = .error (.badStructure cursor.offset) := by
  rw [checkFrom_of_read read going, refused]

theorem checkFrom_eq_ok_iff (start : offset % 4 = 0) :
    checkFrom strings (cursorAt block offset) walk = .ok () ↔
      ∃ tokens, Spells block offset tokens ∧ Walk.Accepts strings walk tokens := by
  constructor
  · intro checked
    generalize same : cursorAt block offset = cursor at checked
    fun_induction checkFrom strings cursor walk generalizing offset with
    | case1 | case3 | case4 => contradiction
    | case2 cursor walk after read complete =>
      subst same
      obtain ⟨next, stands, _⟩ := (Token.read_eq_ok_iff start).mp read
      exact ⟨[.finish], ⟨next, stands, trivial⟩, .finish complete⟩
    | case5 cursor walk token after notFinish read next step ih =>
      subst same
      obtain ⟨offset, stands, rfl⟩ := (Token.read_eq_ok_iff start).mp read
      obtain ⟨tokens, spells, accepts⟩ := ih stands.next_mod rfl checked
      exact ⟨token :: tokens, ⟨offset, stands, spells⟩, .step step accepts⟩
  · rintro ⟨tokens, spells, accepts⟩
    induction accepts generalizing offset with
    | finish complete =>
      obtain ⟨next, stands, _⟩ := spells
      have read := (Token.read_eq_ok_iff start).mpr ⟨next, stands, rfl⟩
      rw [checkFrom_finish read, if_pos complete]
    | step step accepts ih =>
      obtain ⟨next, stands, later⟩ := spells
      have read := (Token.read_eq_ok_iff start).mpr ⟨next, stands, rfl⟩
      rw [checkFrom_step read step]
      exact ih stands.next_mod later

theorem checkStructure_eq_ok_iff :
    checkStructure strings block = .ok () ↔
      ∃ tokens, Spells block 0 tokens ∧ Derives strings .block tokens := by
  have whole : checkFrom strings (cursorAt block 0) .initial = .ok () ↔ _ :=
    checkFrom_eq_ok_iff rfl
  simp only [Walk.accepts_initial_iff] at whole
  exact whole

theorem Token.read_eq_error {cursor : Cursor} {error : Error} (failed : read cursor = .error error) :
    ∃ offset, error = .badStructure offset := by
  fun_induction read cursor with
  | case1 cursor missing => exact ⟨_, (Except.error.inj failed).symm⟩
  | case2 cursor noOp ih => exact ih failed
  | case3 cursor tag found notNop unknown => exact ⟨_, (Except.error.inj failed).symm⟩
  | case4 => contradiction

theorem checkFrom_eq_error {cursor : Cursor} {error : Error}
    (failed : checkFrom strings cursor walk = .error error) :
    ∃ offset, error = .badStructure offset := by
  fun_induction checkFrom strings cursor walk with
  | case1 cursor walk other unread =>
    obtain rfl := Except.error.inj failed
    exact Token.read_eq_error unread
  | case2 => contradiction
  | case3 => exact ⟨_, (Except.error.inj failed).symm⟩
  | case4 => exact ⟨_, (Except.error.inj failed).symm⟩
  | case5 cursor walk token after notFinish read next step ih => exact ih failed

end EarlyBoot.DeviceTree
