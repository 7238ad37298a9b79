import EarlyBoot.Proofs.DeviceTree.Continuation

set_option autoImplicit false

namespace EarlyBoot.DeviceTree

section Tokens

variable {strings more block longer : List UInt8} {offset : Nat} {token : Token} {item : Item}
  {items : List Item} {walk : Walk}

theorem Token.Means.step?_eq (means : token.Means strings item) (texts : strings <+: more)
    (walk : Walk) : walk.step? more token = walk.step? strings token := by
  cases means with
  | property value named =>
    rw [Walk.step?, Walk.step?, named, textAt?_extend named texts]
  | beginNode | endNode | finish => rfl

theorem checkFrom_of_tells (tells : Tells strings block offset items) (ends : .finish ∈ items)
    (start : offset % 4 = 0) (blocks : block <+: longer) (texts : strings <+: more) :
    checkFrom more (cursorAt longer offset) walk =
      checkFrom strings (cursorAt block offset) walk := by
  induction items generalizing offset walk with
  | nil => cases ends
  | cons item rest ih =>
    obtain ⟨token, next, stands, means, later⟩ := tells
    have read := stands.read start
    have readLonger := (stands.extend blocks).read start
    have step := means.step?_eq texts walk
    by_cases last : token = .finish
    · subst last
      rw [checkFrom_finish read, checkFrom_finish readLonger]
      rfl
    · have going : .finish ∈ rest := by
        rcases List.mem_cons.mp ends with rfl | inside
        · cases means
          exact absurd rfl last
        · exact inside
      cases stepped : walk.step? strings token with
      | none =>
        rw [checkFrom_refused read last stepped,
          checkFrom_refused readLonger last (step.trans stepped)]
        rfl
      | some after =>
        rw [checkFrom_step read stepped, checkFrom_step readLonger (step.trans stepped)]
        exact ih later going stands.next_mod

end Tokens

namespace Writer

def opening (steps : List Step) : List Step :=
  steps.takeWhile (· ≠ .finish)

variable {steps : List Step} {blob : List UInt8}

theorem finish_not_mem_opening (steps : List Step) : .finish ∉ opening steps :=
  fun member => by simpa using List.mem_takeWhile_imp member

theorem finish_not_mem_items (steps : List Step) :
    .finish ∉ (opening steps).filterMap Step.item? := by
  intro member
  obtain ⟨step, inside, found⟩ := List.mem_filterMap.mp member
  cases step with
  | finish => exact finish_not_mem_opening steps inside
  | _ => simp [Step.item?] at found

def settled (steps : List Step) : Writer :=
  empty.after (opening steps ++ [.finish])

theorem run_opening (steps : List Step) :
    empty.run (opening steps ++ [.finish]) = [(settled steps).blob] :=
  run_finish empty (finish_not_mem_opening steps)

theorem opening_append {first : List Step} (going : .finish ∉ first) (later : List Step) :
    opening (first ++ .finish :: later) = first := by
  have before : ∀ step ∈ first, decide (step ≠ .finish) = true := fun step member =>
    decide_eq_true (ne_of_mem_of_not_mem member going)
  rw [opening, List.takeWhile_append_of_pos before, List.takeWhile_cons_of_neg (by simp),
    List.append_nil]

theorem exists_after_settled (finished : blob ∈ empty.run steps) :
    ∃ later, blob = ((settled steps).after later).blob := by
  by_cases ends : .finish ∈ steps
  · obtain ⟨first, later, rfl, going⟩ := List.eq_append_cons_of_mem ends
    have split : first ++ .finish :: later = first ++ [.finish] ++ later := by simp
    have opened : settled (first ++ .finish :: later) = empty.after (first ++ [.finish]) := by
      rw [settled, opening_append going]
    rw [split, run_append, run_finish empty going] at finished
    rw [opened]
    rcases List.mem_append.mp finished with now | behind
    · exact ⟨[], List.mem_singleton.mp now⟩
    · exact mem_run behind
  · rw [run_going empty ends] at finished
    cases finished

theorem settled_tells (plain : ∀ item ∈ (opening steps).filterMap Step.item?, item.PlainNode)
    (small : (settled steps).Small) :
    Tells (settled steps).strings (settled steps).block 0
      (((opening steps).filterMap Step.item?).map Item.seen ++ [.finish]) := by
  have items : (opening steps ++ [Step.finish]).filterMap Step.item? =
      (opening steps).filterMap Step.item? ++ [.finish] := List.filterMap_append
  have told : Tells (settled steps).strings (settled steps).block 0 _ :=
    after_tells_seen (items ▸ List.forall_mem_append.mpr ⟨plain, by simp [Item.PlainNode]⟩) small
  rwa [items, List.map_append] at told

section Later

variable {later : List Step}

theorem settled_blob_lt (small : ((settled steps).after later).blob.length < UInt32.size) :
    (settled steps).blob.length < UInt32.size := by
  have grows := after_grows (settled steps) later
  have block := grows.1.length_le
  have strings := grows.2.length_le
  rw [length_blob] at small ⊢
  omega

theorem later_accepted (small : ((settled steps).after later).blob.length < UInt32.size)
    (valid : checkStructure (settled steps).strings (settled steps).block = .ok ()) :
    ∃ tree same, ofBytes (settled steps).blob = .ok tree ∧
      ofBytes ((settled steps).after later).blob = .ok same ∧ SameReading tree same := by
  obtain ⟨blocks, texts⟩ := after_grows (settled steps) later
  obtain ⟨tree, read, block, strings⟩ := ofBytes_blob (settled_blob_lt small) valid
  obtain ⟨same, laterRead, laterBlock, laterStrings⟩ :=
    ofBytes_blob small (checkStructure_extend valid blocks texts)
  have continues : Continues tree same :=
    ⟨block ▸ laterBlock ▸ blocks, strings ▸ laterStrings ▸ texts⟩
  exact ⟨tree, same, read, laterRead, continues.sameReading⟩

theorem later_refused (small : ((settled steps).after later).blob.length < UInt32.size)
    {items : List Item} (ends : .finish ∈ items)
    (tells : Tells (settled steps).strings (settled steps).block 0 items)
    (invalid : checkStructure (settled steps).strings (settled steps).block ≠ .ok ()) :
    ∃ offset, ofBytes (settled steps).blob = .error (.badStructure offset) ∧
      ofBytes ((settled steps).after later).blob = .error (.badStructure offset) := by
  obtain ⟨blocks, texts⟩ := after_grows (settled steps) later
  cases checked : checkStructure (settled steps).strings (settled steps).block with
  | ok _ => exact absurd checked invalid
  | error error =>
    obtain ⟨offset, rfl⟩ := checkFrom_eq_error checked
    have laterChecked := (checkFrom_of_tells tells ends rfl blocks texts).trans checked
    exact ⟨offset, ofBytes_blob_error (settled_blob_lt small) checked,
      ofBytes_blob_error small laterChecked⟩

end Later

theorem run_settles (steps : List Step)
    (plain : ∀ item ∈ (opening steps).filterMap Step.item?, item.Plain) :
    ∃ first, empty.run (opening steps ++ [.finish]) = [first] ∧
      ∀ blob ∈ empty.run steps, blob.length < UInt32.size →
        (OneRoot ((opening steps).filterMap Step.item?) →
          ∃ tree same, ofBytes first = .ok tree ∧ ofBytes blob = .ok same ∧
            SameReading tree same) ∧
        (¬OneRoot ((opening steps).filterMap Step.item?) →
          ∃ offset, ofBytes first = .error (.badStructure offset) ∧
            ofBytes blob = .error (.badStructure offset)) := by
  refine ⟨(settled steps).blob, run_opening steps, fun blob finished small => ?_⟩
  obtain ⟨later, rfl⟩ := exists_after_settled finished
  have tells := settled_tells (fun item member => (plain item member).node)
    (small_of_blob_lt (settled_blob_lt small))
  rw [List.map_congr_left fun item member => (plain item member).seen_eq, List.map_id'] at tells
  have verdict := checkStructure_iff_oneRoot tells (finish_not_mem_items steps)
  constructor
  · intro root
    exact later_accepted small (verdict.mpr root)
  · intro unbalanced
    exact later_refused small (by simp) tells (mt verdict.mp unbalanced)

-- what stands between the end tokens would not be accepted in front of the first
def refinishedSteps : List Step :=
  [.nop, .beginNode "", .cellProperty "cells" 2, .beginNode "soc", .nop, .endNode, .endNode,
    .finish, .endNode, .property "late" [1], .beginNode "", .finish]

-- the root is closed behind the first end token, which is too late
def unclosedSteps : List Step :=
  [.beginNode "", .finish, .endNode, .finish]

theorem refinished_settles :
    (∃ first, empty.run (opening refinishedSteps ++ [.finish]) = [first] ∧
      (empty.run refinishedSteps).length = 2 ∧
      ∀ blob ∈ empty.run refinishedSteps, ∃ tree same, ofBytes first = .ok tree ∧
        ofBytes blob = .ok same ∧ SameReading tree same) ∧
    ∃ first, empty.run (opening unclosedSteps ++ [.finish]) = [first] ∧
      (empty.run unclosedSteps).length = 2 ∧
      ∀ blob ∈ empty.run unclosedSteps, ∃ offset, ofBytes first = .error (.badStructure offset) ∧
        ofBytes blob = .error (.badStructure offset) := by
  constructor
  · have root : OneRoot ((opening refinishedSteps).filterMap Step.item?) :=
      ⟨"", _, .property _ (.node "soc" .empty .empty), rfl⟩
    have small : ∀ blob ∈ empty.run refinishedSteps, blob.length < UInt32.size := by
      decide +kernel
    obtain ⟨first, opened, settles⟩ := run_settles refinishedSteps (by decide +kernel)
    exact ⟨first, opened, by decide +kernel, fun blob finished =>
      (settles blob finished (small blob finished)).1 root⟩
  · have unbalanced : ¬OneRoot ((opening unclosedSteps).filterMap Step.item?) := by
      rintro ⟨name, below, _, same⟩
      simp [opening, unclosedSteps, Step.item?] at same
    have small : ∀ blob ∈ empty.run unclosedSteps, blob.length < UInt32.size := by
      decide +kernel
    obtain ⟨first, opened, settles⟩ := run_settles unclosedSteps (by decide +kernel)
    exact ⟨first, opened, by decide +kernel, fun blob finished =>
      (settles blob finished (small blob finished)).2 unbalanced⟩

end Writer

end EarlyBoot.DeviceTree
