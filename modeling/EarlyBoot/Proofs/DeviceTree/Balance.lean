import EarlyBoot.Proofs.DeviceTree.Reading

set_option autoImplicit false

namespace EarlyBoot.DeviceTree

inductive Balanced : List Item → Prop where
  | empty : Balanced []
  | property (entry : Property) {rest : List Item} (later : Balanced rest) :
    Balanced (.property entry :: rest)
  | node (name : String) {below beside : List Item} (inner : Balanced below)
    (outer : Balanced beside) : Balanced (.beginNode name :: (below ++ .endNode :: beside))

theorem Balanced.properties {rest : List Item} (later : Balanced rest)
    (properties : List Property) : Balanced (properties.map .property ++ rest) := by
  induction properties with
  | nil => exact later
  | cons entry others ih => exact .property entry ih

def OneRoot (items : List Item) : Prop :=
  ∃ name below, Balanced below ∧ items = .beginNode name :: (below ++ [.endNode])

theorem OneRoot.balanced_append {items beside : List Item} (root : OneRoot items)
    (outer : Balanced beside) : Balanced (items ++ beside) := by
  obtain ⟨name, below, inner, rfl⟩ := root
  simpa using Balanced.node name inner outer

def Symbol.Forms (items : List Item) : Symbol → Prop
  | .block => ∃ root, OneRoot root ∧ items = root ++ [.finish]
  | .node => OneRoot items
  | .contents => Balanced items

section Grammar

variable {strings block : List UInt8} {offset : Nat} {tokens : List Token} {items : List Item}

theorem Tells.spells (tells : Tells strings block offset items) :
    ∃ tokens, Spells block offset tokens ∧ List.Forall₂ (Token.Means strings) tokens items := by
  induction items generalizing offset with
  | nil => exact ⟨[], trivial, .nil⟩
  | cons item rest ih =>
    obtain ⟨token, next, stands, means, later⟩ := tells
    obtain ⟨tokens, spells, same⟩ := ih later
    exact ⟨token :: tokens, ⟨next, stands, spells⟩, .cons means same⟩

theorem exists_append_of_forall₂ {α β : Type} {relation : α → β → Prop} {whole : List α}
    {first second : List β} (related : List.Forall₂ relation whole (first ++ second)) :
    ∃ lower upper, whole = lower ++ upper ∧ List.Forall₂ relation lower first ∧
      List.Forall₂ relation upper second :=
  ⟨_, _, (List.take_append_drop first.length whole).symm,
    List.forall₂_take_append whole first second related,
    List.forall₂_drop_append whole first second related⟩

theorem exists_append_of_append_forall₂ {α β : Type} {relation : α → β → Prop} {whole : List β}
    {first second : List α} (related : List.Forall₂ relation (first ++ second) whole) :
    ∃ lower upper, whole = lower ++ upper ∧ List.Forall₂ relation first lower ∧
      List.Forall₂ relation second upper := by
  obtain ⟨lower, upper, same, front, back⟩ := exists_append_of_forall₂ related.flip
  exact ⟨lower, upper, same, front.flip, back.flip⟩

theorem Balanced.derives (balanced : Balanced items)
    (means : List.Forall₂ (Token.Means strings) tokens items) :
    Derives strings .contents tokens := by
  induction balanced generalizing tokens with
  | empty =>
    cases means
    exact .empty
  | property entry later ih =>
    cases means with
    | cons first others =>
      cases first with
      | property value named =>
        exact .property value ⟨_, terminatedText?_eq_some_iff.mp named⟩ (ih others)
  | node name inner outer innerIh outerIh =>
    cases means with
    | cons opening body =>
      cases opening
      obtain ⟨below, rest, rfl, belowMean, restMean⟩ := exists_append_of_forall₂ body
      cases restMean with
      | cons closing besideMean =>
        cases closing
        have whole := Derives.child (.node name (innerIh belowMean)) (outerIh besideMean)
        simpa using whole

theorem OneRoot.derives (root : OneRoot items)
    (means : List.Forall₂ (Token.Means strings) tokens items) : Derives strings .node tokens := by
  obtain ⟨name, below, inner, rfl⟩ := root
  cases means with
  | cons opening body =>
    cases opening
    obtain ⟨tokens, rest, rfl, belowMean, restMean⟩ := exists_append_of_forall₂ body
    cases restMean with
    | cons closing none =>
      cases closing
      cases none
      exact .node name (inner.derives belowMean)

theorem Derives.forms {symbol : Symbol} (derives : Derives strings symbol tokens)
    (means : List.Forall₂ (Token.Means strings) tokens items) : symbol.Forms items := by
  induction derives generalizing items with
  | block node ih =>
    obtain ⟨root, last, rfl, rootMeans, lastMeans⟩ := exists_append_of_append_forall₂ means
    cases lastMeans with
    | cons ending none =>
      cases ending
      cases none
      exact ⟨root, ih rootMeans, rfl⟩
  | node name contents ih =>
    cases means with
    | cons opening body =>
      cases opening
      obtain ⟨below, last, rfl, belowMeans, lastMeans⟩ := exists_append_of_append_forall₂ body
      cases lastMeans with
      | cons closing none =>
        cases closing
        cases none
        exact ⟨name, below, ih belowMeans, rfl⟩
  | empty =>
    cases means
    exact .empty
  | property value named rest ih =>
    cases means with
    | cons first others =>
      cases first
      exact .property _ (ih others)
  | child node rest nodeIh restIh =>
    obtain ⟨root, beside, rfl, rootMeans, besideMeans⟩ := exists_append_of_append_forall₂ means
    exact (nodeIh rootMeans).balanced_append (restIh besideMeans)

end Grammar

section Verdict

variable {strings more block : List UInt8} {offset next last : Nat} {token other : Token}
  {tokens : List Token} {items : List Item} {walk : Walk}

theorem Stands.unique (stands : Stands block token offset next)
    (again : Stands block other offset last) (start : offset % 4 = 0) :
    token = other ∧ next = last := by
  have same := (stands.read start).symm.trans (again.read start)
  simp only [cursorAt, Except.ok.injEq, Prod.mk.injEq, Cursor.mk.injEq] at same
  exact ⟨same.1, same.2.1⟩

theorem Walk.Accepts.means (accepts : Walk.Accepts more walk tokens)
    (spells : Spells block offset tokens) (start : offset % 4 = 0)
    (tells : Tells strings block offset (items ++ [.finish])) (going : .finish ∉ items) :
    List.Forall₂ (Token.Means strings) tokens (items ++ [.finish]) := by
  induction accepts generalizing offset items with
  | finish complete =>
    obtain ⟨next, stands, _⟩ := spells
    cases items with
    | nil => exact .cons .finish .nil
    | cons item rest =>
      obtain ⟨token, last, again, means, _⟩ := tells
      obtain ⟨rfl, _⟩ := stands.unique again start
      cases means
      exact absurd List.mem_cons_self going
  | step step accepts ih =>
    obtain ⟨next, stands, later⟩ := spells
    cases items with
    | nil =>
      obtain ⟨token, last, again, means, _⟩ := tells
      obtain ⟨rfl, _⟩ := stands.unique again start
      cases means
      exact absurd rfl (Walk.ne_finish step)
    | cons item rest =>
      obtain ⟨token, last, again, means, tells⟩ := tells
      obtain ⟨rfl, rfl⟩ := stands.unique again start
      exact .cons means (ih later stands.next_mod tells (List.not_mem_of_not_mem_cons going))

theorem checkStructure_iff_oneRoot (tells : Tells strings block 0 (items ++ [.finish]))
    (going : .finish ∉ items) : checkStructure strings block = .ok () ↔ OneRoot items := by
  rw [checkStructure_eq_ok_iff]
  constructor
  · rintro ⟨tokens, spells, derives⟩
    have accepts := Walk.accepts_initial_iff.mpr derives
    obtain ⟨root, formed, same⟩ := derives.forms (accepts.means spells rfl tells going)
    rwa [List.append_cancel_right same]
  · intro root
    obtain ⟨tokens, spells, means⟩ := tells.spells
    obtain ⟨node, ending, rfl, nodeMeans, endingMeans⟩ := exists_append_of_forall₂ means
    cases endingMeans with
    | cons ended none =>
      cases ended
      cases none
      exact ⟨_, spells, .block (root.derives nodeMeans)⟩

end Verdict

end EarlyBoot.DeviceTree
