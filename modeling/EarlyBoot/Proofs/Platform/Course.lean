import EarlyBoot.Proofs.Platform.Migration

set_option autoImplicit false

namespace EarlyBoot.Platform.Migration

structure Request where
  memory : Memory
  contextPointer : UInt64
  relocation : Relocation
  planned : (Relocation.plan relocation.temporaryBase relocation.permanentBase
    relocation.size).result = .ok relocation

structure Passage where
  relocation : Relocation
  before : Migration
  answer : Except Failure Int64
  after : Migration

def Request.passage (request : Request) (stage : MigrationStage) : Passage :=
  let before : Migration := ⟨request.memory, request.contextPointer, stage⟩
  let (attempt, after) := request.relocation.migrate before
  ⟨request.relocation, before, attempt.result, after⟩

def course : MigrationStage → List Request → List Passage
  | _, [] => []
  | stage, request :: rest =>
    let passage := request.passage stage
    passage :: course passage.after.stage rest

namespace Passage

def Writes (passage : Passage) : Prop :=
  passage.after.memory ≠ passage.before.memory ∨
    passage.after.contextPointer ≠ passage.before.contextPointer

structure Idle (passage : Passage) : Prop where
  stage : passage.before.stage = .runningInTemporary
  untouched : passage.after = passage.before
  answer : passage.relocation.size = 0 ∧ passage.answer = .ok 0 ∨
    passage.relocation.size ≠ 0 ∧ passage.before.contextPointer = 0 ∧
      passage.answer = .error .contextNotFound

structure Carried (passage : Passage) : Prop where
  stage : passage.before.stage = .runningInTemporary
  occupied : passage.relocation.size ≠ 0
  registered : passage.before.contextPointer ≠ 0
  apart : passage.relocation.Apart
  answer : passage.answer = .ok passage.relocation.displacement
  after : passage.after = passage.before.carryOut passage.relocation

structure Refused (passage : Passage) : Prop where
  stage : passage.before.stage = .runningInPermanent
  untouched : passage.after = passage.before
  answer : passage.answer = .error .alreadyRelocated

variable {passage : Passage}

theorem not_writes_of_untouched (untouched : passage.after = passage.before) :
    ¬passage.Writes := by
  simp [Writes, untouched]

theorem Carried.writes (carried : passage.Carried) : passage.Writes := by
  right
  rw [carried.after]
  intro same
  have fixed : passage.relocation.moveAddress passage.before.contextPointer =
      passage.before.contextPointer := same
  rw [Relocation.moveAddress_eq, add_eq_left, sub_eq_zero] at fixed
  have base := carried.apart.toNat_oldStack
  have occupied : passage.relocation.size.toNat ≠ 0 := by
    simpa [← UInt64.toNat_inj] using carried.occupied
  obtain ⟨_, _, apart⟩ := carried.apart
  rw [← fixed] at base
  simp only [Relocation.newStack, Relocation.temporary, Relocation.permanent,
    Region.bound] at base apart
  omega

end Passage

theorem passage_of_temporary (request : Request) :
    let passage := request.passage .runningInTemporary
    (passage.Idle ∧ passage.after.stage = .runningInTemporary) ∨
      (passage.Carried ∧ passage.after.stage = .runningInPermanent) := by
  obtain ⟨memory, contextPointer, relocation, planned⟩ := request
  let before : Migration := ⟨memory, contextPointer, .runningInTemporary⟩
  have answer := relocation.result_migrate before
  have after := relocation.state_migrate before
  rw [if_neg (not_not.mpr rfl)] at answer after
  by_cases empty : relocation.size = 0
  · rw [if_pos empty] at answer after
    exact .inl ⟨⟨rfl, after, .inl ⟨empty, answer⟩⟩, congrArg Migration.stage after⟩
  rw [if_neg empty] at answer after
  by_cases unregistered : contextPointer = 0
  · rw [if_pos unregistered] at answer after
    exact .inl ⟨⟨rfl, after, .inr ⟨empty, unregistered, answer⟩⟩, congrArg Migration.stage after⟩
  · rw [if_neg unregistered] at answer after
    obtain ⟨_, apart⟩ := Relocation.result_plan_eq_ok.mp planned
    exact .inr ⟨⟨rfl, empty, unregistered, apart, answer, after⟩, congrArg Migration.stage after⟩

theorem passage_of_permanent (request : Request) :
    (request.passage .runningInPermanent).Refused := by
  obtain ⟨memory, contextPointer, relocation, planned⟩ := request
  let before : Migration := ⟨memory, contextPointer, .runningInPermanent⟩
  have answer := relocation.result_migrate before
  have after := relocation.state_migrate before
  rw [if_pos (by simp [before])] at answer after
  exact ⟨rfl, after, answer⟩

theorem refused_of_permanent (requests : List Request) :
    ∀ passage ∈ course .runningInPermanent requests, passage.Refused := by
  induction requests with
  | nil => simp [course]
  | cons request rest ih =>
    have refused := passage_of_permanent request
    rw [course, refused.untouched, refused.stage]
    exact List.forall_mem_cons.mpr ⟨refused, ih⟩

structure Orderly (passages : List Passage) : Prop where
  settled : ∀ passage ∈ passages,
    passage.before.stage ≠ .copying ∧ passage.after.stage ≠ .copying
  once : passages.Pairwise fun earlier later => ¬(earlier.Writes ∧ later.Writes)
  carried : ∀ passage ∈ passages, passage.Writes ↔ passage.Carried
  around : ∀ earlier passage later, passages = earlier ++ passage :: later → passage.Writes →
    (∀ call ∈ earlier, call.Idle) ∧ ∀ call ∈ later, call.Refused
  quiet : (∀ passage ∈ passages, ¬passage.Writes) → ∀ passage ∈ passages, passage.Idle

namespace Orderly

variable {passage : Passage} {passages : List Passage}

theorem nil : Orderly [] where
  settled := by simp
  once := .nil
  carried := by simp
  around := by simp
  quiet := by simp

theorem cons_idle (idle : passage.Idle) (orderly : Orderly passages) :
    Orderly (passage :: passages) := by
  have untouched := Passage.not_writes_of_untouched idle.untouched
  exact {
    settled := by
      refine List.forall_mem_cons.mpr ⟨?_, orderly.settled⟩
      simp [idle.untouched, idle.stage]
    once := by
      refine List.pairwise_cons.mpr ⟨?_, orderly.once⟩
      exact fun _ _ writes => untouched writes.1
    carried := by
      refine List.forall_mem_cons.mpr ⟨?_, orderly.carried⟩
      exact iff_of_false untouched fun carried => untouched carried.writes
    around := by
      intro earlier call later split writes
      cases earlier with
      | nil =>
        obtain ⟨rfl, _⟩ := List.cons.inj split
        exact absurd writes untouched
      | cons first earlier =>
        obtain ⟨rfl, rest⟩ := List.cons.inj split
        obtain ⟨idles, refused⟩ := orderly.around earlier call later rest writes
        exact ⟨List.forall_mem_cons.mpr ⟨idle, idles⟩, refused⟩
    quiet := by
      intro none
      refine List.forall_mem_cons.mpr ⟨idle, orderly.quiet ?_⟩
      exact (List.forall_mem_cons.mp none).2 }

theorem cons_carried (carried : passage.Carried) (after : passage.after.stage ≠ .copying)
    (refused : ∀ call ∈ passages, call.Refused) : Orderly (passage :: passages) := by
  have untouched (call : Passage) (member : call ∈ passages) : ¬call.Writes :=
    Passage.not_writes_of_untouched (refused call member).untouched
  exact {
    settled := by
      refine List.forall_mem_cons.mpr ⟨?_, fun call member => ?_⟩
      · simp [carried.stage, after]
      · simp [(refused call member).untouched, (refused call member).stage]
    once := by
      refine List.pairwise_cons.mpr ⟨fun call member writes => untouched call member writes.2, ?_⟩
      exact List.pairwise_of_forall_mem_list fun call member _ _ writes =>
        untouched call member writes.1
    carried := by
      refine List.forall_mem_cons.mpr ⟨iff_of_true carried.writes carried, fun call member => ?_⟩
      exact iff_of_false (untouched call member) fun carried =>
        untouched call member carried.writes
    around := by
      intro earlier call later split writes
      cases earlier with
      | nil =>
        obtain ⟨rfl, rfl⟩ := List.cons.inj split
        exact ⟨by simp, refused⟩
      | cons first earlier =>
        obtain ⟨rfl, rest⟩ := List.cons.inj split
        have member : call ∈ passages := by simp [rest]
        exact absurd writes (untouched call member)
    quiet := by
      intro none
      exact absurd carried.writes (none passage List.mem_cons_self) }

end Orderly

theorem course_orderly (requests : List Request) :
    Orderly (course .runningInTemporary requests) := by
  induction requests with
  | nil => exact .nil
  | cons request rest ih =>
    rw [course]
    rcases passage_of_temporary request with ⟨idle, stage⟩ | ⟨carried, stage⟩
    · rw [stage]
      exact ih.cons_idle idle
    · rw [stage]
      exact .cons_carried carried (by simp [stage]) (refused_of_permanent rest)

-- a missing context can be made good, and not even an empty relocation comes after the copy
example :
    let relocation : Relocation := ⟨0x1000, 0x10000, 0x800⟩
    (course .runningInTemporary [⟨.zero, 0, relocation, by decide⟩,
        ⟨.zero, 0x1700, relocation, by decide⟩,
        ⟨.zero, 0x10300, ⟨0, 0, 0⟩, by decide⟩]).map Passage.answer =
      [.error .contextNotFound, .ok relocation.displacement, .error .alreadyRelocated] := rfl

end EarlyBoot.Platform.Migration
