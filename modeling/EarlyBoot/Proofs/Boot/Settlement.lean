import EarlyBoot.Proofs.Boot.Steps
import EarlyBoot.Proofs.Platform.Harts
import EarlyBoot.Proofs.Platform.Published

set_option autoImplicit false

namespace EarlyBoot.Boot

open BootRoutine (introduction introduction_eq_ok planRelocation planRelocation_eq_ok)
open HandOff (BlockList Introduction)
open Platform (Config MemoryPlan Publication Published Relocation)

def Image.content (image : Image) (bootHart deviceTree : UInt64) (memory : Memory) : Memory :=
  memory.writeContext image.contextAddress (.initial bootHart deviceTree)

def introduced (plan : MemoryPlan) (relocation : Relocation) : Introduction where
  memoryBottom := plan.permanentMemory.base
  memoryTop := plan.permanentMemory.base + plan.permanentMemory.size
  listAddress := relocation.newHeap.base

def written (content : Memory) (plan : MemoryPlan) (list : BlockList) (relocation : Relocation) :
    Memory :=
  content.write Config.standard.heap.base (list.encode (introduced plan relocation))

-- memory and the context pointer as the resumed boot finds them
def handedOver (image : Image) (content : Memory) (plan : MemoryPlan) (list : BlockList)
    (relocation : Relocation) : Memory × UInt64 :=
  (relocation.copyHalves (written content plan list relocation),
    relocation.moveAddress image.contextAddress)

/-- The platform is published, and the temporary memory may move to where the plan says. -/
structure Settles (image : Image) (content : Memory) (plan : MemoryPlan) (list : BlockList)
    (relocation : Relocation) : Prop where
  published : (Publication.platform .standard content image.contextAddress).Yields
    (.empty Platform.listCapacity) plan list
  planned : (Relocation.plan Config.standard.temporaryRam.base plan.permanentMemory.base
    Config.standard.temporaryRam.size).result = .ok relocation
  temporary_apart : ¬relocation.temporary.Meets image.region
  permanent_apart : ¬relocation.permanent.Meets image.region
  large : Config.standard.temporaryRam.size ≤ plan.permanentMemory.size

inductive Refused (image : Image) (content : Memory) (failure : Failure) : Prop where
  | unpublished {list : BlockList}
      (failed : (Publication.platform .standard content image.contextAddress).Fails
        (.empty Platform.listCapacity) failure list)
  | immovable {plan : MemoryPlan} {list : BlockList}
      (published : (Publication.platform .standard content image.contextAddress).Yields
        (.empty Platform.listCapacity) plan list)
      (failed : (planRelocation .standard image plan).result = .error failure)

section Settled

variable {image : Image} {content : Memory} {plan : MemoryPlan} {list : BlockList}
  {relocation : Relocation}

theorem settles_iff :
    Settles image content plan list relocation ↔
      (Publication.platform .standard content image.contextAddress).Yields
        (.empty Platform.listCapacity) plan list ∧
      (planRelocation .standard image plan).result = .ok relocation := by
  constructor
  · intro settles
    obtain ⟨rfl, apart⟩ := Relocation.result_plan_eq_ok.mp settles.planned
    exact ⟨settles.published, planRelocation_eq_ok.mpr ⟨rfl, apart, settles.temporary_apart,
      settles.permanent_apart, UInt64.le_iff_toNat_le.mp settles.large⟩⟩
  · intro goes
    obtain ⟨published, relocates⟩ := goes
    obtain ⟨rfl, apart, temporary, permanent, fits⟩ := planRelocation_eq_ok.mp relocates
    exact {
      published := published
      planned := Relocation.result_plan_eq_ok.mpr ⟨rfl, apart⟩
      temporary_apart := temporary
      permanent_apart := permanent
      large := UInt64.le_iff_toNat_le.mpr fits }

theorem Settles.apart (settles : Settles image content plan list relocation) :
    relocation = ⟨Config.standard.temporaryRam.base, plan.permanentMemory.base,
      Config.standard.temporaryRam.size⟩ ∧ relocation.Apart :=
  Relocation.result_plan_eq_ok.mp settles.planned

theorem settles_or_refused (image : Image) (content : Memory) :
    (∃ plan list relocation, Settles image content plan list relocation) ∨
      ∃ failure, Refused image content failure := by
  obtain ⟨plan, list, published⟩ | ⟨failure, list, failed⟩ :=
    (Publication.platform .standard content image.contextAddress).yields_or_fails
      (.empty Platform.listCapacity)
  · cases relocates : (planRelocation .standard image plan).result with
    | ok relocation => exact .inl ⟨plan, list, relocation, settles_iff.mpr ⟨published, relocates⟩⟩
    | error failure => exact .inr ⟨failure, .immovable published relocates⟩
  · exact .inr ⟨failure, .unpublished failed⟩

theorem Settles.fits (settles : Settles image content plan list relocation) :
    plan.permanentMemory.bound < UInt64.size := by
  obtain ⟨_, tree, published⟩ := Publication.published settles.published
  obtain ⟨systemFits, _⟩ := MemoryPlan.carved_of_ofWindow published.planned
  -- the permanent memory lies in system memory, whose end is an address
  have inside := (MemoryPlan.permanent_of_ofWindow published.planned).inside
  exact inside.trans_lt systemFits

theorem Settles.introduces (settles : Settles image content plan list relocation) :
    (introduction relocation plan).result = .ok (introduced plan relocation) :=
  introduction_eq_ok.mpr ⟨settles.fits, rfl⟩

theorem Settles.short (settles : Settles image content plan list relocation) :
    list.encodedLength ≤ Config.standard.heap.size.toNat := by
  obtain ⟨capacity, tree, published⟩ := Publication.published settles.published
  -- even a full list takes up far less than the heap
  have longest := BlockList.encodedLength_le published.sound
  rw [capacity] at longest
  exact longest.trans (by decide)

theorem Settles.registered (settles : Settles image content plan list relocation) :
    image.contextAddress ≠ 0 := by
  obtain ⟨_, tree, published⟩ := Publication.published settles.published
  exact published.registered

theorem Settles.encodes (settles : Settles image content plan list relocation)
    (first : Introduction) :
    list.encodeWithin first Config.standard.heap.size.toNat = .ok (list.encode first) :=
  if_neg (Nat.not_lt.mpr settles.short)

theorem Settles.nonempty (settles : Settles image content plan list relocation) :
    relocation.size ≠ 0 := by
  rw [settles.apart.1]
  change (0x200000 : UInt64) ≠ 0
  decide

theorem Settles.migrates (settles : Settles image content plan list relocation)
    (memory : Memory) :
    (relocation.migrate ⟨memory, image.contextAddress, .runningInTemporary⟩).1.result =
      .ok relocation.displacement := by
  simp [Relocation.result_migrate, settles.nonempty, settles.registered]

end Settled

namespace BootRoutine

open Routine

section Harts

variable {supervisor : Supervisor} {image : Image} {bootHart : UInt64} {machine : Machine}
  {tree : DeviceTree}

theorem failure_of_report {after : Machine} {failure : Failure} {harts : List UInt64}
    (failed : (startHarts supervisor image bootHart harts >>= showIncomplete).Fails machine failure
      after) :
    failure = .supervisor .notSupported := by
  obtain starting | ⟨report, _, _, shown⟩ := fails_bind.mp failed
  · obtain got | ⟨_, _, _, starting⟩ := fails_bind.mp starting
    · exact absurd got not_fails_get
    · obtain ⟨_, starting, _⟩ := fails_on.mp starting
      exact Platform.HartRoutine.failure_of_startSecondary starting
  · unfold showIncomplete at shown
    split at shown
    · exact absurd shown not_fails_pure
    · exact absurd shown not_fails_log

theorem failure_of_startSecondaryHarts {after : Machine} {failure : Failure}
    (read : DeviceTree.ofMemory machine.memory machine.context.deviceTree = .ok tree)
    (failed : (startSecondaryHarts supervisor image bootHart).Fails machine failure after) :
    failure = .supervisor .notSupported := by
  unfold startSecondaryHarts at failed
  obtain asked | ⟨reply, asked, ⟨_, rfl⟩, answered⟩ := fails_bind.mp failed
  · cases asked.1
  split at answered
  next =>
    obtain got | ⟨now, _, got, started⟩ := fails_bind.mp answered
    · exact absurd got not_fails_get
    obtain ⟨rfl, rfl⟩ := yields_get.mp got
    -- the question to the supervisor has left memory and the context pointer alone
    split at started
    next error refused =>
      have same := refused.symm.trans read
      cases same
    next => exact failure_of_report started
  next => exact (fails_fail.mp answered).1.symm

theorem harmless_of_published {config : Config} {plan : MemoryPlan} {list : BlockList}
    {after : Machine} {failure : Failure}
    (published : (publish config).Yields machine (plan, list) machine)
    (failed : (startSecondaryHarts supervisor image bootHart).Fails machine failure after) :
    failure.isFatal = false := by
  -- the tree that is read again here was accepted when the platform was published
  obtain ⟨_, tree, published⟩ := Publication.published (yields_publish.mp published).1
  rw [failure_of_startSecondaryHarts published.read failed]
  rfl

theorem yields_survive {outcome : Except Failure Unit}
    (harmless : ∀ failure, outcome = .error failure → failure.isFatal = false) :
    (survive outcome).Yields machine () machine := by
  cases outcome with
  | ok _ => exact yields_pure.mpr ⟨rfl, rfl⟩
  | error failure =>
    simp only [survive, harmless failure rfl]
    exact yields_log.mpr rfl

theorem goes_on (supervisor : Supervisor) (image : Image) (bootHart : UInt64) {config : Config}
    {plan : MemoryPlan} {list : BlockList}
    (published : (publish config).Yields machine (plan, list) machine) :
    ∃ outcome after,
      (startSecondaryHarts supervisor image bootHart).outcome.Yields machine outcome after ∧
      (survive outcome).Yields after () after ∧ after.held = machine.held :=
  ⟨_, _, yields_outcome.mpr ⟨rfl, rfl⟩,
    yields_survive fun _ failed => harmless_of_published published ⟨failed, rfl⟩,
    keeps_startSecondaryHarts blind_held supervisor image bootHart machine⟩

end Harts

theorem info_yields (text : String) (machine : Machine) : (info text).Yields machine () machine :=
  yields_info.mpr rfl

theorem writeList_yields {config : Config} {list : BlockList} (first : Introduction)
    (short : list.encodedLength ≤ config.heap.size.toNat) (machine : Machine) :
    ∃ after, (writeList config first list).Yields machine () after ∧
      after.held =
        (machine.memory.write config.heap.base (list.encode first), machine.contextPointer) :=
  ⟨_, yields_writeList.mpr ⟨short, rfl⟩, rfl⟩

theorem migrate_yields {machine : Machine} {relocation : Relocation}
    (registered : machine.contextPointer ≠ 0) (nonempty : relocation.size ≠ 0) :
    ∃ after, (migrate relocation).Yields machine relocation.displacement after ∧
      after.held = (relocation.copyHalves machine.memory,
        relocation.moveAddress machine.contextPointer) :=
  ⟨_, (yields_migrate nonempty).mpr ⟨registered, rfl, rfl⟩, rfl⟩

theorem resume_yields (listAddress : UInt64) (machine : Machine) :
    (resume listAddress).Yields machine () machine :=
  (yields_get.mpr ⟨rfl, rfl⟩).bind ((info_yields _ machine).bind (info_yields _ machine))

section Settled

variable {image : Image} {bootHart deviceTree : UInt64} {memory : Memory} {plan : MemoryPlan}
  {list : BlockList} {relocation : Relocation} {failure : Failure}

theorem enter_yields (supervisor : Supervisor) (image : Image) (record : ContextRecord)
    (machine : Machine) :
    ∃ shown, (showVersion supervisor).Yields machine () shown ∧
      (registerContext image.contextAddress record).Yields shown ()
        (machine.registered image record) :=
  ⟨_, yields_showVersion.mpr rfl, rfl, rfl⟩

theorem assemble_of_published (supervisor : Supervisor)
    (published : (Publication.platform .standard (image.content bootHart deviceTree memory)
      image.contextAddress).Yields (.empty Platform.listCapacity) plan list) :
    ∃ machine, (assemble supervisor image bootHart deviceTree).Yields (.start memory) (plan, list)
        machine ∧
      machine.held = (image.content bootHart deviceTree memory, image.contextAddress) := by
  obtain ⟨shown, showing, entering⟩ :=
    enter_yields supervisor image (.initial bootHart deviceTree) (.start memory)
  set entered := (Machine.start memory).registered image (.initial bootHart deviceTree)
  have publishing : (publish .standard).Yields entered (plan, list) entered :=
    yields_publish.mpr ⟨published, rfl⟩
  obtain ⟨outcome, started, starting, surviving, kept⟩ :=
    goes_on supervisor image bootHart publishing
  exact ⟨started, showing.bind <| entering.bind <| publishing.bind <| starting.bind <|
    surviving.bind <| yields_pure.mpr ⟨rfl, rfl⟩, kept⟩

theorem assemble_of_unpublished (supervisor : Supervisor)
    (failed : (Publication.platform .standard (image.content bootHart deviceTree memory)
      image.contextAddress).Fails (.empty Platform.listCapacity) failure list) :
    ∃ machine, (assemble supervisor image bootHart deviceTree).Fails (.start memory) failure
        machine ∧
      machine.held = (image.content bootHart deviceTree memory, image.contextAddress) := by
  obtain ⟨shown, showing, entering⟩ :=
    enter_yields supervisor image (.initial bootHart deviceTree) (.start memory)
  set entered := (Machine.start memory).registered image (.initial bootHart deviceTree)
  have publishing : (publish .standard).Fails entered failure entered :=
    Yields.bind_fails (yields_get.mpr ⟨rfl, rfl⟩) (fails_within.mpr ⟨⟨list, failed⟩, rfl⟩)
  exact ⟨entered, showing.bind_fails <| entering.bind_fails <| publishing.bind _, rfl⟩

theorem arrange_of_settles {content : Memory}
    (settles : Settles image content plan list relocation) (machine : Machine) :
    ∃ after, (arrange .standard image plan list).Yields machine relocation after ∧
      after.held = (written machine.memory plan list relocation, machine.contextPointer) := by
  have planning : (ofAttempt (planRelocation .standard image plan)).Yields machine relocation
    machine := ⟨(settles_iff.mp settles).2, rfl⟩
  have introducing : (ofAttempt (introduction relocation plan)).Yields machine
    (introduced plan relocation) machine := ⟨settles.introduces, rfl⟩
  obtain ⟨written, writing, kept⟩ :=
    writeList_yields (introduced plan relocation) settles.short machine
  exact ⟨written, planning.bind <| introducing.bind <| writing.bind <|
    yields_pure.mpr ⟨rfl, rfl⟩, kept⟩

theorem prepare_of_settles (supervisor : Supervisor)
    (settles : Settles image (image.content bootHart deviceTree memory) plan list relocation) :
    ∃ machine, (prepare supervisor image bootHart deviceTree).Yields (.start memory)
        (plan, list, relocation) machine ∧
      machine.held = (written (image.content bootHart deviceTree memory) plan list relocation,
        image.contextAddress) := by
  -- the list is written last, and only here does memory change after the registration
  obtain ⟨machine, assembled, held⟩ := assemble_of_published supervisor settles.published
  obtain ⟨sameMemory, samePointer⟩ := Prod.mk.inj held
  obtain ⟨written, arranged, kept⟩ := arrange_of_settles settles machine
  rw [sameMemory, samePointer] at kept
  exact ⟨written, assembled.bind <| arranged.bind <| yields_pure.mpr ⟨rfl, rfl⟩, kept⟩

theorem prepare_of_refused (supervisor : Supervisor)
    (refused : Refused image (image.content bootHart deviceTree memory) failure) :
    ∃ machine, (prepare supervisor image bootHart deviceTree).Fails (.start memory) failure
        machine ∧
      machine.held = (image.content bootHart deviceTree memory, image.contextAddress) := by
  cases refused with
  | unpublished failed =>
    obtain ⟨machine, stopped, held⟩ := assemble_of_unpublished supervisor failed
    exact ⟨machine, stopped.bind _, held⟩
  | @immovable plan list published failed =>
    obtain ⟨machine, assembled, held⟩ := assemble_of_published supervisor published
    have planning : (ofAttempt (planRelocation .standard image plan)).Fails machine failure
      machine := ⟨failed, rfl⟩
    exact ⟨machine, assembled.bind_fails ((planning.bind _).bind _), held⟩

theorem handOver_of_settles (supervisor : Supervisor)
    (settles : Settles image (image.content bootHart deviceTree memory) plan list relocation) :
    ∃ prepared handed,
      (prepare supervisor image bootHart deviceTree).Yields (.start memory)
        (plan, list, relocation) prepared ∧
      (migrate relocation).Yields prepared relocation.displacement handed ∧
      (handOver supervisor image bootHart deviceTree).Yields (.start memory)
        relocation.newHeap.base handed ∧
      handed.held =
        handedOver image (image.content bootHart deviceTree memory) plan list relocation := by
  obtain ⟨prepared, preparing, held⟩ := prepare_of_settles supervisor settles
  obtain ⟨sameMemory, samePointer⟩ := Prod.mk.inj held
  have registered : prepared.contextPointer ≠ 0 := samePointer ▸ settles.registered
  obtain ⟨handed, migrating, kept⟩ := migrate_yields registered settles.nonempty
  rw [sameMemory, samePointer] at kept
  exact ⟨prepared, handed, preparing, migrating,
    preparing.bind (migrating.bind (yields_pure.mpr ⟨rfl, rfl⟩)), kept⟩

theorem flow_of_settles (supervisor : Supervisor)
    (settles : Settles image (image.content bootHart deviceTree memory) plan list relocation) :
    ∃ machine, (flow supervisor image bootHart deviceTree).Yields (.start memory) () machine ∧
      machine.held =
        handedOver image (image.content bootHart deviceTree memory) plan list relocation := by
  obtain ⟨_, handed, _, _, handing, held⟩ := handOver_of_settles supervisor settles
  exact ⟨handed, handing.bind (resume_yields _ handed), held⟩

theorem flow_of_refused (supervisor : Supervisor)
    (refused : Refused image (image.content bootHart deviceTree memory) failure) :
    ∃ machine, (flow supervisor image bootHart deviceTree).Fails (.start memory) failure machine ∧
      machine.held = (image.content bootHart deviceTree memory, image.contextAddress) := by
  obtain ⟨machine, failed, held⟩ := prepare_of_refused supervisor refused
  exact ⟨machine, (failed.bind _).bind _, held⟩

theorem settles_of_flow {supervisor : Supervisor} {last : Machine}
    (done : (flow supervisor image bootHart deviceTree).Yields (.start memory) () last) :
    ∃ plan list relocation,
      Settles image (image.content bootHart deviceTree memory) plan list relocation := by
  refine (settles_or_refused image _).resolve_right fun refused => ?_
  obtain ⟨failure, refused⟩ := refused
  obtain ⟨_, failed, _⟩ := flow_of_refused supervisor refused
  exact done.not_fails failed

end Settled

end BootRoutine

end EarlyBoot.Boot
