import EarlyBoot.Proofs.Boot.Verdict
import EarlyBoot.Proofs.Platform.HartStarts

set_option autoImplicit false

namespace EarlyBoot

theorem HartRequest.isHartStart_call (request : HartRequest) :
    request.call.isHartStart = request.isStart := by
  cases request <;> rfl

namespace Boot

open Platform (HartEntry Visit)
open Platform.HartRoutine (considered exists_visits length_considered_le
  ne_bootHart_of_mem_considered startSecondary)
open Supervisor (Call)

def Machine.hartStarts (machine : Machine) : List Call :=
  machine.calls.filter Call.isHartStart

namespace Image

def hartEntry (image : Image) : HartEntry :=
  ⟨image.secondaryEntry, fun slot _ => image.stackTop slot⟩

def stackArea (image : Image) : Region :=
  ⟨image.secondaryStacks, UInt64.ofNat (Platform.maxHarts * Platform.secondaryStackSize)⟩

def stackBelow (top : UInt64) : Region :=
  ⟨top - UInt64.ofNat Platform.secondaryStackSize, UInt64.ofNat Platform.secondaryStackSize⟩

variable {image : Image} {slot : Nat}

theorem bound_stackArea (image : Image) :
    image.stackArea.bound =
      image.secondaryStacks.toNat + Platform.maxHarts * Platform.secondaryStackSize := rfl

theorem toNat_stackTop (fits : image.stackArea.bound < UInt64.size)
    (slot_lt : slot < Platform.maxHarts) :
    (image.stackTop slot).toNat =
      image.secondaryStacks.toNat + (slot + 1) * Platform.secondaryStackSize := by
  rw [bound_stackArea] at fits
  have below : (slot + 1) * Platform.secondaryStackSize ≤
      Platform.maxHarts * Platform.secondaryStackSize := Nat.mul_le_mul_right _ slot_lt
  exact Memory.toNat_add_ofNat (by omega)

theorem toNat_base_stackBelow (fits : image.stackArea.bound < UInt64.size)
    (slot_lt : slot < Platform.maxHarts) :
    (stackBelow (image.stackTop slot)).base.toNat =
      image.secondaryStacks.toNat + slot * Platform.secondaryStackSize := by
  have top := toNat_stackTop fits slot_lt
  have size : (UInt64.ofNat Platform.secondaryStackSize).toNat = Platform.secondaryStackSize := rfl
  rw [stackBelow, UInt64.toNat_sub_of_le, top, size]
  · rw [Nat.add_one_mul]
    omega
  · rw [UInt64.le_iff_toNat_le, top, size, Nat.add_one_mul]
    omega

theorem bound_stackBelow (fits : image.stackArea.bound < UInt64.size)
    (slot_lt : slot < Platform.maxHarts) :
    (stackBelow (image.stackTop slot)).bound =
      image.secondaryStacks.toNat + (slot + 1) * Platform.secondaryStackSize := by
  rw [Region.bound, toNat_base_stackBelow fits slot_lt, Nat.add_one_mul, Nat.add_assoc]
  rfl

theorem stackBelow_within (fits : image.stackArea.bound < UInt64.size)
    (slot_lt : slot < Platform.maxHarts) :
    (stackBelow (image.stackTop slot)).Within image.stackArea := by
  rw [Region.Within, toNat_base_stackBelow fits slot_lt, bound_stackBelow fits slot_lt,
    bound_stackArea]
  exact ⟨Nat.le_add_right _ _, Nat.add_le_add_left (Nat.mul_le_mul_right _ slot_lt) _⟩

theorem stackBelow_apart (fits : image.stackArea.bound < UInt64.size) {lower upper : Nat}
    (order : lower < upper) (upper_lt : upper < Platform.maxHarts) :
    ¬(stackBelow (image.stackTop lower)).Meets (stackBelow (image.stackTop upper)) := by
  have ends : (lower + 1) * Platform.secondaryStackSize ≤ upper * Platform.secondaryStackSize :=
    Nat.mul_le_mul_right _ order
  rw [Region.meets_iff, bound_stackBelow fits (order.trans upper_lt),
    toNat_base_stackBelow fits upper_lt]
  omega

end Image

structure OwnStacks (image : Image) (bootHart : UInt64) (starts : List Call) : Prop where
  limited : starts.length ≤ Platform.maxHarts - 1
  secondary : ∀ call ∈ starts, call.a0 ≠ bootHart
  entered : ∀ call ∈ starts, call.a1 = image.secondaryEntry
  tops : starts.map Call.a2 = (List.range starts.length).map image.stackTop
  distinct : (starts.map Call.a2).Nodup
  disjoint : starts.Pairwise fun first second =>
    ¬(Image.stackBelow first.a2).Meets (Image.stackBelow second.a2)
  inside : ∀ call ∈ starts, (Image.stackBelow call.a2).Within image.stackArea

def Issued (image : Image) (bootHart : UInt64) (starts : List Call) : Prop :=
  ∃ harts : List UInt64, harts.length ≤ Platform.maxHarts - 1 ∧ bootHart ∉ harts ∧
    starts = harts.mapIdx fun slot hart =>
      .hartStart hart image.secondaryEntry (image.stackTop slot)

section Issued

variable {image : Image} {bootHart : UInt64} {starts : List Call}

theorem Issued.secondary (issued : Issued image bootHart starts) {call : Call}
    (member : call ∈ starts) : call.a0 ≠ bootHart ∧ call.a1 = image.secondaryEntry := by
  obtain ⟨harts, _, others, rfl⟩ := issued
  obtain ⟨slot, inside, rfl⟩ := List.mem_mapIdx.mp member
  exact ⟨fun same => others (same ▸ List.getElem_mem inside), rfl⟩

theorem Issued.tops (issued : Issued image bootHart starts) :
    starts.map Call.a2 = (List.range starts.length).map image.stackTop := by
  obtain ⟨harts, _, _, rfl⟩ := issued
  apply List.ext_getElem
  · simp
  · intro slot _ _
    simp [Call.hartStart]

theorem Issued.limited (issued : Issued image bootHart starts) :
    starts.length ≤ Platform.maxHarts - 1 := by
  obtain ⟨harts, few, _, rfl⟩ := issued
  rwa [List.length_mapIdx]

theorem Issued.pairwise_tops (issued : Issued image bootHart starts)
    {apart : UInt64 → UInt64 → Prop}
    (each : ∀ lower upper, lower < upper → upper < Platform.maxHarts →
      apart (image.stackTop lower) (image.stackTop upper)) :
    (starts.map Call.a2).Pairwise apart := by
  have limited := issued.limited
  rw [issued.tops, List.pairwise_map]
  refine List.pairwise_lt_range.imp_of_mem fun _ member order => each _ _ order ?_
  exact (List.mem_range.mp member).trans_le (limited.trans (Nat.sub_le _ _))

theorem Issued.ownStacks (issued : Issued image bootHart starts)
    (fits : image.stackArea.bound < UInt64.size) : OwnStacks image bootHart starts where
  limited := issued.limited
  secondary := fun _ member => (issued.secondary member).1
  entered := fun _ member => (issued.secondary member).2
  tops := issued.tops
  distinct := by
    apply issued.pairwise_tops
    intro lower upper order upper_lt same
    have lowerTop := Image.toNat_stackTop fits (order.trans upper_lt)
    rw [same, Image.toNat_stackTop fits upper_lt] at lowerTop
    simp only [Platform.secondaryStackSize] at lowerTop
    omega
  disjoint := by
    have apart : (starts.map Call.a2).Pairwise fun first second =>
        ¬(Image.stackBelow first).Meets (Image.stackBelow second) :=
      issued.pairwise_tops fun _ _ order upper_lt => Image.stackBelow_apart fits order upper_lt
    exact List.pairwise_map.mp apart
  inside := by
    intro call member
    have top : call.a2 ∈ starts.map Call.a2 := List.mem_map_of_mem member
    rw [issued.tops] at top
    obtain ⟨slot, listed, same⟩ := List.mem_map.mp top
    rw [← same]
    apply Image.stackBelow_within fits
    exact (List.mem_range.mp listed).trans_le (issued.limited.trans (Nat.sub_le _ _))

end Issued

theorem issued_nil (image : Image) (bootHart : UInt64) : Issued image bootHart [] :=
  ⟨[], Nat.zero_le _, List.not_mem_nil, rfl⟩

theorem calls_requests (image : Image) (harts : List UInt64) :
    (image.hartEntry.requests 0 harts).map HartRequest.call =
      harts.mapIdx fun slot hart => .hartStart hart image.secondaryEntry (image.stackTop slot) := by
  apply List.ext_getElem
  · simp [HartEntry.requests]
  · intro slot _ _
    simp [HartEntry.requests, Image.hartEntry, HartRequest.call]

namespace BootRoutine

open Routine

section Starts

variable {image : Image} {bootHart : UInt64}

theorem hartStarts_startHarts (supervisor : Supervisor) (image : Image) (bootHart : UInt64)
    (harts : List UInt64) (machine : Machine) :
    (startHarts supervisor image bootHart harts machine).2.hartStarts =
      machine.hartStarts ++ ((startSecondary (supervisor.hartService machine.calls bootHart)
        image.hartEntry harts []).2.filter HartRequest.isStart).map HartRequest.call := by
  have same : Call.isHartStart ∘ HartRequest.call = HartRequest.isStart :=
    funext HartRequest.isHartStart_call
  rw [← same, ← List.filter_map]
  exact List.filter_append _ _

theorem leads_startHarts (supervisor : Supervisor) (image : Image) (bootHart : UInt64)
    (harts : List UInt64) :
    (startHarts supervisor image bootHart harts).Leads (fun machine => machine.hartStarts = [])
      fun machine => Issued image bootHart machine.hartStarts := by
  intro machine none
  have visited := exists_visits (supervisor.hartService machine.calls bootHart) image.hartEntry harts
  obtain ⟨visits, _, among, starts⟩ := visited
  have launched := (Visit.launched_sublist visits).trans among.sublist
  rw [hartStarts_startHarts, none, starts, List.nil_append, calls_requests]
  refine ⟨_, launched.length_le.trans (length_considered_le _ _), fun listed => ?_, rfl⟩
  exact ne_bootHart_of_mem_considered (launched.subset listed) rfl

theorem hartStarts_call (supervisor : Supervisor) {request : Call}
    (other : request.isHartStart = false) :
    (call supervisor request).Keeps Machine.hartStarts := by
  intro machine
  simp [call, Machine.hartStarts, other]

theorem hartStarts_showVersion (supervisor : Supervisor) :
    (showVersion supervisor).Keeps Machine.hartStarts := by
  apply (hartStarts_call supervisor rfl).bind
  intro reply
  cases reply.result with
  | ok version => exact keeps_info _
  | error refusal => exact keeps_warn _

theorem issued_of_none {machine : Machine} (none : machine.hartStarts = []) :
    Issued image bootHart machine.hartStarts := by
  rw [none]
  exact issued_nil image bootHart

theorem leads_of_keeps {α : Type} {routine : BootRoutine α}
    (keeps : routine.Keeps Machine.hartStarts) :
    routine.Leads (fun machine => machine.hartStarts = [])
      fun machine => Issued image bootHart machine.hartStarts := by
  intro machine none
  exact issued_of_none ((keeps machine).trans none)

theorem leads_startSecondaryHarts (supervisor : Supervisor) (image : Image) (bootHart : UInt64) :
    (startSecondaryHarts supervisor image bootHart).Leads (fun machine => machine.hartStarts = [])
      fun machine => Issued image bootHart machine.hartStarts := by
  have probed : (call supervisor (.probe Supervisor.hartExtension)).Keeps Machine.hartStarts :=
    hartStarts_call supervisor rfl
  refine (probed.leads (· = [])).bind (fun reply => ?_) fun _ => issued_of_none
  split
  next =>
    refine (keeps_get.leads (· = [])).bind (fun machine => ?_) fun _ => issued_of_none
    cases DeviceTree.ofMemory machine.memory machine.context.deviceTree with
    | error error => exact leads_of_keeps (keeps_ofAttempt _)
    | ok tree =>
      have shown (report : Platform.HartReport) :
          (showIncomplete report).Keeps Machine.hartStarts := keeps_showIncomplete report
      exact (leads_startHarts supervisor image bootHart _).bind
        (fun report => (shown report).leads (Issued image bootHart)) fun _ issued => issued
  next => exact leads_of_keeps (keeps_ofAttempt _)

theorem leads_assemble (supervisor : Supervisor) (image : Image)
    (bootHart deviceTree : UInt64) :
    (assemble supervisor image bootHart deviceTree).Leads (fun machine => machine.hartStarts = [])
      fun machine => Issued image bootHart machine.hartStarts := by
  have registers : (registerContext image.contextAddress (.initial bootHart deviceTree)).Keeps
      Machine.hartStarts :=
    (calls_registerContext _ _).map (List.filter Call.isHartStart)
  refine ((hartStarts_showVersion supervisor).leads (· = [])).bind (fun _ => ?_)
    fun _ => issued_of_none
  refine (registers.leads (· = [])).bind (fun _ => ?_) fun _ => issued_of_none
  refine ((keeps_publish _).leads (· = [])).bind (fun published => ?_) fun _ => issued_of_none
  have starts := (leads_startSecondaryHarts supervisor image bootHart).outcome
  refine starts.bind (fun outcome => ?_) fun _ issued => issued
  have survives : (survive outcome).Keeps Machine.hartStarts := keeps_survive outcome
  exact (survives.bind fun _ => keeps_pure published).leads (Issued image bootHart)

theorem leads_flow (supervisor : Supervisor) (image : Image) (bootHart deviceTree : UInt64) :
    (flow supervisor image bootHart deviceTree).Leads (fun machine => machine.hartStarts = [])
      fun machine => Issued image bootHart machine.hartStarts := by
  -- behind the start of the harts nothing is asked any more
  have arranges (assembled : Platform.MemoryPlan × HandOff.BlockList) :=
    ((calls_arrange .standard image assembled.1 assembled.2).map
      (List.filter Call.isHartStart)).bind fun relocation =>
        keeps_pure (assembled.1, assembled.2, relocation)
  have migrates (relocation : Platform.Relocation) :=
    ((calls_migrate relocation).map (List.filter Call.isHartStart)).bind fun _ =>
      keeps_pure relocation.newHeap.base
  have prepares : (prepare supervisor image bootHart deviceTree).Leads _ _ :=
    (leads_assemble supervisor image bootHart deviceTree).bind
      (fun assembled => (arranges assembled).leads (Issued image bootHart)) fun _ issued => issued
  have handsOver : (handOver supervisor image bootHart deviceTree).Leads _ _ :=
    prepares.bind (fun prepared => (migrates prepared.2.2).leads (Issued image bootHart))
      fun _ issued => issued
  have resumes (listAddress : UInt64) : (resume listAddress).Keeps Machine.hartStarts :=
    keeps_resume listAddress
  exact handsOver.bind (fun listAddress => (resumes listAddress).leads (Issued image bootHart))
    fun _ issued => issued

end Starts

end BootRoutine

theorem hartStarts_run (supervisor : Supervisor) (line : Console.LineStatus) (image : Image)
    (bootHart deviceTree : UInt64) (memory : Memory) :
    (run supervisor line image bootHart deviceTree memory).machine.hartStarts =
      (BootRoutine.flow supervisor image bootHart deviceTree (.start memory)).2.hartStarts := by
  -- the request for the reset is no start of a hart
  rw [Machine.hartStarts, calls_run, machine_conclude, List.filter_append]
  exact List.append_nil _

theorem run_owns_stacks (supervisor : Supervisor) (line : Console.LineStatus) {image : Image}
    (fits : image.stackArea.bound < UInt64.size) (bootHart deviceTree : UInt64)
    (memory : Memory) :
    OwnStacks image bootHart
      (run supervisor line image bootHart deviceTree memory).machine.hartStarts := by
  have issued : Issued image bootHart _ :=
    BootRoutine.leads_flow supervisor image bootHart deviceTree (.start memory) rfl
  rw [hartStarts_run]
  exact issued.ownStacks fits

-- hart 1 is listed twice, hart 3 is the boot hart, and one node has no number
def crowdedTree : List UInt8 :=
  let memory := (DeviceTree.Writer.empty.beginNode "").beginNode "memory"
  let described := ((memory.textProperty "device_type" "memory").regionsProperty
    [(0x80000000, 0x2000000)]).endNode
  let hart (writer : DeviceTree.Writer) (number : UInt32) : DeviceTree.Writer :=
    ((writer.beginNode "cpu").cellProperty "reg" number).endNode
  let listed := [1, 3, 1, 2].foldl hart (described.beginNode "cpus")
  ((listed.beginNode "cpu").endNode).endNode.endNode.finish.1

def crowdedMemory : Memory :=
  Memory.zero.write 0x10000 crowdedTree

def obliging : Supervisor where
  answer _ _ := ⟨0, 1⟩
  resets _ _ := true

theorem crowdedBoot_owns_stacks :
    smallImage.stackArea.bound < UInt64.size ∧
      (run obliging (.busyFor 0) smallImage 3 0x10000 crowdedMemory).machine.hartStarts =
        [.hartStart 1 0x80001000 0x80006000, .hartStart 1 0x80001000 0x8000a000,
          .hartStart 2 0x80001000 0x8000e000] ∧
      OwnStacks smallImage 3
        (run obliging (.busyFor 0) smallImage 3 0x10000 crowdedMemory).machine.hartStarts := by
  have fits : smallImage.stackArea.bound < UInt64.size := by decide
  exact ⟨fits, by decide +kernel, run_owns_stacks obliging (.busyFor 0) fits 3 0x10000 crowdedMemory⟩

end Boot

end EarlyBoot
