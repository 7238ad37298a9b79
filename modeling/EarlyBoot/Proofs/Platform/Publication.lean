import EarlyBoot.Platform.Publication
import EarlyBoot.Proofs.HandOff.Acceptance
import EarlyBoot.Proofs.Platform.MemoryPlan

set_option autoImplicit false

namespace EarlyBoot.Platform.Publication

open HandOff (Block BlockList)

variable {α β : Type} {blocks more : List Block}

def Succeeds (routine : Publication α) (list : BlockList) : Prop :=
  ∃ value, (routine list).1.result = .ok value

/-- The routine appends the blocks in order, up to the first one that is refused. -/
structure Delivers (routine : Publication α) (blocks : List Block) : Prop where
  partly : ∀ list, ∃ done, done <+: blocks ∧ (routine list).2 = list.extend done ∧
    (Succeeds routine list ↔ done = blocks)
  wholly : ∀ list, list.Sound → (Succeeds routine list ↔ (list.extend blocks).Sound)

theorem Delivers.after {routine : Publication α} {list : BlockList}
    (delivers : Delivers routine blocks) (succeeds : Succeeds routine list) :
    (routine list).2 = list.extend blocks := by
  obtain ⟨done, _, after, whole⟩ := delivers.partly list
  rw [after, whole.mp succeeds]

theorem succeeds_bind {first : Publication α} {next : α → Publication β} {list : BlockList}
    {value : α} (succeeded : (first list).1.result = .ok value) :
    Succeeds (first >>= next) list ↔ Succeeds (next value) (first list).2 := by
  rw [Succeeds, (Routine.bind_of_ok succeeded next).1, Succeeds]

theorem not_succeeds_of_error {routine : Publication α} {list : BlockList} {failure : Failure}
    (failed : (routine list).1.result = .error failure) : ¬Succeeds routine list := by
  intro succeeds
  obtain ⟨value, result⟩ := succeeds
  rw [failed] at result
  cases result

theorem Delivers.bind {first : Publication α} {next : α → Publication β}
    (firstDelivers : Delivers first blocks) (nextDelivers : ∀ value, Delivers (next value) more) :
    Delivers (first >>= next) (blocks ++ more) where
  partly := by
    intro list
    obtain ⟨done, begins, after, whole⟩ := firstDelivers.partly list
    cases result : (first list).1.result with
    | error failure =>
      obtain ⟨stopped, kept⟩ := Routine.bind_of_error result next
      refine ⟨done, begins.trans (List.prefix_append _ _), kept.trans after, ?_⟩
      refine iff_of_false (not_succeeds_of_error stopped) fun all => ?_
      have longer : blocks <+: done := all ▸ List.prefix_append _ _
      exact not_succeeds_of_error result (whole.mpr (begins.eq_of_length_le longer.length_le))
    | ok value =>
      obtain rfl := whole.mp ⟨value, result⟩
      obtain ⟨later, laterBegins, laterAfter, laterWhole⟩ :=
        (nextDelivers value).partly (list.extend done)
      refine ⟨done ++ later, (List.prefix_append_right_inj done).mpr laterBegins, ?_, ?_⟩
      · rw [(Routine.bind_of_ok result next).2, after, laterAfter, BlockList.extend_extend]
      · rw [succeeds_bind result, after, laterWhole, List.append_cancel_left_eq]
  wholly := by
    intro list sound
    have firstWholly := firstDelivers.wholly list sound
    cases result : (first list).1.result with
    | error failure =>
      obtain ⟨stopped, _⟩ := Routine.bind_of_error result next
      refine iff_of_false (not_succeeds_of_error stopped) fun longer => ?_
      -- blocks behind an unsound list do not make it sound
      rw [← BlockList.extend_extend] at longer
      exact not_succeeds_of_error result (firstWholly.mpr longer.of_extend)
    | ok value =>
      have succeeds : Succeeds first list := ⟨value, result⟩
      rw [succeeds_bind result, firstDelivers.after succeeds,
        (nextDelivers value).wholly _ (firstWholly.mp succeeds), BlockList.extend_extend]

theorem delivers_nil {routine : Publication α} (succeeds : ∀ list, Succeeds routine list)
    (keeps : routine.Keeps id) : Delivers routine [] where
  partly := fun list =>
    ⟨[], List.prefix_rfl, by rw [BlockList.extend_nil]; exact keeps list,
      iff_of_true (succeeds list) rfl⟩
  wholly := fun list sound =>
    iff_of_true (succeeds list) (by rwa [BlockList.extend_nil])

theorem delivers_pure (value : α) : Delivers (pure value) [] :=
  delivers_nil (fun _ => ⟨value, rfl⟩) (Routine.keeps_pure value)

theorem delivers_ofAttempt {attempt : Attempt α} {value : α} (ended : attempt.result = .ok value) :
    Delivers (.ofAttempt attempt) [] :=
  delivers_nil (fun _ => ⟨value, ended⟩) (Routine.keeps_ofAttempt attempt)

theorem succeeds_append_iff {block : Block} {list : BlockList} :
    Succeeds (append block) list ↔ ∃ longer, list.append block = .ok longer := by
  unfold Succeeds append
  cases list.append block <;> simp

theorem delivers_append (block : Block) : Delivers (append block) [block] where
  partly := by
    intro list
    rw [succeeds_append_iff]
    cases appended : list.append block with
    | error error =>
      refine ⟨[], List.nil_prefix, ?_, by simp⟩
      simp only [append, appended, BlockList.extend_nil]
    | ok longer =>
      refine ⟨[block], List.prefix_rfl, ?_, by simp⟩
      simp only [append, appended, BlockList.eq_extend_of_append appended]
  wholly := by
    intro list sound
    rw [succeeds_append_iff, BlockList.sound_extend_iff sound]
    simp only [BlockList.append_eq_ok_iff sound, exists_and_left, exists_eq, and_true]

theorem delivers_forM {items : List α} {step : α → Publication Unit} {told : α → List Block}
    (each : ∀ item, Delivers (step item) (told item)) :
    Delivers (items.forM step) (items.flatMap told) := by
  induction items with
  | nil => exact delivers_pure ()
  | cons item rest ih => exact (each item).bind fun _ => ih

theorem delivers_descriptor (block : Block) : Delivers (descriptor block) [block] := by
  have announced : Delivers (announce block) [] := by
    unfold announce
    split
    · exact delivers_pure ()
    · exact delivers_ofAttempt rfl
  exact announced.bind fun _ => delivers_append block

theorem delivers_memory (plan : MemoryPlan) : Delivers (memory plan) plan.descriptors := by
  have delivers : Delivers (memory plan) (plan.descriptors.flatMap fun block => [block]) :=
    delivers_forM delivers_descriptor
  rwa [List.flatMap_singleton'] at delivers

theorem delivers_deviceTree (address : UInt64) :
    Delivers (deviceTree address) [.generic .deviceTree address] :=
  (delivers_ofAttempt rfl).bind fun _ => delivers_append _

def volumeBlocks (region : Region) : List Block :=
  if region.isEmpty then []
  else [.memoryAllocation region .bootServicesData, .firmwareVolume region]

theorem delivers_volume (region : Region) : Delivers (volume region) (volumeBlocks region) := by
  unfold volume volumeBlocks
  split
  · exact delivers_ofAttempt rfl
  · exact (delivers_ofAttempt rfl).bind fun _ =>
      (delivers_append _).bind fun _ => delivers_append _

structure Spread (regions : List Region) : Prop where
  fits : ∀ region ∈ regions, region.bound < UInt64.size
  apart : regions.Pairwise fun earlier later => ¬earlier.Meets later

variable {earlier regions : List Region} {region : Region}

theorem Spread.of_append (spread : Spread (earlier ++ regions)) : Spread earlier where
  fits := fun region member => spread.fits region (List.mem_append_left _ member)
  apart := (List.pairwise_append.mp spread.apart).1

theorem spread_append_singleton (spread : Spread earlier) :
    Spread (earlier ++ [region]) ↔
      region.bound < UInt64.size ∧ ∀ other ∈ earlier, ¬other.Meets region := by
  constructor
  · intro longer
    have apart := (List.pairwise_append.mp longer.apart).2.2
    exact ⟨longer.fits region (by simp), fun other member => apart other member region (by simp)⟩
  · intro added
    obtain ⟨fits, apart⟩ := added
    exact {
      fits := fun other member => by
        rcases List.mem_append.mp member with before | last
        · exact spread.fits other before
        · exact List.mem_singleton.mp last ▸ fits
      apart := List.pairwise_append.mpr ⟨spread.apart, List.pairwise_singleton _ _,
        fun other member last same => List.mem_singleton.mp same ▸ apart other member⟩ }

theorem find_overlap_eq_none_iff (spread : Spread earlier) :
    (earlier.find? fun other => other.overlaps region) = none ↔
      ∀ other ∈ earlier, ¬other.Meets region := by
  rw [List.find?_eq_none]
  refine forall₂_congr fun other member => ?_
  rw [Region.overlaps_iff_meets (spread.fits other member)]

theorem checkVolumes_eq_ok_iff (spread : Spread earlier) :
    (checkVolumes earlier regions).result = .ok () ↔ Spread (earlier ++ regions) := by
  -- the regions checked so far are spread out, and each step moves one more over to them
  induction regions generalizing earlier with
  | nil =>
    rw [List.append_nil]
    exact iff_of_true rfl spread
  | cons region rest ih =>
    have split : earlier ++ region :: rest = (earlier ++ [region]) ++ rest := by simp
    rw [split]
    by_cases fits : region.bound < UInt64.size
    case neg =>
      have stop := Region.stop?_eq_none_iff.mpr (Nat.not_lt.mp fits)
      simp only [checkVolumes, stop]
      refine iff_of_false nofun fun whole => ?_
      exact fits ((spread_append_singleton spread).mp whole.of_append).1
    have stop := Region.stop?_of_lt fits
    cases found : earlier.find? fun other => other.overlaps region with
    | some other =>
      simp only [checkVolumes, stop, found]
      refine iff_of_false nofun fun whole => ?_
      have apart := ((spread_append_singleton spread).mp whole.of_append).2
      rw [(find_overlap_eq_none_iff spread).mpr apart] at found
      cases found
    | none =>
      simp only [checkVolumes, stop, found]
      have apart := (find_overlap_eq_none_iff spread).mp found
      exact ih ((spread_append_singleton spread).mpr ⟨fits, apart⟩)

theorem allocations_volumeBlocks (regions : List Region) :
    ((regions.flatMap volumeBlocks).filter Block.isAllocation).filterMap Block.region? =
      regions.filter fun region => !region.isEmpty := by
  induction regions with
  | nil => rfl
  | cons region rest ih =>
    rw [List.flatMap_cons, List.filter_append, List.filterMap_append, ih, List.filter_cons]
    unfold volumeBlocks
    cases empty : region.isEmpty <;> rfl

theorem region_of_mem_volumeBlocks {block : Block} (member : block ∈ volumeBlocks region) :
    0 < region.size.toNat ∧ block.region? = some region := by
  unfold volumeBlocks at member
  split at member
  next => contradiction
  next nonempty =>
    rw [Bool.not_eq_true, Region.isEmpty_eq_false_iff] at nonempty
    simp only [List.mem_cons, List.not_mem_nil, or_false] at member
    rcases member with rfl | rfl <;> exact ⟨nonempty, rfl⟩

theorem pairwise_nonempty :
    (regions.filter fun region => !region.isEmpty).Pairwise (fun a b => ¬a.Meets b) ↔
      regions.Pairwise fun a b => ¬a.Meets b := by
  rw [List.pairwise_filter]
  -- an empty region is left out, but it meets nothing either
  refine List.Pairwise.iff fun {a b} => ⟨fun apart meets => ?_, fun apart _ _ => apart⟩
  exact apart (by simp [meets.nonempty]) (by simp [meets.symm.nonempty]) meets

theorem sound_volumes_iff {list : BlockList} (sound : list.Sound) :
    (list.extend (regions.flatMap volumeBlocks)).Sound ↔
      list.blocks.length + (regions.flatMap volumeBlocks).length ≤ list.capacity ∧
        Spread regions ∧ ∀ region ∈ regions, ∀ other ∈ list.allocations, ¬other.Meets region := by
  have allocations := list.allocations_extend (regions.flatMap volumeBlocks)
  rw [allocations_volumeBlocks] at allocations
  constructor
  · intro longer
    have apart := longer.allocations
    rw [allocations, List.pairwise_append] at apart
    refine ⟨by simpa [BlockList.extend] using longer.capacity,
      ⟨fun region member => ?_, pairwise_nonempty.mp apart.2.1⟩, ?_⟩
    · cases empty : region.isEmpty with
      | true =>
        rw [Region.bound, Region.isEmpty_iff.mp empty]
        exact region.base.toNat_lt
      | false =>
        have inside : Block.firmwareVolume region ∈ volumeBlocks region := by
          simp [volumeBlocks, empty]
        exact (longer.regions _ (List.mem_append_right _
          (List.mem_flatMap_of_mem member inside)) region rfl).2
    · intro region member other earlier meets
      exact apart.2.2 other earlier region
        (List.mem_filter.mpr ⟨member, by simp [meets.symm.nonempty]⟩) meets
  · intro extended
    obtain ⟨capacity, spread, clear⟩ := extended
    exact {
      capacity := by simpa [BlockList.extend] using capacity
      regions := by
        intro block member region found
        rcases List.mem_append.mp member with before | new
        · exact sound.regions block before region found
        · obtain ⟨volume, volumeMember, inside⟩ := List.mem_flatMap.mp new
          obtain ⟨nonempty, same⟩ := region_of_mem_volumeBlocks inside
          obtain rfl := Option.some.inj (same.symm.trans found)
          exact ⟨nonempty, spread.fits _ volumeMember⟩
      allocations := by
        rw [allocations, List.pairwise_append]
        exact ⟨sound.allocations, pairwise_nonempty.mpr spread.apart,
          fun other before volume member => clear volume (List.mem_of_mem_filter member) other before⟩ }

theorem spread_of_sound {list : BlockList}
    (sound : (list.extend (regions.flatMap volumeBlocks)).Sound) : Spread regions :=
  ((sound_volumes_iff sound.of_extend).mp sound).2.1

theorem delivers_volumes (regions : List Region) :
    Delivers (volumes regions) (regions.flatMap volumeBlocks) := by
  have start : Spread [] := ⟨nofun, .nil⟩
  cases checked : (checkVolumes [] regions).result with
  | ok =>
    exact (delivers_ofAttempt checked).bind fun _ => delivers_forM delivers_volume
  | error failure =>
    -- volumes that fail the check would not be taken one by one either
    have clash {list : BlockList} : ¬(list.extend (regions.flatMap volumeBlocks)).Sound := by
      intro sound
      have passed := (checkVolumes_eq_ok_iff start).mpr (spread_of_sound sound)
      rw [checked] at passed
      cases passed
    have stopped (list : BlockList) : ¬Succeeds (volumes regions) list :=
      not_succeeds_of_error (Routine.bind_of_error checked _).1
    exact {
      partly := by
        intro list
        refine ⟨[], List.nil_prefix, ?_, iff_of_false (stopped list) fun nothing => ?_⟩
        · rw [BlockList.extend_nil]
          exact (Routine.bind_of_error checked _).2
        · have empty := BlockList.sound_empty 0
          rw [← BlockList.extend_nil (.empty 0), nothing] at empty
          exact clash empty
      wholly := fun list _ => iff_of_false (stopped list) clash }

def queue (config : Config) (plan : MemoryPlan) (address : UInt64) : List Block :=
  plan.descriptors ++ ([.generic .deviceTree address] ++ config.volumes.flatMap volumeBlocks)

def publish (config : Config) (plan : MemoryPlan) (address : UInt64) : Publication MemoryPlan := do
  .log .info .platform ("PEI memory " ++ plan.permanentMemory.describe)
  memory plan
  deviceTree address
  volumes config.volumes
  return plan

theorem delivers_publish (config : Config) (plan : MemoryPlan) (address : UInt64) :
    Delivers (publish config plan address) (queue config plan address) := by
  have volumesDeliver : Delivers (volumes config.volumes >>= fun _ => pure plan) _ :=
    (delivers_volumes config.volumes).bind fun _ => delivers_pure plan
  rw [List.append_nil] at volumesDeliver
  exact (delivers_ofAttempt rfl).bind fun _ => (delivers_memory plan).bind fun _ =>
    (delivers_deviceTree address).bind fun _ => volumesDeliver

theorem result_publish {config : Config} {plan value : MemoryPlan} {address : UInt64}
    {list : BlockList} (result : (publish config plan address list).1.result = .ok value) :
    value = plan := by
  have yields : (publish config plan address).Yields list value _ := ⟨result, rfl⟩
  simp only [publish, Routine.yields_bind, Routine.yields_pure] at yields
  obtain ⟨_, _, _, _, _, _, _, _, _, _, _, _, same, _⟩ := yields
  exact same.symm

def planned (config : Config) (content : Memory) (contextPointer : UInt64) :
    Attempt MemoryPlan := do
  let window ← Discovery.scanContext content contextPointer config.reservedPath
  MemoryPlan.ofWindow window config.reservedPrefix

theorem platform_eq (config : Config) (content : Memory) (contextPointer : UInt64) :
    platform config content contextPointer =
      .ofAttempt (planned config content contextPointer) >>= fun plan =>
        publish config plan (content.readContext contextPointer).deviceTree :=
  (Routine.ofAttempt_bind _ _ _).symm

structure Placed (config : Config) (window : Window) (plan : MemoryPlan) : Prop where
  spread : Spread config.volumes
  clear : .memoryAllocation window.system .reserved ∈ plan.descriptors →
    ∀ volume ∈ config.volumes, volume.isEmpty = false → ¬volume.Meets window.system

theorem length_volumeBlocks (region : Region) : (volumeBlocks region).length ≤ 2 := by
  unfold volumeBlocks
  split <;> simp

theorem sound_descriptors {window : Window} {plan : MemoryPlan} {capacity : Nat}
    (publishable : MemoryPlan.Publishable window plan) (room : 9 ≤ capacity) (address : UInt64) :
    ((BlockList.empty capacity).extend
      (plan.descriptors ++ [.generic .deviceTree address])).Sound where
  capacity := by
    have length := publishable.length
    simp only [BlockList.extend, BlockList.empty, List.nil_append, List.length_append,
      List.length_singleton]
    omega
  regions := by
    intro block member region found
    change block ∈ plan.descriptors ++ _ at member
    rcases List.mem_append.mp member with described | last
    · exact publishable.regions block described region found
    · obtain rfl := List.mem_singleton.mp last
      cases found
  allocations := by
    rw [BlockList.allocations_extend, List.filter_append, List.filterMap_append]
    rcases publishable.allocations with none | one
    · rw [none]
      exact .nil
    · rw [one]
      exact List.pairwise_singleton _ _

theorem mem_allocations_descriptors {window : Window} {plan : MemoryPlan}
    (publishable : MemoryPlan.Publishable window plan) (capacity : Nat) (address : UInt64)
    (region : Region) :
    region ∈ ((BlockList.empty capacity).extend
        (plan.descriptors ++ [.generic .deviceTree address])).allocations ↔
      .memoryAllocation window.system .reserved ∈ plan.descriptors ∧ region = window.system := by
  have member : Block.memoryAllocation window.system .reserved ∈ plan.descriptors ↔
      .memoryAllocation window.system .reserved ∈ plan.descriptors.filter Block.isAllocation := by
    rw [List.mem_filter, Block.isAllocation, and_iff_left rfl]
  rw [BlockList.allocations_extend, List.filter_append, List.filterMap_append, member]
  rcases publishable.allocations with none | one
  · rw [none]
    simp [BlockList.allocations, BlockList.empty, Block.isAllocation]
  · rw [one]
    simp [BlockList.allocations, BlockList.empty, Block.isAllocation, Block.region?]

theorem sound_queue_iff {config : Config} {window : Window} {plan : MemoryPlan} {capacity : Nat}
    (publishable : MemoryPlan.Publishable window plan) (room : 9 ≤ capacity) (address : UInt64) :
    ((BlockList.empty capacity).extend (queue config plan address)).Sound ↔
      Placed config window plan := by
  have sound := sound_descriptors publishable room address
  have allocated := mem_allocations_descriptors publishable capacity address
  have fits : ((BlockList.empty capacity).extend
        (plan.descriptors ++ [.generic .deviceTree address])).blocks.length +
      (config.volumes.flatMap volumeBlocks).length ≤ capacity := by
    have described := publishable.length
    have early := length_volumeBlocks config.earlyVolume
    have driver := length_volumeBlocks config.driverVolume
    simp only [BlockList.extend, BlockList.empty, Config.volumes, List.nil_append,
      List.length_append, List.flatMap_cons, List.flatMap_nil, List.append_nil,
      List.length_singleton]
    omega
  rw [queue, ← List.append_assoc, ← BlockList.extend_extend, sound_volumes_iff sound]
  constructor
  · intro extended
    obtain ⟨_, spread, clear⟩ := extended
    exact ⟨spread, fun whole volume member _ meets =>
      clear volume member window.system ((allocated _).mpr ⟨whole, rfl⟩) meets.symm⟩
  · intro placed
    refine ⟨fits, placed.spread, fun volume member other earlier meets => ?_⟩
    obtain ⟨whole, rfl⟩ := (allocated other).mp earlier
    exact placed.clear whole volume member meets.symm.nonempty meets.symm

theorem succeeds_publish_iff {config : Config} {window : Window} {plan : MemoryPlan}
    {capacity : Nat} (publishable : MemoryPlan.Publishable window plan) (room : 9 ≤ capacity)
    (address : UInt64) :
    Succeeds (publish config plan address) (.empty capacity) ↔ Placed config window plan := by
  rw [(delivers_publish config plan address).wholly _ (BlockList.sound_empty capacity),
    sound_queue_iff publishable room]

section Platform

variable {config : Config} {content : Memory} {contextPointer : UInt64}

theorem platform_of_error {failure : Failure}
    (failed : (planned config content contextPointer).result = .error failure) (list : BlockList) :
    (platform config content contextPointer list).1.result = .error failure ∧
      (platform config content contextPointer list).2 = list := by
  rw [platform_eq]
  exact Routine.bind_of_error failed _

theorem platform_of_ok {plan : MemoryPlan}
    (made : (planned config content contextPointer).result = .ok plan) (list : BlockList) :
    let run := publish config plan (content.readContext contextPointer).deviceTree list
    (platform config content contextPointer list).1.result = run.1.result ∧
      (platform config content contextPointer list).2 = run.2 := by
  rw [platform_eq]
  exact Routine.bind_of_ok made _

theorem planned_eq_ok_iff {plan : MemoryPlan} :
    (planned config content contextPointer).result = .ok plan ↔ ∃ window,
      (Discovery.scanContext content contextPointer config.reservedPath).result = .ok window ∧
        (MemoryPlan.ofWindow window config.reservedPrefix).result = .ok plan :=
  Attempt.result_bind_eq_ok

theorem succeeds_platform_iff {list : BlockList} :
    Succeeds (platform config content contextPointer) list ↔ ∃ plan,
      (planned config content contextPointer).result = .ok plan ∧
        Succeeds (publish config plan (content.readContext contextPointer).deviceTree) list := by
  cases ended : (planned config content contextPointer).result with
  | error failure => simpa using not_succeeds_of_error (platform_of_error ended list).1
  | ok plan => simp [Succeeds, (platform_of_ok ended list).1]

end Platform

structure Publishes (config : Config) (content : Memory) (contextPointer : UInt64)
    (list : BlockList) (result : Except Failure MemoryPlan) (after : BlockList) : Prop where
  refused : ∀ failure, (planned config content contextPointer).result = .error failure →
    result = .error failure ∧ after = list
  published : ∀ plan, (planned config content contextPointer).result = .ok plan →
    let blocks := queue config plan (content.readContext contextPointer).deviceTree
    ∃ done, done <+: blocks ∧ after = { list with blocks := list.blocks ++ done } ∧
      ((∃ value, result = .ok value) ↔ done = blocks) ∧ ∀ value, result = .ok value → value = plan
  fresh : ∀ capacity, 9 ≤ capacity → list = .empty capacity →
    ((∃ value, result = .ok value) ↔ ∃ window plan,
      (Discovery.scanContext content contextPointer config.reservedPath).result = .ok window ∧
        (MemoryPlan.ofWindow window config.reservedPrefix).result = .ok plan ∧
        Placed config window plan)

theorem platform_publishes (config : Config) (content : Memory) (contextPointer : UInt64)
    (list : BlockList) :
    let run := platform config content contextPointer list
    Publishes config content contextPointer list run.1.result run.2 where
  refused := fun _ failed => platform_of_error failed list
  published := by
    intro plan made
    obtain ⟨result, after⟩ := platform_of_ok made list
    rw [result, after]
    obtain ⟨done, begins, grown, whole⟩ := (delivers_publish config plan
      (content.readContext contextPointer).deviceTree).partly list
    exact ⟨done, begins, grown, whole, fun value => result_publish⟩
  fresh := by
    intro capacity room start
    subst start
    refine succeeds_platform_iff.trans ?_
    constructor
    · intro run
      obtain ⟨plan, made, succeeds⟩ := run
      obtain ⟨window, scanned, fromWindow⟩ := planned_eq_ok_iff.mp made
      have publishable := MemoryPlan.publishable_of_ofWindow fromWindow
      exact ⟨window, plan, scanned, fromWindow,
        (succeeds_publish_iff publishable room _).mp succeeds⟩
    · intro ready
      obtain ⟨window, plan, scanned, fromWindow, placed⟩ := ready
      have publishable := MemoryPlan.publishable_of_ofWindow fromWindow
      exact ⟨plan, planned_eq_ok_iff.mpr ⟨window, scanned, fromWindow⟩,
        (succeeds_publish_iff publishable room _).mpr placed⟩

end EarlyBoot.Platform.Publication
