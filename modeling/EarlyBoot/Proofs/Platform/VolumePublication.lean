import EarlyBoot.Proofs.Platform.Publication

set_option autoImplicit false

namespace EarlyBoot.Platform.Publication

open HandOff (Block BlockList Error)
open Routine

section Clashes

variable {earlier regions : List Region} {failure : Failure}

inductive Clash (regions : List Region) : Failure → Prop where
  | overflow {earlier rest : List Region} {region : Region}
    (split : regions = earlier ++ region :: rest) (spread : Spread earlier)
    (exceeds : UInt64.size ≤ region.bound) : Clash regions .addressOverflow
  | overlap {earlier rest : List Region} {region other : Region}
    (split : regions = earlier ++ region :: rest) (spread : Spread earlier)
    (fits : region.bound < UInt64.size) (listed : other ∈ earlier) (meets : other.Meets region) :
    Clash regions (.overlappingAllocation region)

theorem clash_of_checkVolumes (spread : Spread earlier)
    (refused : (checkVolumes earlier regions).result = .error failure) :
    Clash (earlier ++ regions) failure := by
  induction regions generalizing earlier with
  | nil => cases refused
  | cons region rest ih =>
    by_cases fits : region.bound < UInt64.size
    case neg =>
      rw [checkVolumes, Region.stop?_eq_none_iff.mpr (Nat.not_lt.mp fits)] at refused
      rw [← Except.error.inj refused]
      exact .overflow rfl spread (Nat.not_lt.mp fits)
    rw [checkVolumes, Region.stop?_of_lt fits] at refused
    cases found : earlier.find? fun other => other.overlaps region with
    | some other =>
      rw [found] at refused
      rw [← Except.error.inj refused]
      have listed := List.mem_of_find?_eq_some found
      have overlaps : other.overlaps region = true := by simpa using List.find?_some found
      have meets := (Region.overlaps_iff_meets (spread.fits other listed)).mp overlaps
      exact .overlap rfl spread fits listed meets
    | none =>
      rw [found] at refused
      have apart := (find_overlap_eq_none_iff spread).mp found
      have longer := ih ((spread_append_singleton spread).mpr ⟨fits, apart⟩) refused
      rwa [List.append_assoc, List.singleton_append] at longer

theorem spread_nil : Spread [] := ⟨nofun, .nil⟩

theorem checkVolumes_of_spread (spread : Spread regions) :
    (checkVolumes [] regions).result = .ok () :=
  (checkVolumes_eq_ok_iff spread_nil).mpr spread

theorem volumes_of_clash (clashes : ¬Spread regions) (list : BlockList) :
    ∃ failure, (volumes regions).Fails list failure list ∧ Clash regions failure := by
  cases checked : (checkVolumes [] regions).result with
  | ok => exact absurd ((checkVolumes_eq_ok_iff spread_nil).mp checked) clashes
  | error failure =>
    exact ⟨failure, bind_of_error checked _, clash_of_checkVolumes spread_nil checked⟩

end Clashes

structure HaltsAt (list : BlockList) (blocks : List Block) (failure : Failure) (after : BlockList)
    (done : List Block) (block : Block) (error : Error) : Prop where
  next : done ++ [block] <+: blocks
  grown : after = list.extend done
  refused : after.append block = .error error
  named : failure = .descriptor error

def Halts {α : Type} (routine : Publication α) (blocks : List Block) : Prop :=
  ∀ list failure after, routine.Fails list failure after →
    ∃ done block error, HaltsAt list blocks failure after done block error

section Halts

variable {α β : Type} {blocks more : List Block}

theorem halts_of_yields {routine : Publication α} {value : α}
    (yields : ∀ list, ∃ after, routine.Yields list value after) : Halts routine blocks := by
  intro list failure after failed
  obtain ⟨_, yields⟩ := yields list
  exact absurd failed yields.not_fails

theorem halts_ofAttempt {attempt : Attempt α} {value : α} (ended : attempt.result = .ok value) :
    Halts (.ofAttempt attempt) blocks :=
  halts_of_yields fun list => ⟨list, ended, rfl⟩

theorem halts_append (block : Block) : Halts (append block) [block] := by
  intro list failure after failed
  cases appended : list.append block with
  | ok longer => simp [append, appended, Fails] at failed
  | error error =>
    simp only [append, appended, Fails, Attempt.result_fail, Except.error.injEq] at failed
    obtain ⟨rfl, rfl⟩ := failed
    exact ⟨[], block, error, List.prefix_rfl, list.extend_nil.symm, appended, rfl⟩

theorem Halts.bind {first : Publication α} {next : α → Publication β}
    (firstHalts : Halts first blocks) (firstDelivers : Delivers first blocks)
    (nextHalts : ∀ value, Halts (next value) more) : Halts (first >>= next) (blocks ++ more) := by
  intro list failure after failed
  rcases fails_bind.mp failed with stopped | ⟨value, between, yields, stopped⟩
  · obtain ⟨done, block, error, halts⟩ := firstHalts list failure after stopped
    exact ⟨done, block, error,
      { halts with next := halts.next.trans (List.prefix_append blocks more) }⟩
  · have succeeds : Succeeds first list := ⟨value, yields.1⟩
    have whole : between = list.extend blocks := yields.2 ▸ firstDelivers.after succeeds
    obtain ⟨done, block, error, halts⟩ := nextHalts value between failure after stopped
    refine ⟨blocks ++ done, block, error, { halts with next := ?_, grown := ?_ }⟩
    · rw [List.append_assoc, List.prefix_append_right_inj]
      exact halts.next
    · rw [halts.grown, whole, BlockList.extend_extend]

theorem halts_forM {items : List α} {step : α → Publication Unit} {told : α → List Block}
    (delivers : ∀ item, Delivers (step item) (told item))
    (halts : ∀ item, Halts (step item) (told item)) :
    Halts (items.forM step) (items.flatMap told) := by
  induction items with
  | nil => exact halts_of_yields fun list => ⟨list, yields_pure.mpr ⟨rfl, rfl⟩⟩
  | cons item rest ih => exact (halts item).bind (delivers item) fun _ => ih

theorem halts_volume (region : Region) : Halts (volume region) (volumeBlocks region) := by
  unfold volume volumeBlocks
  split
  · exact halts_ofAttempt rfl
  · exact (halts_ofAttempt rfl).bind (delivers_ofAttempt rfl) fun _ =>
      (halts_append _).bind (delivers_append _) fun _ => halts_append _

theorem halts_volumes {regions : List Region} (spread : Spread regions) :
    Halts (volumes regions) (regions.flatMap volumeBlocks) :=
  have checked := checkVolumes_of_spread spread
  (halts_ofAttempt checked).bind (delivers_ofAttempt checked) fun _ =>
    halts_forM delivers_volume halts_volume

end Halts

def allocated (blocks : List Block) : List Region :=
  (blocks.filter Block.isAllocation).filterMap Block.region?

inductive Obstructed (regions : List Region) (list : BlockList) (done : List Block) :
    Block → Error → Prop where
  | full {block : Block} (noRoom : list.capacity ≤ list.blocks.length + done.length) :
    Obstructed regions list done block .full
  | allocation {region other : Region} (listed : region ∈ regions)
    (held : other ∈ list.allocations)
    (clash : region.base < other.clippedStop ∧ other.base < region.base + region.size)
    (meets : list.Sound → region.Meets other)
    (clear : ∀ published ∈ allocated done, ¬region.Meets published) :
    Obstructed regions list done (.memoryAllocation region .bootServicesData)
      (.overlappingAllocation region)

section Obstructions

variable {regions : List Region} {list : BlockList} {done : List Block} {block : Block}
  {error : Error} {region : Region}

theorem mem_of_next (next : done ++ [block] <+: regions.flatMap volumeBlocks) :
    ∃ region ∈ regions, block ∈ volumeBlocks region :=
  List.mem_flatMap.mp (next.subset (List.mem_append_right done (List.mem_singleton_self block)))

theorem eq_memoryAllocation (member : block ∈ volumeBlocks region)
    (allocation : block.isAllocation = true) :
    block = .memoryAllocation region .bootServicesData := by
  unfold volumeBlocks at member
  split at member
  next => contradiction
  next =>
    rcases List.mem_pair.mp member with same | same
    · exact same
    · rw [same] at allocation
      cases allocation

theorem allocated_begins
    (next : done ++ [.memoryAllocation region .bootServicesData] <+:
      regions.flatMap volumeBlocks) :
    allocated done ++ [region] <+: regions.filter fun region => !region.isEmpty := by
  have begins := (next.filter Block.isAllocation).filterMap Block.region?
  rwa [allocations_volumeBlocks, List.filter_append, List.filterMap_append] at begins

theorem clear_of_next (spread : Spread regions)
    (next : done ++ [.memoryAllocation region .bootServicesData] <+:
      regions.flatMap volumeBlocks) :
    ∀ published ∈ allocated done, ¬region.Meets published := by
  have apart := (pairwise_nonempty.mpr spread.apart).sublist (allocated_begins next).sublist
  intro published member meets
  exact (List.pairwise_append.mp apart).2.2 published member region (List.mem_singleton_self region)
    meets.symm

theorem obstructed_of_refused (spread : Spread regions)
    (next : done ++ [block] <+: regions.flatMap volumeBlocks)
    (refused : (list.extend done).append block = .error error) :
    Obstructed regions list done block error := by
  obtain ⟨volume, listed, member⟩ := mem_of_next next
  obtain ⟨nonempty, found⟩ := region_of_mem_volumeBlocks member
  have fits := spread.fits volume listed
  rcases BlockList.refusal_of_fits found nonempty fits refused with
    ⟨rfl, noRoom⟩ | ⟨rfl, allocation, other, earlier, clash⟩
  · exact .full (List.length_append ▸ noRoom)
  obtain rfl := eq_memoryAllocation member allocation
  have clear := clear_of_next spread next
  rw [BlockList.allocations_extend] at earlier
  rcases List.mem_append.mp earlier with held | published
  · refine .allocation listed held clash (fun sound => ?_) clear
    obtain ⟨otherNonempty, otherFits⟩ := sound.allocation held
    exact (Region.meets_iff_of_fits nonempty otherNonempty fits otherFits).mpr clash
  · -- what is done of the same volumes passed the check against this one
    have volumes := (allocated_begins next).subset (List.mem_append_left _ published)
    obtain ⟨otherListed, otherNonempty⟩ := List.mem_filter.mp volumes
    rw [Bool.not_eq_true', Region.isEmpty_eq_false_iff] at otherNonempty
    have otherFits := spread.fits other otherListed
    have meets := (Region.meets_iff_of_fits nonempty otherNonempty fits otherFits).mpr clash
    exact absurd meets (clear other published)

end Obstructions

structure VolumesPublished (regions : List Region) (list : BlockList)
    (result : Except Failure Unit) (after : BlockList) : Prop where
  clashing : ¬Spread regions →
    after = list ∧ ∃ failure, result = .error failure ∧ Clash regions failure
  published : ∃ done, done <+: regions.flatMap volumeBlocks ∧
    after = { list with blocks := list.blocks ++ done } ∧
    (result = .ok () ↔ done = regions.flatMap volumeBlocks)
  refused : Spread regions → ∀ failure, result = .error failure →
    ∃ done block error, done ++ [block] <+: regions.flatMap volumeBlocks ∧
      after = { list with blocks := list.blocks ++ done } ∧
      failure = .descriptor error ∧ Obstructed regions list done block error

theorem volumes_published (regions : List Region) (list : BlockList) :
    VolumesPublished regions list (volumes regions list).1.result (volumes regions list).2 where
  clashing := by
    intro clashes
    obtain ⟨failure, failed, clash⟩ := volumes_of_clash clashes list
    exact ⟨failed.2, failure, failed.1, clash⟩
  published := by
    obtain ⟨done, begins, after, whole⟩ := (delivers_volumes regions).partly list
    refine ⟨done, begins, after, ?_⟩
    rw [← whole]
    exact ⟨fun ended => ⟨(), ended⟩, fun ⟨_, ended⟩ => ended⟩
  refused := by
    intro spread failure failed
    obtain ⟨done, block, error, halts⟩ := halts_volumes spread list failure _ ⟨failed, rfl⟩
    have refused := halts.refused
    rw [halts.grown] at refused
    exact ⟨done, block, error, halts.next, halts.grown, halts.named,
      obstructed_of_refused spread halts.next refused⟩

-- an allocation inside the second of the volumes
def heldList : BlockList :=
  (BlockList.empty 8).extend [.memoryAllocation ⟨0x20300000, 0x1000⟩ .reserved]

def heldVolumes : List Region :=
  [⟨0x20000000, 0x200000⟩, ⟨0x20200000, 0xe00000⟩]

def clashingVolumes : List Region :=
  [⟨0x20000000, 0x200000⟩, ⟨0x201f0000, 0x1000⟩]

theorem heldList_volumes_published :
    (Spread heldVolumes ∧
      (volumes heldVolumes heldList).1.result =
        .error (.descriptor (.overlappingAllocation ⟨0x20200000, 0xe00000⟩)) ∧
      ∃ done block error, done ++ [block] <+: heldVolumes.flatMap volumeBlocks ∧
        (volumes heldVolumes heldList).2 = { heldList with blocks := heldList.blocks ++ done } ∧
        .descriptor (.overlappingAllocation ⟨0x20200000, 0xe00000⟩) = Failure.descriptor error ∧
        Obstructed heldVolumes heldList done block error) ∧
      ¬Spread clashingVolumes ∧ (volumes clashingVolumes heldList).2 = heldList := by
  have spread : Spread heldVolumes := (checkVolumes_eq_ok_iff spread_nil).mp rfl
  have ended : (volumes heldVolumes heldList).1.result =
      .error (.descriptor (.overlappingAllocation ⟨0x20200000, 0xe00000⟩)) := by
    decide +kernel
  have clashes : ¬Spread clashingVolumes := by
    rw [← List.nil_append clashingVolumes, ← checkVolumes_eq_ok_iff spread_nil]
    decide +kernel
  exact ⟨⟨spread, ended, (volumes_published heldVolumes heldList).refused spread _ ended⟩,
    clashes, ((volumes_published clashingVolumes heldList).clashing clashes).1⟩

end EarlyBoot.Platform.Publication
