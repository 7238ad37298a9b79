import EarlyBoot.HandOff.BlockList
import EarlyBoot.Proofs.Memory.Region

set_option autoImplicit false

namespace EarlyBoot.HandOff.BlockList

structure Accepts (list : BlockList) (block : Block) : Prop where
  room : list.blocks.length < list.capacity
  nonempty : ∀ region ∈ block.region?, 0 < region.size.toNat
  fits : ∀ region ∈ block.region?, region.bound < UInt64.size
  apart : block.isAllocation = true → ∀ region ∈ block.region?, ∀ other ∈ list.allocations,
    ¬region.Meets other

-- the first condition that fails, in the order in which they are looked at
inductive Refuses (list : BlockList) (block : Block) : Error → Prop where
  | full (noRoom : list.capacity ≤ list.blocks.length) : Refuses list block .full
  | zeroLength {region : Region} (room : list.blocks.length < list.capacity)
    (found : region ∈ block.region?) (empty : region.size.toNat = 0) :
    Refuses list block (.zeroLength region.base)
  | addressOverflow {region : Region} (room : list.blocks.length < list.capacity)
    (found : region ∈ block.region?) (nonempty : 0 < region.size.toNat)
    (overflow : UInt64.size ≤ region.bound) : Refuses list block (.addressOverflow region)
  | overlappingAllocation {region other : Region} (room : list.blocks.length < list.capacity)
    (found : region ∈ block.region?) (nonempty : 0 < region.size.toNat)
    (fits : region.bound < UInt64.size) (allocation : block.isAllocation = true)
    (earlier : other ∈ list.allocations) (meets : region.Meets other) :
    Refuses list block (.overlappingAllocation region)

structure Sound (list : BlockList) : Prop where
  capacity : list.blocks.length ≤ list.capacity
  regions : ∀ block ∈ list.blocks, ∀ region ∈ block.region?,
    0 < region.size.toNat ∧ region.bound < UInt64.size
  allocations : list.allocations.Pairwise fun earlier later => ¬earlier.Meets later

def extend (list : BlockList) (blocks : List Block) : BlockList :=
  { list with blocks := list.blocks ++ blocks }

variable {list : BlockList} {block : Block}

theorem mem_allocations {region : Region} :
    region ∈ list.allocations ↔
      ∃ block ∈ list.blocks, block.isAllocation = true ∧ block.region? = some region := by
  simp only [allocations, List.mem_filterMap, List.mem_filter, and_assoc]

theorem Sound.allocation (sound : list.Sound) {region : Region}
    (member : region ∈ list.allocations) :
    0 < region.size.toNat ∧ region.bound < UInt64.size := by
  obtain ⟨block, inside, _, found⟩ := mem_allocations.mp member
  exact sound.regions block inside region found

theorem accepts_or_refuses (list : BlockList) (block : Block) :
    list.Accepts block ∨ ∃ error, list.Refuses block error := by
  by_cases room : list.blocks.length < list.capacity
  case neg => exact .inr ⟨_, .full (Nat.not_lt.mp room)⟩
  cases found : block.region? with
  | none => exact .inl ⟨room, by simp [found], by simp [found], by simp [found]⟩
  | some region =>
    by_cases nonempty : 0 < region.size.toNat
    case neg => exact .inr ⟨_, .zeroLength room found (Nat.eq_zero_of_not_pos nonempty)⟩
    by_cases fits : region.bound < UInt64.size
    case neg => exact .inr ⟨_, .addressOverflow room found nonempty (Nat.not_lt.mp fits)⟩
    by_cases clash : block.isAllocation = true ∧ ∃ other ∈ list.allocations, region.Meets other
    · obtain ⟨allocation, other, earlier, meets⟩ := clash
      exact .inr ⟨_, .overlappingAllocation room found nonempty fits allocation earlier meets⟩
    · refine .inl ⟨room, by simpa [found], by simpa [found], ?_⟩
      simpa [found] using clash

theorem append_of_full (noRoom : list.capacity ≤ list.blocks.length) (block : Block) :
    list.append block = .error .full := by
  simp only [append, isFull, noRoom, decide_true, if_true]
  rfl

theorem append_of_room (room : list.blocks.length < list.capacity) (block : Block) :
    list.append block = (list.check block).map fun _ => list.extend [block] := by
  simp only [append, isFull, Nat.not_le.mpr room, decide_false, Bool.false_eq_true, if_false]
  cases list.check block <;> rfl

theorem check_of_region {region : Region} (found : block.region? = some region) :
    list.check block = list.checkRegion region block.isAllocation := by
  simp only [check, found]

theorem checkRegion_cases {region : Region} (nonempty : 0 < region.size.toNat)
    (fits : region.bound < UInt64.size) (isAllocation : Bool) :
    ((isAllocation = true ∧ ∃ other ∈ list.allocations,
        region.base < other.clippedStop ∧ other.base < region.base + region.size) ∧
      list.checkRegion region isAllocation = .error (.overlappingAllocation region)) ∨
    (¬(isAllocation = true ∧ ∃ other ∈ list.allocations,
        region.base < other.clippedStop ∧ other.base < region.base + region.size) ∧
      list.checkRegion region isAllocation = .ok ()) := by
  simp only [checkRegion, Region.isEmpty_eq_false_iff.mpr nonempty, Region.stop?_of_lt fits,
    Bool.false_eq_true, if_false]
  split_ifs with clash
  · exact .inl ⟨by simpa using clash, rfl⟩
  · exact .inr ⟨by simpa using clash, rfl⟩

theorem checkRegion_of_fits (sound : list.Sound) {region : Region}
    (nonempty : 0 < region.size.toNat) (fits : region.bound < UInt64.size) (isAllocation : Bool) :
    (isAllocation = true → ∀ other ∈ list.allocations, ¬region.Meets other) ∧
        list.checkRegion region isAllocation = .ok () ∨
      (isAllocation = true ∧ ∃ other ∈ list.allocations, region.Meets other) ∧
        list.checkRegion region isAllocation = .error (.overlappingAllocation region) := by
  have clash {other : Region} (member : other ∈ list.allocations) :=
    Region.meets_iff_of_fits nonempty (sound.allocation member).1 fits (sound.allocation member).2
  rcases list.checkRegion_cases nonempty fits isAllocation with
    ⟨⟨allocation, other, earlier, order⟩, refused⟩ | ⟨clear, taken⟩
  · exact .inr ⟨⟨allocation, other, earlier, (clash earlier).mpr order⟩, refused⟩
  · refine .inl ⟨fun allocation other earlier meets => clear ?_, taken⟩
    exact ⟨allocation, other, earlier, (clash earlier).mp meets⟩

theorem refusal_of_fits {region : Region} {error : Error} (found : block.region? = some region)
    (nonempty : 0 < region.size.toNat) (fits : region.bound < UInt64.size)
    (refused : list.append block = .error error) :
    error = .full ∧ list.capacity ≤ list.blocks.length ∨
      error = .overlappingAllocation region ∧ block.isAllocation = true ∧
        ∃ other ∈ list.allocations,
          region.base < other.clippedStop ∧ other.base < region.base + region.size := by
  by_cases room : list.blocks.length < list.capacity
  case neg =>
    rw [append_of_full (Nat.not_lt.mp room)] at refused
    exact .inl ⟨(Except.error.inj refused).symm, Nat.not_lt.mp room⟩
  rw [append_of_room room, check_of_region found] at refused
  rcases list.checkRegion_cases nonempty fits block.isAllocation with
    ⟨clash, answer⟩ | ⟨_, answer⟩
  · rw [answer] at refused
    exact .inr ⟨(Except.error.inj refused).symm, clash⟩
  · rw [answer] at refused
    cases refused

theorem Accepts.append (accepts : list.Accepts block) (sound : list.Sound) :
    list.append block = .ok (list.extend [block]) := by
  rw [append_of_room accepts.room]
  cases found : block.region? with
  | none => simp only [check, found, Except.map]
  | some region =>
    rw [check_of_region found]
    obtain ⟨_, passes⟩ | ⟨⟨allocation, other, earlier, meets⟩, _⟩ :=
      checkRegion_of_fits sound (accepts.nonempty region found) (accepts.fits region found)
        block.isAllocation
    · rw [passes]
      rfl
    · exact absurd meets (accepts.apart allocation region found other earlier)

theorem Refuses.append {error : Error} (refuses : list.Refuses block error) (sound : list.Sound) :
    list.append block = .error error := by
  cases refuses with
  | full noRoom => exact append_of_full noRoom block
  | @zeroLength region room found empty =>
    rw [append_of_room room, check_of_region found, checkRegion,
      if_pos (Region.isEmpty_iff.mpr empty)]
    rfl
  | @addressOverflow region room found nonempty overflow =>
    rw [append_of_room room, check_of_region found, checkRegion,
      Region.isEmpty_eq_false_iff.mpr nonempty, Region.stop?_eq_none_iff.mpr overflow]
    rfl
  | @overlappingAllocation region other room found nonempty fits allocation earlier meets =>
    rw [append_of_room room, check_of_region found]
    obtain ⟨apart, _⟩ | ⟨_, refused⟩ :=
      checkRegion_of_fits sound nonempty fits block.isAllocation
    · exact absurd meets (apart allocation other earlier)
    · rw [refused]
      rfl

theorem append_eq_ok_iff (sound : list.Sound) {after : BlockList} :
    list.append block = .ok after ↔ list.Accepts block ∧ after = list.extend [block] := by
  constructor
  · intro appended
    rcases list.accepts_or_refuses block with accepts | ⟨error, refuses⟩
    · rw [accepts.append sound] at appended
      exact ⟨accepts, (Except.ok.inj appended).symm⟩
    · rw [refuses.append sound] at appended
      cases appended
  · rintro ⟨accepts, rfl⟩
    exact accepts.append sound

theorem append_eq_error_iff (sound : list.Sound) {error : Error} :
    list.append block = .error error ↔ list.Refuses block error := by
  refine ⟨fun refused => ?_, fun refuses => refuses.append sound⟩
  rcases list.accepts_or_refuses block with accepts | ⟨other, refuses⟩
  · rw [accepts.append sound] at refused
    cases refused
  · rw [refuses.append sound] at refused
    exact Except.error.inj refused ▸ refuses

theorem sound_empty (capacity : Nat) : (empty capacity).Sound where
  capacity := Nat.zero_le _
  regions := fun _ member => absurd member List.not_mem_nil
  allocations := .nil

theorem allocations_extend (list : BlockList) (blocks : List Block) :
    (list.extend blocks).allocations =
      list.allocations ++ (blocks.filter Block.isAllocation).filterMap Block.region? := by
  simp only [allocations, extend, List.filter_append, List.filterMap_append]

theorem Accepts.sound (accepts : list.Accepts block) (sound : list.Sound) :
    (list.extend [block]).Sound where
  capacity := by
    have room := accepts.room
    simp only [extend, List.length_append, List.length_singleton]
    omega
  regions := by
    intro other member region found
    rcases List.mem_append.mp member with earlier | last
    · exact sound.regions other earlier region found
    · rw [List.mem_singleton.mp last] at found
      exact ⟨accepts.nonempty region found, accepts.fits region found⟩
  allocations := by
    rw [allocations_extend]
    cases allocation : block.isAllocation with
    | false => simpa [allocation] using sound.allocations
    | true =>
      cases found : block.region? with
      | none => simpa [allocation, found] using sound.allocations
      | some region =>
        have new : ([block].filter Block.isAllocation).filterMap Block.region? = [region] := by
          simp [allocation, found]
        rw [new, List.pairwise_append]
        refine ⟨sound.allocations, List.pairwise_singleton _ _, fun earlier member last same => ?_⟩
        obtain rfl := List.mem_singleton.mp same
        exact fun meets => accepts.apart allocation _ found earlier member meets.symm

theorem extend_nil (list : BlockList) : list.extend [] = list := by
  rw [extend, List.append_nil]

theorem extend_extend (list : BlockList) (first second : List Block) :
    (list.extend first).extend second = list.extend (first ++ second) := by
  simp only [extend, List.append_assoc]

theorem eq_extend_of_append {longer : BlockList} (appended : list.append block = .ok longer) :
    longer = list.extend [block] := by
  by_cases room : list.blocks.length < list.capacity
  · rw [append_of_room room] at appended
    cases checked : list.check block with
    | error error => simp [checked, Except.map] at appended
    | ok => simpa [checked, Except.map] using appended.symm
  · rw [append_of_full (Nat.not_lt.mp room)] at appended
    cases appended

theorem Sound.of_extend {blocks : List Block} (sound : (list.extend blocks).Sound) :
    list.Sound where
  capacity := by
    have capacity := sound.capacity
    simp only [extend, List.length_append] at capacity
    omega
  regions := fun block member => sound.regions block (List.mem_append_left blocks member)
  allocations := by
    have apart := sound.allocations
    rw [allocations_extend] at apart
    exact (List.pairwise_append.mp apart).1

theorem sound_extend_iff (sound : list.Sound) :
    (list.extend [block]).Sound ↔ list.Accepts block := by
  refine ⟨fun longer => ?_, fun accepts => accepts.sound sound⟩
  have member : block ∈ (list.extend [block]).blocks :=
    List.mem_append_right _ (List.mem_singleton_self block)
  exact {
    room := by simpa [extend] using longer.capacity
    nonempty := fun region found => (longer.regions block member region found).1
    fits := fun region found => (longer.regions block member region found).2
    apart := by
      intro allocation region found other earlier meets
      have apart := longer.allocations
      rw [allocations_extend, List.pairwise_append] at apart
      exact apart.2.2 other earlier region (by simpa [allocation] using found) meets.symm }

def accepted (calls : List Block) (replies : List (Except Error Unit)) : List Block :=
  ((calls.zip replies).filter fun call => call.2.isOk).map Prod.fst

structure Answers (list : BlockList) (block : Block) (reply : Except Error Unit)
    (after : BlockList) : Prop where
  accepts_iff : reply = .ok () ↔ list.Accepts block
  refuses_iff : ∀ error, reply = .error error ↔ list.Refuses block error
  grows : reply = .ok () → after = { list with blocks := list.blocks ++ [block] }
  stays : reply ≠ .ok () → after = list

theorem offer_answers (sound : list.Sound) (block : Block) :
    list.Answers block (list.offer block).1 (list.offer block).2 := by
  rcases list.accepts_or_refuses block with accepts | ⟨error, refuses⟩
  · have appended := accepts.append sound
    have reply : list.offer block = (.ok (), list.extend [block]) := by simp only [offer, appended]
    rw [reply]
    exact {
      accepts_iff := iff_of_true rfl accepts
      refuses_iff := fun error => iff_of_false nofun fun refuses => by
        rw [refuses.append sound] at appended
        cases appended
      grows := fun _ => rfl
      stays := fun refused => absurd rfl refused }
  · have refused := refuses.append sound
    have reply : list.offer block = (.error error, list) := by simp only [offer, refused]
    rw [reply]
    exact {
      accepts_iff := iff_of_false nofun fun accepts => by
        rw [accepts.append sound] at refused
        cases refused
      refuses_iff := fun other => by
        rw [Except.error.injEq, ← append_eq_error_iff sound, refused, Except.error.injEq]
      grows := nofun
      stays := fun _ => rfl }

theorem Answers.sound {reply : Except Error Unit} {after : BlockList}
    (answers : list.Answers block reply after) (sound : list.Sound) : after.Sound := by
  cases reply with
  | ok =>
    rw [answers.grows rfl]
    exact (answers.accepts_iff.mp rfl).sound sound
  | error error =>
    rw [answers.stays nofun]
    exact sound

structure Fills (list : BlockList) (calls : List Block) (replies : List (Except Error Unit))
    (last : BlockList) : Prop where
  answered : replies.length = calls.length
  capacity : last.capacity = list.capacity
  blocks : last.blocks = list.blocks ++ accepted calls replies
  sound : last.Sound

theorem offerAll_fills (sound : list.Sound) (calls : List Block) :
    list.Fills calls (list.offerAll calls).1 (list.offerAll calls).2 := by
  -- on the calls, for every sound list, since each call goes to the list the last one left
  induction calls generalizing list with
  | nil =>
    exact {
      answered := rfl
      capacity := rfl
      blocks := (List.append_nil _).symm
      sound := sound }
  | cons block rest ih =>
    have answers := offer_answers sound block
    have fills := ih (answers.sound sound)
    simp only [offerAll]
    generalize (list.offer block).2 = after at answers fills
    generalize after.offerAll rest = run at fills
    cases reply : (list.offer block).1 with
    | ok =>
      have grown := answers.grows reply
      exact {
        answered := congrArg Nat.succ fills.answered
        capacity := by rw [fills.capacity, grown]
        blocks := by
          rw [fills.blocks, grown, List.append_assoc]
          rfl
        sound := fills.sound }
    | error error =>
      have same := answers.stays (reply ▸ nofun)
      exact {
        answered := congrArg Nat.succ fills.answered
        capacity := by rw [fills.capacity, same]
        blocks := by
          rw [fills.blocks, same]
          rfl
        sound := fills.sound }

theorem offerAll_answers (capacity : Nat) (calls : List Block) (next : Block) :
    let run := (empty capacity).offerAll calls
    (empty capacity).Fills calls run.1 run.2 ∧
      run.2.Answers next (run.2.offer next).1 (run.2.offer next).2 := by
  intro run
  have fills : (empty capacity).Fills calls run.1 run.2 :=
    offerAll_fills (sound_empty capacity) calls
  exact ⟨fills, offer_answers fills.sound next⟩

end EarlyBoot.HandOff.BlockList
