import EarlyBoot.Platform.Discovery
import EarlyBoot.Proofs.Attempt
import EarlyBoot.Proofs.DeviceTree.Property

set_option autoImplicit false

namespace EarlyBoot.Platform.Discovery

open DeviceTree (First Node)

section Lowest

variable {region other : Region} {regions others : List Region}

def Lowest (regions : List Region) (region : Region) : Prop :=
  ∃ before after, regions = before ++ region :: after ∧
    (∀ earlier ∈ before, region.base < earlier.base) ∧ ∀ later ∈ after, region.base ≤ later.base

theorem Lowest.le (lowest : Lowest regions region) (member : other ∈ regions) :
    region.base ≤ other.base := by
  obtain ⟨before, after, rfl, above, below⟩ := lowest
  rcases List.mem_append.mp member with earlier | later
  · exact UInt64.le_of_lt (above other earlier)
  · rcases List.mem_cons.mp later with rfl | later
    · exact UInt64.le_refl _
    · exact below other later

theorem Lowest.mem (lowest : Lowest regions region) : region ∈ regions := by
  obtain ⟨before, after, rfl, _⟩ := lowest
  simp

theorem lowest?_eq_none_iff : lowest? regions = none ↔ regions = [] := by
  cases regions with
  | nil => simp [lowest?]
  | cons first rest =>
    simp only [lowest?, reduceCtorEq, iff_false]
    split
    · exact Option.some_ne_none _
    · split <;> exact Option.some_ne_none _

theorem mem_of_lowest? (found : lowest? regions = some region) : region ∈ regions := by
  fun_induction lowest? regions with
  | case1 => cases found
  | case2 first rest _ _ =>
    obtain rfl := Option.some.inj found
    exact List.mem_cons_self
  | case3 first rest other among lower ih =>
    obtain rfl := Option.some.inj found
    exact List.mem_cons_of_mem _ (ih among)
  | case4 first rest other _ _ ih =>
    obtain rfl := Option.some.inj found
    exact List.mem_cons_self

theorem lowest?_eq_some_iff : lowest? regions = some region ↔ Lowest regions region := by
  constructor
  · intro found
    induction regions generalizing region with
    | nil => cases found
    | cons first rest ih =>
      rw [lowest?] at found
      cases among : lowest? rest with
      | none =>
        obtain rfl := lowest?_eq_none_iff.mp among
        rw [among] at found
        obtain rfl := Option.some.inj found
        exact ⟨[], [], rfl, by simp, by simp⟩
      | some other =>
        have lowest := ih among
        rw [among] at found
        dsimp only at found
        split_ifs at found with lower
        · obtain rfl := Option.some.inj found
          obtain ⟨before, after, rfl, above, below⟩ := lowest
          exact ⟨first :: before, after, rfl, List.forall_mem_cons.mpr ⟨lower, above⟩, below⟩
        · -- the first region stays, also when another one starts at the same address
          obtain rfl := Option.some.inj found
          have bound : first.base ≤ other.base := UInt64.not_lt.mp lower
          exact ⟨[], rest, rfl, by simp, fun later member =>
            UInt64.le_trans bound (lowest.le member)⟩
  · rintro ⟨before, after, rfl, above, below⟩
    induction before with
    | nil =>
      rw [List.nil_append, lowest?]
      cases among : lowest? after with
      | none => rfl
      | some other =>
        have bound := below other (mem_of_lowest? among)
        exact if_neg (UInt64.not_lt.mpr bound)
    | cons first before ih =>
      obtain ⟨lower, above⟩ := List.forall_mem_cons.mp above
      rw [List.cons_append, lowest?, ih above]
      exact if_pos lower

def Unrivalled (regions : List Region) : Prop :=
  ∃ before region after, regions = before ++ region :: after ∧
    ∀ other ∈ before ++ after, region.base < other.base

theorem Unrivalled.eq_of_perm (unrivalled : Unrivalled regions) (perm : regions.Perm others)
    (first : Lowest regions region) (second : Lowest others other) : region = other := by
  obtain ⟨before, single, after, rfl, alone⟩ := unrivalled
  -- whatever is as low as everything else is the single region
  have only (least : Region) (member : least ∈ before ++ single :: after)
      (bound : least.base ≤ single.base) : least = single := by
    by_contra different
    have among : least ∈ before ++ after := by
      simpa [different] using member
    exact absurd (alone least among) (UInt64.not_lt.mpr bound)
  have present : single ∈ before ++ single :: after := by simp
  rw [only region first.mem (first.le present),
    only other (perm.mem_iff.mpr second.mem) (second.le (perm.mem_iff.mp present))]

end Lowest

def DeclaresMemory (tree : DeviceTree) (node : Node) : Prop :=
  ∃ kind, First (tree.properties node) "device_type" kind ∧
    (kind.value = "memory".toUTF8.data.toList ∨ kind.value = "memory".toUTF8.data.toList ++ [0])

def Occupies (tree : DeviceTree) (node : Node) (region : Region) : Prop :=
  ∃ register, First (tree.properties node) "reg" register ∧
    register.value =
      Bytes.bigEndian 8 region.base.toNat ++ Bytes.bigEndian 8 region.size.toNat

section Nodes

variable {tree : DeviceTree} {node : Node} {region : Region}

theorem isMemory_iff : isMemory tree node = true ↔ DeclaresMemory tree node := by
  have open_ended : "memory".toUTF8.data.toList.getLast? ≠ some 0 := by decide +kernel
  unfold isMemory DeclaresMemory
  rw [decide_eq_true_iff, Option.bind_eq_some_iff]
  refine exists_congr fun kind => ?_
  rw [DeviceTree.property?_eq_some_iff, DeviceTree.Property.text?_eq_some_iff,
    DeviceTree.Writer.terminated]
  refine and_congr_right fun _ => ?_
  constructor
  · rintro (closed | ⟨plain, _⟩)
    · exact .inr closed
    · exact .inl plain
  · rintro (plain | closed)
    · exact .inr ⟨plain, plain ▸ open_ended⟩
    · exact .inl closed

theorem region?_eq_some_iff : region? tree node = some region ↔ Occupies tree node region := by
  unfold region? Occupies
  simp only [Option.bind_eq_bind, Option.bind_eq_some_iff, Option.pure_def, Option.some.injEq,
    DeviceTree.property?_eq_some_iff]
  refine exists_congr fun register => and_congr_right fun _ => ?_
  rw [← DeviceTree.Property.range?_eq_some_iff]
  constructor
  · rintro ⟨⟨base, size⟩, found, rfl⟩
    exact found
  · intro found
    exact ⟨_, found, rfl⟩

end Nodes

def Offers (tree : DeviceTree) (regions : List Region) : Prop :=
  ∃ pick : Node → Option Region, regions = tree.nodes.filterMap pick ∧
    ∀ node region, pick node = some region ↔ DeclaresMemory tree node ∧ Occupies tree node region

theorem offers_memoryRegions (tree : DeviceTree) : Offers tree (memoryRegions tree) := by
  refine ⟨fun node => if isMemory tree node then region? tree node else none, ?_, ?_⟩
  · rw [memoryRegions, memoryNodes, List.filterMap_filter]
  · intro node region
    simp [← isMemory_iff, ← region?_eq_some_iff]

theorem Offers.unique {tree : DeviceTree} {regions others : List Region}
    (offers : Offers tree regions) (again : Offers tree others) : regions = others := by
  obtain ⟨pick, rfl, picked⟩ := offers
  obtain ⟨choose, rfl, chosen⟩ := again
  have same : pick = choose := by
    funext node
    exact Option.ext fun region => (picked node region).trans (chosen node region).symm
  rw [same]

theorem lowest_systemMemory {tree : DeviceTree} (some_memory : memoryRegions tree ≠ []) :
    Lowest (memoryRegions tree) (systemMemory tree) := by
  obtain ⟨region, found⟩ := Option.ne_none_iff_exists'.mp (mt lowest?_eq_none_iff.mp some_memory)
  rw [systemMemory, found, Option.getD_some]
  exact lowest?_eq_some_iff.mp found

theorem systemMemory_eq_absent_iff {tree : DeviceTree} :
    systemMemory tree = .absent ↔
      memoryRegions tree = [] ∨ Lowest (memoryRegions tree) .absent := by
  rw [← lowest?_eq_none_iff, ← lowest?_eq_some_iff, systemMemory]
  cases lowest? (memoryRegions tree) with
  | none => simp
  | some region => simp

theorem reservedMemory_eq {tree : DeviceTree} {path : String} {node : Node} {region : Region}
    (found : tree.findNode? path = some node) (occupies : Occupies tree node region) :
    reservedMemory tree path = region := by
  rw [reservedMemory, found, Option.bind_some, region?_eq_some_iff.mpr occupies, Option.getD_some]

theorem reservedMemory_eq_absent {tree : DeviceTree} {path : String}
    (missing : ∀ node region, tree.findNode? path = some node → ¬Occupies tree node region) :
    reservedMemory tree path = .absent := by
  have none_found : (tree.findNode? path).bind (region? tree) = none := by
    rw [Option.bind_eq_none_iff]
    intro node found
    rw [Option.eq_none_iff_forall_ne_some]
    exact fun region read => missing node region found (region?_eq_some_iff.mp read)
  rw [reservedMemory, none_found, Option.getD_none]

structure Selects (tree : DeviceTree) (path : String) (regions : List Region) (window : Window) :
    Prop where
  offers : Offers tree regions
  lowest : regions ≠ [] → Lowest regions window.system
  absent_iff : window.system = .absent ↔ regions = [] ∨ Lowest regions .absent
  reserved : ∀ node region, tree.findNode? path = some node → Occupies tree node region →
    window.reserved = region
  unreserved : (∀ node region, tree.findNode? path = some node → ¬Occupies tree node region) →
    window.reserved = .absent

theorem selects_window (tree : DeviceTree) (path : String) :
    Selects tree path (memoryRegions tree) (window tree path) where
  offers := offers_memoryRegions tree
  lowest := lowest_systemMemory
  absent_iff := systemMemory_eq_absent_iff
  reserved := fun _ _ => reservedMemory_eq
  unreserved := reservedMemory_eq_absent

theorem scan_selects (tree : DeviceTree) (path : String) :
    ∃ regions window, (scan tree path).result = .ok window ∧ Selects tree path regions window ∧
      ∀ other otherPath otherRegions otherWindow, Offers other otherRegions →
        (scan other otherPath).result = .ok otherWindow → regions.Perm otherRegions →
          Unrivalled regions → otherWindow.system = window.system := by
  refine ⟨_, _, rfl, selects_window tree path, ?_⟩
  intro other otherPath otherRegions otherWindow offers scanned perm unrivalled
  obtain rfl := offers.unique (offers_memoryRegions other)
  obtain rfl := Except.ok.inj scanned
  have present : memoryRegions tree ≠ [] := by
    obtain ⟨before, region, after, split, _⟩ := unrivalled
    simp [split]
  have presentOther : memoryRegions other ≠ [] := fun empty =>
    present (List.perm_nil.mp (empty ▸ perm))
  exact (unrivalled.eq_of_perm perm (lowest_systemMemory present)
    (lowest_systemMemory presentOther)).symm

-- two memory nodes at address zero, the first one without any memory
def blankBlob : List UInt8 :=
  let first := ((DeviceTree.Writer.empty.beginNode "").beginNode "memory@0").textProperty
    "device_type" "memory"
  let second := ((first.regionsProperty [(0, 0)]).endNode.beginNode "memory@1").textProperty
    "device_type" "memory"
  (second.regionsProperty [(0, 0x1000)]).endNode.endNode.finish.1

theorem blankBlob_absent :
    ∃ tree regions window, DeviceTree.ofBytes blankBlob = .ok tree ∧ Offers tree regions ∧
      regions ≠ [] ∧ (scan tree "/reserved-memory/mmode_resv0").result = .ok window ∧
      window.system = .absent := by
  have read : (DeviceTree.ofBytes blankBlob).map (fun tree =>
      decide (memoryRegions tree ≠ [] ∧ systemMemory tree = .absent)) = .ok true := by
    decide +kernel
  cases accepted : DeviceTree.ofBytes blankBlob with
  | error error =>
    rw [accepted] at read
    cases read
  | ok tree =>
    rw [accepted] at read
    obtain ⟨present, absent⟩ := of_decide_eq_true (Except.ok.inj read)
    exact ⟨tree, _, _, rfl, offers_memoryRegions tree, present, rfl, absent⟩

end EarlyBoot.Platform.Discovery
