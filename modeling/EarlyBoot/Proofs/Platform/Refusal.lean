import EarlyBoot.Proofs.Platform.MemoryPlan

set_option autoImplicit false

namespace EarlyBoot.Platform.MemoryPlan

def prefixStop (window : Window) (reservedPrefix : UInt64) : Nat :=
  window.system.base.toNat + reservedPrefix.toNat

structure Roomy (window : Window) (reservedPrefix : UInt64) : Prop where
  present : window.system.isEmpty = false
  system_fits : window.system.bound < UInt64.size
  start_fits : prefixStop window reservedPrefix < UInt64.size
  room : prefixStop window reservedPrefix < window.system.bound

def Fills (window : Window) (start : Nat) : Prop :=
  window.reserved.base.toNat = start ∧ window.reserved.bound = window.system.bound

structure Spared (window : Window) (start : Nat) : Prop where
  nested : window.reserved.Within window.system
  aside : window.reserved.bound ≤ start ∨
    start ≤ window.reserved.base.toNat ∧ ¬Fills window start

structure Plannable (window : Window) (reservedPrefix : UInt64) : Prop where
  roomy : Roomy window reservedPrefix
  reserved : window.reserved.isEmpty = true ∨ Spared window (prefixStop window reservedPrefix)

-- an end is only looked for once the earlier checks have passed
inductive Overflows (window : Window) (reservedPrefix : UInt64) : Prop where
  | system (exceeds : UInt64.size ≤ window.system.bound)
  | start (systemFits : window.system.bound < UInt64.size)
    (exceeds : UInt64.size ≤ prefixStop window reservedPrefix)
  | reserved (roomy : Roomy window reservedPrefix)
    (exceeds : UInt64.size ≤ window.reserved.bound)

inductive Refuses (window : Window) (reservedPrefix : UInt64) : Failure → Prop where
  | absent (absent : window.system.isEmpty = true) : Refuses window reservedPrefix .noSystemMemory
  | overflow (present : window.system.isEmpty = false)
    (overflows : Overflows window reservedPrefix) :
    Refuses window reservedPrefix .addressOverflow
  | outside (roomy : Roomy window reservedPrefix)
    (reservedFits : window.reserved.bound < UInt64.size)
    (occupied : window.reserved.isEmpty = false)
    (outside : ¬window.reserved.Within window.system) :
    Refuses window reservedPrefix (.reservedOutsideSystemMemory window.reserved)
  | crowded (present : window.system.isEmpty = false)
    (systemFits : window.system.bound < UInt64.size)
    (startFits : prefixStop window reservedPrefix < UInt64.size)
    (crowded : window.system.bound ≤ prefixStop window reservedPrefix) :
    Refuses window reservedPrefix .usableWindowUnderflow
  | straddled (roomy : Roomy window reservedPrefix) (occupied : window.reserved.isEmpty = false)
    (nested : window.reserved.Within window.system)
    (lower : window.reserved.base.toNat < prefixStop window reservedPrefix)
    (upper : prefixStop window reservedPrefix < window.reserved.bound) :
    Refuses window reservedPrefix .usableWindowUnderflow
  | filled (roomy : Roomy window reservedPrefix) (occupied : window.reserved.isEmpty = false)
    (nested : window.reserved.Within window.system)
    (filled : Fills window (prefixStop window reservedPrefix)) :
    Refuses window reservedPrefix .usableWindowUnderflow

theorem isEmpty_permanentMemory_divided (window : Window) (start stop reservedStop : UInt64) :
    (divided window (.between start window.reserved.base)
        (.between reservedStop stop)).permanentMemory.isEmpty = true ↔
      window.reserved.base.toNat ≤ start.toNat ∧ stop.toNat ≤ reservedStop.toNat := by
  have below : (Region.between start window.reserved.base).isEmpty = true ↔
      window.reserved.base.toNat ≤ start.toNat := by
    rw [Region.isEmpty_iff, Region.size_between, Nat.sub_eq_zero_iff_le]
  have above : (Region.between reservedStop stop).isEmpty = true ↔
      stop.toNat ≤ reservedStop.toNat := by
    rw [Region.isEmpty_iff, Region.size_between, Nat.sub_eq_zero_iff_le]
  rw [← below, ← above, divided]
  dsimp only
  split_ifs with empty
  · simp [empty]
  · simp [empty]

section Decisions

variable {window : Window} {reservedPrefix : UInt64}

theorem Roomy.toNat_start (roomy : Roomy window reservedPrefix) :
    (window.system.base + reservedPrefix).toNat = prefixStop window reservedPrefix :=
  Word.toNat_add_of_lt roomy.start_fits

theorem overflow_of_roomy (roomy : Roomy window reservedPrefix)
    (exceeds : UInt64.size ≤ window.reserved.bound) :
    (ofWindow window reservedPrefix).result = .error .addressOverflow := by
  obtain ⟨present, systemFits, startFits, room⟩ := roomy
  rw [prefixStop] at startFits room
  rw [result_ofWindow, if_neg (by simp [present]), if_neg (Nat.not_le.mpr systemFits),
    if_neg (Nat.not_le.mpr startFits), if_neg (Nat.not_le.mpr room), if_pos exceeds]

theorem result_of_roomy (roomy : Roomy window reservedPrefix)
    (reservedFits : window.reserved.bound < UInt64.size) :
    (window.reserved.isEmpty = false → ¬window.reserved.Within window.system →
      (ofWindow window reservedPrefix).result =
        .error (.reservedOutsideSystemMemory window.reserved)) ∧
    (window.reserved.isEmpty = true ∨ window.reserved.Within window.system →
      (ofWindow window reservedPrefix).result =
        (carve window (window.system.base + reservedPrefix)
          (window.system.base + window.system.size)
          (window.reserved.base + window.reserved.size)).result) := by
  obtain ⟨present, systemFits, startFits, room⟩ := roomy
  rw [prefixStop] at startFits room
  have outside : window.reserved.base < window.system.base ∨
      window.system.bound < window.reserved.bound ↔ ¬window.reserved.Within window.system := by
    rw [UInt64.lt_iff_toNat_lt, Region.Within]
    omega
  rw [result_ofWindow, if_neg (by simp [present]), if_neg (Nat.not_le.mpr systemFits),
    if_neg (Nat.not_le.mpr startFits), if_neg (Nat.not_le.mpr room),
    if_neg (Nat.not_le.mpr reservedFits)]
  constructor
  · intro occupied apart
    rw [if_pos ⟨occupied, outside.mpr apart⟩]
  · intro harmless
    rw [if_neg]
    rintro ⟨occupied, apart⟩
    rcases harmless with empty | nested
    · simp [occupied] at empty
    · exact outside.mp apart nested

theorem exists_plan_of_ignored (roomy : Roomy window reservedPrefix)
    (reservedFits : window.reserved.bound < UInt64.size)
    (nested : window.reserved.isEmpty = true ∨ window.reserved.Within window.system)
    (ignored : window.reserved.isEmpty = true ∨
      window.reserved.bound ≤ prefixStop window reservedPrefix) :
    ∃ plan, (ofWindow window reservedPrefix).result = .ok plan := by
  rw [(result_of_roomy roomy reservedFits).2 nested, result_carve, if_pos]
  · exact ⟨_, rfl⟩
  · rwa [UInt64.le_iff_toNat_le, roomy.toNat_start, Region.toNat_base_add_size reservedFits]

theorem result_of_reaching (roomy : Roomy window reservedPrefix)
    (nested : window.reserved.Within window.system)
    (occupied : window.reserved.isEmpty = false)
    (reaches : prefixStop window reservedPrefix < window.reserved.bound) :
    (window.reserved.base.toNat < prefixStop window reservedPrefix ∨
        Fills window (prefixStop window reservedPrefix) →
      (ofWindow window reservedPrefix).result = .error .usableWindowUnderflow) ∧
    (prefixStop window reservedPrefix ≤ window.reserved.base.toNat →
        ¬Fills window (prefixStop window reservedPrefix) →
      ∃ plan, (ofWindow window reservedPrefix).result = .ok plan) := by
  have reservedFits := nested.2.trans_lt roomy.system_fits
  have start := roomy.toNat_start
  have stop := Region.toNat_base_add_size roomy.system_fits
  have reservedStop := Region.toNat_base_add_size reservedFits
  have active : ¬(window.reserved.isEmpty = true ∨
      window.reserved.base + window.reserved.size ≤ window.system.base + reservedPrefix) := by
    rw [UInt64.le_iff_toNat_le, start, reservedStop]
    simp [occupied, reaches]
  have straddles : window.reserved.base < window.system.base + reservedPrefix ↔
      window.reserved.base.toNat < prefixStop window reservedPrefix := by
    rw [UInt64.lt_iff_toNat_lt, start]
  have depleted := isEmpty_permanentMemory_divided window (window.system.base + reservedPrefix)
    (window.system.base + window.system.size) (window.reserved.base + window.reserved.size)
  rw [start, stop, reservedStop] at depleted
  rw [(result_of_roomy roomy reservedFits).2 (.inr nested), result_carve, if_neg active]
  simp only [straddles, depleted]
  have above := nested.2
  unfold Fills
  constructor
  · intro blocked
    split_ifs
    · rfl
    · rfl
    · omega
  · intro order leaves
    rw [if_neg (by omega), if_neg (by omega)]
    exact ⟨_, rfl⟩

theorem exists_plan_of_plannable (plannable : Plannable window reservedPrefix) :
    ∃ plan, (ofWindow window reservedPrefix).result = .ok plan := by
  obtain ⟨roomy, empty | ⟨nested, aside⟩⟩ := plannable
  · have size := Region.isEmpty_iff.mp empty
    have reservedFits : window.reserved.bound < UInt64.size := by
      rw [Region.bound, size]
      exact window.reserved.base.toNat_lt
    exact exists_plan_of_ignored roomy reservedFits (.inl empty) (.inl empty)
  · have reservedFits := nested.2.trans_lt roomy.system_fits
    by_cases ignored : window.reserved.isEmpty = true ∨
        window.reserved.bound ≤ prefixStop window reservedPrefix
    · exact exists_plan_of_ignored roomy reservedFits (.inr nested) ignored
    · rw [not_or, Bool.not_eq_true, Nat.not_le] at ignored
      obtain ⟨order, leaves⟩ := aside.resolve_left (Nat.not_le.mpr ignored.2)
      exact (result_of_reaching roomy nested ignored.1 ignored.2).2 order leaves

theorem result_of_refuses {failure : Failure} (refuses : Refuses window reservedPrefix failure) :
    (ofWindow window reservedPrefix).result = .error failure := by
  cases refuses with
  | absent absent => rw [result_ofWindow, if_pos absent]
  | overflow present overflows =>
    cases overflows with
    | system exceeds => rw [result_ofWindow, if_neg (by simp [present]), if_pos exceeds]
    | start systemFits exceeds =>
      rw [prefixStop] at exceeds
      rw [result_ofWindow, if_neg (by simp [present]), if_neg (Nat.not_le.mpr systemFits),
        if_pos exceeds]
    | reserved roomy exceeds => exact overflow_of_roomy roomy exceeds
  | outside roomy reservedFits occupied outside =>
    exact (result_of_roomy roomy reservedFits).1 occupied outside
  | crowded present systemFits startFits crowded =>
    rw [prefixStop] at startFits crowded
    rw [result_ofWindow, if_neg (by simp [present]), if_neg (Nat.not_le.mpr systemFits),
      if_neg (Nat.not_le.mpr startFits), if_pos crowded]
  | straddled roomy occupied nested lower upper =>
    exact (result_of_reaching roomy nested occupied upper).1 (.inl lower)
  | filled roomy occupied nested filled =>
    have reaches : prefixStop window reservedPrefix < window.reserved.bound :=
      filled.2 ▸ roomy.room
    exact (result_of_reaching roomy nested occupied reaches).1 (.inr filled)

theorem plannable_or_refuses (window : Window) (reservedPrefix : UInt64) :
    Plannable window reservedPrefix ∨ ∃ failure, Refuses window reservedPrefix failure := by
  by_cases absent : window.system.isEmpty = true
  · exact .inr ⟨_, .absent absent⟩
  rw [Bool.not_eq_true] at absent
  by_cases systemFits : window.system.bound < UInt64.size
  case neg => exact .inr ⟨_, .overflow absent (.system (Nat.not_lt.mp systemFits))⟩
  by_cases startFits : prefixStop window reservedPrefix < UInt64.size
  case neg => exact .inr ⟨_, .overflow absent (.start systemFits (Nat.not_lt.mp startFits))⟩
  by_cases room : prefixStop window reservedPrefix < window.system.bound
  case neg => exact .inr ⟨_, .crowded absent systemFits startFits (Nat.not_lt.mp room)⟩
  have roomy : Roomy window reservedPrefix := ⟨absent, systemFits, startFits, room⟩
  by_cases reservedFits : window.reserved.bound < UInt64.size
  case neg => exact .inr ⟨_, .overflow absent (.reserved roomy (Nat.not_lt.mp reservedFits))⟩
  by_cases empty : window.reserved.isEmpty = true
  · exact .inl ⟨roomy, .inl empty⟩
  rw [Bool.not_eq_true] at empty
  by_cases nested : window.reserved.Within window.system
  case neg => exact .inr ⟨_, .outside roomy reservedFits empty nested⟩
  by_cases reaches : prefixStop window reservedPrefix < window.reserved.bound
  case neg => exact .inl ⟨roomy, .inr ⟨nested, .inl (Nat.not_lt.mp reaches)⟩⟩
  by_cases lower : window.reserved.base.toNat < prefixStop window reservedPrefix
  · exact .inr ⟨_, .straddled roomy empty nested lower reaches⟩
  by_cases filled : Fills window (prefixStop window reservedPrefix)
  · exact .inr ⟨_, .filled roomy empty nested filled⟩
  · exact .inl ⟨roomy, .inr ⟨nested, .inr ⟨Nat.not_lt.mp lower, filled⟩⟩⟩

end Decisions

theorem ofWindow_decides (window : Window) (reservedPrefix : UInt64) :
    ((∃ plan, (ofWindow window reservedPrefix).result = .ok plan) ↔
        Plannable window reservedPrefix) ∧
      ∀ failure, (ofWindow window reservedPrefix).result = .error failure ↔
        Refuses window reservedPrefix failure := by
  refine ⟨⟨?_, exists_plan_of_plannable⟩, fun failure => ⟨?_, result_of_refuses⟩⟩
  · rintro ⟨plan, planned⟩
    refine (plannable_or_refuses window reservedPrefix).resolve_right ?_
    rintro ⟨cause, refuses⟩
    cases planned.symm.trans (result_of_refuses refuses)
  · intro refused
    rcases plannable_or_refuses window reservedPrefix with plannable | ⟨cause, refuses⟩
    · obtain ⟨plan, planned⟩ := exists_plan_of_plannable plannable
      cases planned.symm.trans refused
    · obtain rfl := Except.error.inj ((result_of_refuses refuses).symm.trans refused)
      exact refuses

-- a reservation that would be ignored must still lie in system memory
example : (ofWindow ⟨⟨0x1000, 0x1000⟩, ⟨0x800, 0x1000⟩⟩ 0x800).result =
    .error (.reservedOutsideSystemMemory ⟨0x800, 0x1000⟩) := rfl

end EarlyBoot.Platform.MemoryPlan
