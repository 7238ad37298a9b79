import EarlyBoot.DeviceTree.Basic
import EarlyBoot.Proofs.DeviceTree.Grammar

set_option autoImplicit false

namespace EarlyBoot.DeviceTree

def field (bytes : List UInt8) (index : Nat) : Nat :=
  Bytes.ofBigEndian ((bytes.drop (4 * index)).take 4)

def frame (bytes : List UInt8) : Header where
  magic := UInt32.ofNat (field bytes 0)
  totalSize := UInt32.ofNat (field bytes 1)
  structureOffset := UInt32.ofNat (field bytes 2)
  stringsOffset := UInt32.ofNat (field bytes 3)
  reservationsOffset := UInt32.ofNat (field bytes 4)
  version := UInt32.ofNat (field bytes 5)
  lastCompatible := UInt32.ofNat (field bytes 6)
  bootProcessor := UInt32.ofNat (field bytes 7)
  stringsSize := UInt32.ofNat (field bytes 8)
  structureSize := UInt32.ofNat (field bytes 9)

def structureStop (bytes : List UInt8) : Nat :=
  if field bytes 5 < 17 then field bytes 1 else field bytes 2 + field bytes 9

def structureBlock (bytes : List UInt8) : List UInt8 :=
  (bytes.drop (field bytes 2)).take (structureStop bytes - field bytes 2)

def stringsBlock (bytes : List UInt8) : List UInt8 :=
  (bytes.drop (field bytes 3)).take (field bytes 8)

structure Framed (bytes : List UInt8) : Prop where
  header : 40 ≤ bytes.length
  magic : field bytes 0 = 0xd00dfeed
  version : 16 ≤ field bytes 5
  lastCompatible : field bytes 6 ≤ 17
  total_header : 40 ≤ field bytes 1
  total : field bytes 1 ≤ bytes.length
  structure_header : 40 ≤ field bytes 2
  structure_start : field bytes 2 ≤ structureStop bytes
  structure_stop : structureStop bytes ≤ field bytes 1
  strings_header : 40 ≤ field bytes 3
  strings_stop : field bytes 3 + field bytes 8 ≤ field bytes 1

inductive Error.AboutBytes : Error → Prop where
  | badMagic (magic : UInt32) : AboutBytes (.badMagic magic)
  | unsupportedVersion (version lastCompatible : UInt32) :
    AboutBytes (.unsupportedVersion version lastCompatible)
  | truncated : AboutBytes .truncated
  | badStructure (offset : Nat) : AboutBytes (.badStructure offset)

variable {bytes : List UInt8}

@[simp]
theorem toNat_field (bytes : List UInt8) (index : Nat) :
    (UInt32.ofNat (field bytes index)).toNat = field bytes index := by
  have bound := Bytes.ofBigEndian_lt ((bytes.drop (4 * index)).take 4)
  have short : ((bytes.drop (4 * index)).take 4).length ≤ 4 := List.length_take_le _ _
  have width : 256 ^ 4 = UInt32.size := by norm_num [UInt32.size]
  exact UInt32.toNat_ofNat_of_lt
    (width ▸ Nat.lt_of_lt_of_le bound (Nat.pow_le_pow_right (by decide) short))

theorem word?_drop {index : Nat} (long : 4 * index + 4 ≤ bytes.length) :
    word? (bytes.drop (4 * index)) = some (UInt32.ofNat (field bytes index)) := by
  rw [word?_eq, if_pos (by rw [List.length_drop]; omega), field]

theorem decode?_eq (bytes : List UInt8) :
    Header.decode? bytes = if 40 ≤ bytes.length then some (frame bytes) else none := by
  unfold Header.decode?
  split_ifs with long
  · have word (index : Nat) (known : index < 10) :
        word? (bytes.drop (4 * index)) = some (UInt32.ofNat (field bytes index)) :=
      word?_drop (by omega)
    simp only [word 0 (by decide), word 1 (by decide), word 2 (by decide), word 3 (by decide),
      word 4 (by decide), word 5 (by decide), word 6 (by decide), word 7 (by decide),
      word 8 (by decide), word 9 (by decide)]
    rfl
  · have last : word? (bytes.drop (4 * 9)) = none := by
      rw [word?_eq, if_neg (by rw [List.length_drop]; omega)]
    simp [last]

theorem structureStop_frame (bytes : List UInt8) :
    (frame bytes).structureStop = structureStop bytes := by
  have version : (frame bytes).version ≥ 17 ↔ ¬field bytes 5 < 17 := by
    rw [ge_iff_le, UInt32.le_iff_toNat_le, frame, toNat_field, Nat.not_lt]
    rfl
  unfold Header.structureStop structureStop
  by_cases early : field bytes 5 < 17
  · rw [if_pos early, if_neg (fun late => version.mp late early), frame, toNat_field]
  · rw [if_neg early, if_pos (version.mpr early), Header.structureStart, frame, toNat_field,
      toNat_field]

theorem inBounds_frame (bytes : List UInt8) :
    (frame bytes).InBounds ↔
      40 ≤ field bytes 1 ∧ 40 ≤ field bytes 2 ∧ 40 ≤ field bytes 3 ∧
        structureStop bytes ≤ field bytes 1 ∧ field bytes 3 + field bytes 8 ≤ field bytes 1 := by
  rw [Header.InBounds, structureStop_frame]
  simp only [Header.size, Header.structureStart, Header.stringsStart, Header.stringsStop, frame,
    toNat_field]

theorem check_frame (bytes : List UInt8) :
    (frame bytes).check =
      if field bytes 0 ≠ 0xd00dfeed then .error (.badMagic (frame bytes).magic)
      else if field bytes 5 < 16 ∨ 17 < field bytes 6 then
        .error (.unsupportedVersion (frame bytes).version (frame bytes).lastCompatible)
      else if 40 ≤ field bytes 1 ∧ 40 ≤ field bytes 2 ∧ 40 ≤ field bytes 3 ∧
          structureStop bytes ≤ field bytes 1 ∧ field bytes 3 + field bytes 8 ≤ field bytes 1 then
        .ok ()
      else .error .truncated := by
  have magic : (frame bytes).magic ≠ Header.knownMagic ↔ field bytes 0 ≠ 0xd00dfeed := by
    rw [ne_eq, ← UInt32.toNat_inj, frame, toNat_field]
    rfl
  have versions : (frame bytes).version < Header.firstVersion ∨
      Header.lastVersion < (frame bytes).lastCompatible ↔
        field bytes 5 < 16 ∨ 17 < field bytes 6 := by
    rw [UInt32.lt_iff_toNat_lt, UInt32.lt_iff_toNat_lt, frame, toNat_field, toNat_field]
    rfl
  exact if_congr magic rfl (if_congr versions rfl (if_congr (inBounds_frame bytes) rfl rfl))

theorem slice?_take {total start stop : Nat} (inside : total ≤ bytes.length) :
    slice? (bytes.take total) start stop =
      if start ≤ stop ∧ stop ≤ total then some ((bytes.drop start).take (stop - start))
      else none := by
  unfold slice?
  rw [List.length_take_of_le inside]
  split_ifs with range
  · rw [List.drop_take, List.take_take, min_eq_left (by omega)]
  · rfl

theorem ofBytes_header (bytes : List UInt8) :
    Header.ofBytes bytes =
      if bytes.length < 40 then .error .truncated
      else (frame bytes).check.map fun _ => frame bytes := by
  unfold Header.ofBytes
  rw [decode?_eq]
  by_cases short : bytes.length < 40
  · rw [if_neg (Nat.not_le.mpr short), if_pos short]
    rfl
  · rw [if_pos (Nat.not_lt.mp short), if_neg short]
    dsimp only
    cases (frame bytes).check <;> rfl

theorem ofBytes_of_framed (framed : Framed bytes) :
    ofBytes bytes =
      match valid : checkStructure (stringsBlock bytes) (structureBlock bytes) with
      | .error error => .error error
      | .ok () => .ok ⟨frame bytes, structureBlock bytes, stringsBlock bytes, valid⟩ := by
  have header : Header.ofBytes bytes = .ok (frame bytes) := by
    rw [ofBytes_header, if_neg (Nat.not_lt.mpr framed.header), check_frame,
      if_neg (not_not.mpr framed.magic), if_neg, if_pos]
    · rfl
    · exact ⟨framed.total_header, framed.structure_header, framed.strings_header,
        framed.structure_stop, framed.strings_stop⟩
    · have version := framed.version
      have lastCompatible := framed.lastCompatible
      omega
  have total : (frame bytes).totalSize.toNat = field bytes 1 := toNat_field bytes 1
  have structureSlice : slice? (bytes.take (field bytes 1)) (frame bytes).structureStart
      (frame bytes).structureStop = some (structureBlock bytes) := by
    rw [slice?_take framed.total, structureStop_frame, Header.structureStart, frame, toNat_field,
      if_pos ⟨framed.structure_start, framed.structure_stop⟩, structureBlock]
  have stringsSlice : slice? (bytes.take (field bytes 1)) (frame bytes).stringsStart
      (frame bytes).stringsStop = some (stringsBlock bytes) := by
    rw [slice?_take framed.total, Header.stringsStop, Header.stringsStart, frame, toNat_field,
      toNat_field, if_pos ⟨Nat.le_add_right _ _, framed.strings_stop⟩, stringsBlock,
      Nat.add_sub_cancel_left]
  unfold ofBytes
  rw [header]
  simp only [bind, Except.bind]
  rw [total, if_neg (Nat.not_lt.mpr framed.total), structureSlice, stringsSlice]
  rfl

theorem ofBytes_of_not_framed (unframed : ¬Framed bytes) :
    ∃ error, ofBytes bytes = .error error ∧ error.AboutBytes := by
  unfold ofBytes
  rw [ofBytes_header, check_frame]
  by_cases short : bytes.length < 40
  · rw [if_pos short]
    exact ⟨_, rfl, .truncated⟩
  rw [if_neg short]
  by_cases magic : field bytes 0 ≠ 0xd00dfeed
  · rw [if_pos magic]
    exact ⟨_, rfl, .badMagic _⟩
  rw [if_neg magic]
  by_cases versions : field bytes 5 < 16 ∨ 17 < field bytes 6
  · rw [if_pos versions]
    exact ⟨_, rfl, .unsupportedVersion _ _⟩
  rw [if_neg versions]
  refine ⟨.truncated, ?_, .truncated⟩
  split_ifs with inside
  · have total : (frame bytes).totalSize.toNat = field bytes 1 := toNat_field bytes 1
    simp only [Except.map, bind, Except.bind]
    rw [total]
    by_cases cut : bytes.length < field bytes 1
    · rw [if_pos cut]
      rfl
    rw [if_neg cut]
    -- the header does not say on which side of its start the structure block stops
    have backwards : ¬field bytes 2 ≤ structureStop bytes := fun forwards => unframed {
      header := Nat.not_lt.mp short
      magic := not_not.mp magic
      version := by omega
      lastCompatible := by omega
      total_header := inside.1
      total := Nat.not_lt.mp cut
      structure_header := inside.2.1
      structure_start := forwards
      structure_stop := inside.2.2.2.1
      strings_header := inside.2.2.1
      strings_stop := inside.2.2.2.2 }
    have missing : slice? (bytes.take (field bytes 1)) (frame bytes).structureStart
        (frame bytes).structureStop = none := by
      rw [slice?_take (Nat.not_lt.mp cut), structureStop_frame, Header.structureStart, frame,
        toNat_field, if_neg (fun range => backwards range.1)]
    rw [missing]
    rfl
  · rfl

theorem field_take {index total : Nat} (inside : 4 * index + 4 ≤ total) :
    field (bytes.take total) index = field bytes index := by
  rw [field, field, List.drop_take, List.take_take, min_eq_left (by omega)]

theorem frame_take {total : Nat} (inside : Header.size ≤ total) :
    frame (bytes.take total) = frame bytes := by
  rw [Header.size] at inside
  unfold frame
  congr 2 <;> exact field_take (by omega)

theorem parts_of_ofBytes {tree : DeviceTree} (accepted : ofBytes bytes = .ok tree) :
    Framed bytes ∧ tree.header = frame bytes ∧ tree.block = structureBlock bytes ∧
      tree.strings = stringsBlock bytes := by
  by_cases framed : Framed bytes
  · refine ⟨framed, ?_⟩
    rw [ofBytes_of_framed framed] at accepted
    split at accepted
    · contradiction
    · rw [← Except.ok.inj accepted]
      exact ⟨rfl, rfl, rfl⟩
  · obtain ⟨error, refused, _⟩ := ofBytes_of_not_framed framed
    rw [refused] at accepted
    contradiction

theorem ofBytes_accepts_iff (bytes : List UInt8) :
    ((∃ tree, ofBytes bytes = .ok tree) ↔
      Framed bytes ∧ ∃ tokens, Spells (structureBlock bytes) 0 tokens ∧
        Derives (stringsBlock bytes) .block tokens) ∧
    ∀ error, ofBytes bytes = .error error → error.AboutBytes := by
  rw [← checkStructure_eq_ok_iff]
  by_cases framed : Framed bytes
  · rw [ofBytes_of_framed framed]
    split
    next error malformed =>
      refine ⟨⟨nofun, fun accepted => ?_⟩, fun other same => ?_⟩
      · rw [malformed] at accepted
        cases accepted.2
      · obtain rfl := Except.error.inj same
        obtain ⟨offset, rfl⟩ := checkFrom_eq_error malformed
        exact .badStructure offset
    next valid => exact ⟨⟨fun _ => ⟨framed, valid⟩, fun _ => ⟨_, rfl⟩⟩, nofun⟩
  · obtain ⟨error, refused, about⟩ := ofBytes_of_not_framed framed
    rw [refused]
    exact ⟨⟨nofun, fun accepted => absurd accepted.1 framed⟩,
      fun _ same => Except.error.inj same ▸ about⟩

end EarlyBoot.DeviceTree
