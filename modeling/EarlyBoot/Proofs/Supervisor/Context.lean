import EarlyBoot.Proofs.Memory.Physical
import EarlyBoot.Supervisor.Context

set_option autoImplicit false

namespace EarlyBoot

@[simp]
theorem ContextRecord.length_encode (record : ContextRecord) :
    record.encode.length = ContextRecord.size := by
  simp [encode, size]

namespace Memory

theorem readContext_congr {first second : Memory} {a b : UInt64}
    (same : first.read a ContextRecord.size = second.read b ContextRecord.size) :
    first.readContext a = second.readContext b := by
  have word (start : Nat) (inside : start + 8 ≤ ContextRecord.size) :
      first.readWord (a + UInt64.ofNat start) = second.readWord (b + UInt64.ofNat start) :=
    readWord_congr (read_part same inside)
  have bootHart : first.readWord (a + 0) = second.readWord (b + 0) := word 0 (by decide)
  rw [add_zero, add_zero] at bootHart
  unfold readContext
  rw [bootHart]
  exact congrArg₂ _ (word 8 (by decide)) (word 16 (by decide))

theorem readContext_of_holds {memory : Memory} {address : UInt64} {record : ContextRecord}
    (holds : memory.Holds address record.encode) : memory.readContext address = record := by
  rw [ContextRecord.encode, holds_append, holds_append, List.length_append,
    Bytes.length_littleEndian, Bytes.length_littleEndian] at holds
  obtain ⟨⟨bootHart, servicesTable⟩, deviceTree⟩ := holds
  unfold readContext
  rw [readWord_of_holds bootHart]
  exact congrArg₂ _ (readWord_of_holds servicesTable) (readWord_of_holds deviceTree)

theorem readContext_writeContext (memory : Memory) (address : UInt64) (record : ContextRecord) :
    (memory.writeContext address record).readContext address = record :=
  readContext_of_holds (holds_write memory address
    (by simp [ContextRecord.size, UInt64.size]))

end Memory

end EarlyBoot
