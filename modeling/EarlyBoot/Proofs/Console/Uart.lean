import EarlyBoot.Console.Uart
import Mathlib.Data.List.Range

set_option autoImplicit false

namespace EarlyBoot.Console.Uart

-- between two numbers of readings made
inductive Sends (line : LineStatus) : Nat → List UInt8 → List Access → Nat → Prop where
  | nothing (polled : Nat) : Sends line polled [] [] polled
  | busy {polled after : Nat} {byte : UInt8} {rest : List UInt8} {accesses : List Access}
      (busy : isIdle (line.value polled) = false)
      (sends : Sends line (polled + 1) (byte :: rest) accesses after) :
      Sends line polled (byte :: rest)
        (.read lineStatusRegister (line.value polled) :: accesses) after
  | byte {polled after : Nat} (byte : UInt8) {rest : List UInt8} {accesses : List Access}
      (idle : isIdle (line.value polled) = true)
      (sends : Sends line (polled + 1) rest accesses after) :
      Sends line polled (byte :: rest)
        (.read lineStatusRegister (line.value polled) :: .write transmitRegister byte :: accesses)
        after

variable {line : LineStatus} {polled middle after : Nat} {bytes others : List UInt8}
  {accesses later : List Access}

theorem Sends.append (first : Sends line polled bytes accesses middle)
    (second : Sends line middle others later after) :
    Sends line polled (bytes ++ others) (accesses ++ later) after := by
  induction first with
  | nothing => exact second
  | busy busy _ ih => exact .busy busy (ih second)
  | byte byte idle _ ih => exact .byte byte idle (ih second)

theorem sends_awaitIdle (line : LineStatus) (polled : Nat) (byte : UInt8)
    (sends : Sends line (awaitIdle line polled).2 bytes accesses after) :
    Sends line polled (byte :: bytes)
      ((awaitIdle line polled).1 ++ .write transmitRegister byte :: accesses) after := by
  -- the recursion ends because the line does not stay busy
  fun_induction awaitIdle line polled with
  | case1 polled _ idle => exact .byte byte idle sends
  | case2 polled _ busy reads ready waited ih =>
    rw [waited] at ih
    exact .busy (by simpa using busy) (ih sends)

theorem sends_send (line : LineStatus) (polled : Nat) (bytes : List UInt8) :
    Sends line polled bytes (send line polled bytes).1 (send line polled bytes).2 := by
  induction bytes generalizing polled with
  | nil => exact .nothing polled
  | cons byte rest ih => exact sends_awaitIdle line polled byte (ih _)

theorem Sends.sent (sends : Sends line polled bytes accesses after) :
    Uart.sent false accesses = bytes := by
  induction sends with
  | nothing => rfl
  | busy _ _ ih => exact ih
  | byte byte _ _ ih => exact congrArg (byte :: ·) ih

def readings (accesses : List Access) : List UInt8 :=
  accesses.filterMap fun
    | .read register value => if register = lineStatusRegister then some value else none
    | .write _ _ => none

theorem Sends.le (sends : Sends line polled bytes accesses after) : polled ≤ after := by
  induction sends with
  | nothing => exact Nat.le_refl _
  | busy _ _ ih => exact Nat.le_of_succ_le ih
  | byte _ _ _ ih => exact Nat.le_of_succ_le ih

theorem Sends.readings (sends : Sends line polled bytes accesses after) :
    readings accesses = (List.range' polled (after - polled)).map line.value := by
  have step {polled after : Nat} (below : polled + 1 ≤ after) :
      (List.range' polled (after - polled)).map line.value =
        line.value polled :: (List.range' (polled + 1) (after - (polled + 1))).map line.value := by
    rw [show after - polled = after - (polled + 1) + 1 by omega]
    rfl
  induction sends with
  | nothing => simp [Uart.readings]
  | busy _ sends ih => rw [step sends.le, ← ih]; rfl
  | byte _ _ sends ih => rw [step sends.le, ← ih]; rfl

def Paced (accesses : List Access) : Prop :=
  ∀ before register value after, accesses = before ++ .write register value :: after →
    register = transmitRegister ∧ ∃ earlier status,
      before = earlier ++ [.read lineStatusRegister status] ∧ isIdle status = true

theorem paced_nil : Paced [] := by
  intro before register value after split
  exact absurd split.symm (by simp)

theorem Paced.cons_read (paced : Paced accesses) (register : Nat) (status : UInt8) :
    Paced (.read register status :: accesses) := by
  intro before written value after split
  obtain ⟨_, first⟩ | ⟨before, rfl, rest⟩ := List.cons_eq_append_iff.mp split
  · cases first
  · obtain ⟨same, earlier, status, rfl, idle⟩ := paced before written value after rest
    exact ⟨same, _ :: earlier, status, rfl, idle⟩

theorem Paced.cons_byte {status : UInt8} (idle : isIdle status = true) (byte : UInt8)
    (paced : Paced accesses) :
    Paced (.read lineStatusRegister status :: .write transmitRegister byte :: accesses) := by
  intro before register value after split
  obtain ⟨_, first⟩ | ⟨before, rfl, behind⟩ := List.cons_eq_append_iff.mp split
  · cases first
  obtain ⟨rfl, first⟩ | ⟨before, rfl, rest⟩ := List.cons_eq_append_iff.mp behind
  · cases first
    exact ⟨rfl, [], status, rfl, idle⟩
  · obtain ⟨same, earlier, status, rfl, idle⟩ := paced before register value after rest
    exact ⟨same, _ :: _ :: earlier, status, rfl, idle⟩

theorem Sends.paced (sends : Sends line polled bytes accesses after) : Paced accesses := by
  induction sends with
  | nothing => exact paced_nil
  | busy _ _ ih => exact ih.cons_read _ _
  | byte byte idle _ ih => exact ih.cons_byte idle byte

end EarlyBoot.Console.Uart
