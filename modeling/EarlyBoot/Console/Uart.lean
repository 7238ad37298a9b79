set_option autoImplicit false

namespace EarlyBoot.Console

inductive Access where
  | read (register : Nat) (value : UInt8)
  | write (register : Nat) (value : UInt8)
  deriving DecidableEq, Repr

namespace Uart

-- the low half of the divisor while the divisor is open
def transmitRegister : Nat := 0

def interruptRegister : Nat := 1
def queueRegister : Nat := 2
def lineControlRegister : Nat := 3
def lineStatusRegister : Nat := 5

def divisorBit : UInt8 := 0x80

def idleBit : UInt8 := 0x20

def isIdle (status : UInt8) : Bool :=
  status &&& idleBit ≠ 0

def setup : List Access :=
  [.write interruptRegister 0, .write lineControlRegister divisorBit, .write transmitRegister 3,
    .write interruptRegister 0, .write lineControlRegister 3, .write queueRegister 7]

end Uart

structure LineStatus where
  value : Nat → UInt8
  recurs : ∀ start, ∃ steps, Uart.isIdle (value (start + steps))

namespace LineStatus

def busyFor (count : Nat) : LineStatus where
  value index := if index % (count + 1) = count then Uart.idleBit else 0
  recurs start := by
    refine ⟨count - start % (count + 1), ?_⟩
    have bound : start % (count + 1) < count + 1 := Nat.mod_lt _ (Nat.succ_pos count)
    have split := Nat.div_add_mod start (count + 1)
    have last : (start + (count - start % (count + 1))) % (count + 1) = count := by
      have shifted : start + (count - start % (count + 1)) =
          count + (count + 1) * (start / (count + 1)) := by omega
      rw [shifted, Nat.add_mul_mod_self_left]
      exact Nat.mod_eq_of_lt (Nat.lt_succ_self count)
    rw [if_pos last]
    decide

theorem exists_first (line : LineStatus) (start : Nat) :
    ∃ steps, Uart.isIdle (line.value (start + steps)) ∧
      ∀ earlier < steps, ¬Uart.isIdle (line.value (start + earlier)) := by
  obtain ⟨bound, idle⟩ := line.recurs start
  induction bound generalizing start with
  | zero => exact ⟨0, idle, fun _ below => absurd below (Nat.not_lt_zero _)⟩
  | succ bound ih =>
    by_cases now : Uart.isIdle (line.value start)
    · exact ⟨0, now, fun _ below => absurd below (Nat.not_lt_zero _)⟩
    · obtain ⟨steps, found, first⟩ := ih (start + 1) (by rwa [Nat.succ_add_eq_add_succ])
      refine ⟨steps + 1, by rwa [Nat.succ_add_eq_add_succ] at found, ?_⟩
      intro earlier below
      cases earlier with
      | zero => exact now
      | succ earlier =>
        have busy := first earlier (Nat.lt_of_succ_lt_succ below)
        rwa [Nat.succ_add_eq_add_succ] at busy

noncomputable def wait (line : LineStatus) (start : Nat) : Nat :=
  Classical.choose (line.exists_first start)

theorem wait_succ_lt {line : LineStatus} {start : Nat}
    (busy : ¬Uart.isIdle (line.value start)) : line.wait (start + 1) < line.wait start := by
  obtain ⟨idle, _⟩ := Classical.choose_spec (line.exists_first start)
  obtain ⟨_, first⟩ := Classical.choose_spec (line.exists_first (start + 1))
  change Uart.isIdle (line.value (start + line.wait start)) at idle
  change ∀ earlier < line.wait (start + 1), _ at first
  cases steps : line.wait start with
  | zero =>
    rw [steps] at idle
    exact absurd idle busy
  | succ steps' =>
    rw [steps] at idle
    apply Nat.lt_succ_of_le
    apply Nat.le_of_not_lt
    intro beyond
    have unexpected := first steps' beyond
    rw [Nat.succ_add_eq_add_succ] at unexpected
    exact unexpected idle

end LineStatus

namespace Uart

def awaitIdle (line : LineStatus) (polled : Nat) : List Access × Nat :=
  let status := Access.read lineStatusRegister (line.value polled)
  if isIdle (line.value polled) then ([status], polled + 1)
  else
    let (later, after) := awaitIdle line (polled + 1)
    (status :: later, after)
termination_by line.wait polled
decreasing_by exact LineStatus.wait_succ_lt ‹_›

def send (line : LineStatus) (polled : Nat) : List UInt8 → List Access × Nat
  | [] => ([], polled)
  | byte :: rest =>
    let (reads, ready) := awaitIdle line polled
    let (later, after) := send line ready rest
    (reads ++ .write transmitRegister byte :: later, after)

def opensDivisor (divisorOpen : Bool) (register : Nat) (value : UInt8) : Bool :=
  if register = lineControlRegister then value &&& divisorBit ≠ 0 else divisorOpen

def sent (divisorOpen : Bool) : List Access → List UInt8
  | [] => []
  | .read _ _ :: rest => sent divisorOpen rest
  | .write register value :: rest =>
    let later := sent (opensDivisor divisorOpen register value) rest
    if register = transmitRegister ∧ !divisorOpen then value :: later else later

def settings (divisorOpen : Bool) : List Access → List (Nat × UInt8)
  | [] => []
  | .read _ _ :: rest => settings divisorOpen rest
  | .write register value :: rest =>
    let later := settings (opensDivisor divisorOpen register value) rest
    if register = transmitRegister ∧ !divisorOpen then later else (register, value) :: later

def isBusyPoll : Access → Bool
  | .read register value => register = lineStatusRegister && !isIdle value
  | .write _ _ => false

end Uart

end EarlyBoot.Console
