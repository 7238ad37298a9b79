import EarlyBoot.Boot.Flow
import EarlyBoot.Console.Printer

set_option autoImplicit false

namespace EarlyBoot.Boot

open Console (Access LineStatus Printer)
open Supervisor (Call ResetKind ResetReason)

inductive Ending where
  | reset (kind : ResetKind) (reason : ResetReason)
  | waiting
  -- for the console, for ever
  | spinning
  deriving DecidableEq, Repr

structure Conclusion where
  machine : Machine
  records : List Log.Record
  reason : ResetReason

def conclude (supervisor : Supervisor) (image : Image) (bootHart deviceTree : UInt64)
    (memory : Memory) : Conclusion :=
  let (attempt, machine) :=
    BootRoutine.flow supervisor image bootHart deviceTree (.start memory)
  match attempt.result with
  | .ok () => ⟨machine, attempt.records, .none⟩
  | .error failure =>
    ⟨machine, attempt.records ++ [⟨.error, .firmware, "boot failed: " ++ failure.message ++ " (" ++
      failure.category.label ++ ")"⟩], .systemFailure⟩

def banner (bootHart : UInt64) : List String :=
  ["\n", "rvpei is booting on hart " ++ toString bootHart.toNat ++ "\n", "\n"]

structure Outcome where
  ending : Ending
  machine : Machine
  accesses : List Access
  printer : Printer

def refusedReset (refusal : Supervisor.Refusal) : Log.Record :=
  ⟨.error, .firmware, "system reset refused: " ++ refusal.message⟩

def run (supervisor : Supervisor) (line : LineStatus) (image : Image)
    (bootHart deviceTree : UInt64) (memory : Memory) : Outcome :=
  let conclusion := conclude supervisor image bootHart deviceTree memory
  let past := conclusion.machine.calls
  let request := Call.reset .shutdown conclusion.reason
  let texts := banner bootHart ++ conclusion.records.map Log.Record.line
  let machine := { conclusion.machine with calls := past ++ [request] }
  -- a reset that is carried out leaves nobody to print
  if supervisor.resets past request then
    let printed := Printer.idle.printAll line texts
    ⟨if printed.returned then .reset .shutdown conclusion.reason else .spinning, machine,
      Console.Uart.setup ++ printed.accesses, printed.printer⟩
  else
    let refusal := (supervisor.answer past request).resetRefusal
    let printed := Printer.idle.printAll line (texts ++ [(refusedReset refusal).line])
    ⟨if printed.returned then .waiting else .spinning, machine,
      Console.Uart.setup ++ printed.accesses, printed.printer.freeze⟩

def startedHarts (supervisor : Supervisor) (past : List Call) : List Call → List UInt64
  | [] => []
  | call :: rest =>
    let later := startedHarts supervisor (past ++ [call]) rest
    if call.isHartStart && (supervisor.answer past call).status = 0 then call.a0 :: later
    else later

structure Parked where
  hart : UInt64
  ending : Ending
  accesses : List Access
  deriving DecidableEq, Repr

def parkRecord (hart : UInt64) : Log.Record :=
  ⟨.info, .entry, "hart " ++ toString hart.toNat ++ " parked"⟩

def park (line : LineStatus) (printer : Printer) : List UInt64 → List Parked
  | [] => []
  | hart :: rest =>
    let printed := printer.print line [(parkRecord hart).line]
    ⟨hart, if printed.returned then .waiting else .spinning, printed.accesses⟩ ::
      park line printed.printer rest

end EarlyBoot.Boot
