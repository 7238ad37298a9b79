import EarlyBoot.Attempt
import EarlyBoot.Supervisor.Call
import EarlyBoot.Supervisor.Context

set_option autoImplicit false

namespace EarlyBoot.Boot

structure Machine where
  memory : Memory
  -- zero until a context record is registered
  contextPointer : UInt64
  calls : List Supervisor.Call

abbrev BootRoutine (α : Type) : Type :=
  Routine Machine α

namespace Machine

def start (memory : Memory) : Machine :=
  ⟨memory, 0, []⟩

def context (machine : Machine) : ContextRecord :=
  machine.memory.readContext machine.contextPointer

end Machine

namespace BootRoutine

def call (supervisor : Supervisor) (call : Supervisor.Call) : BootRoutine Supervisor.Reply :=
  fun machine =>
    (pure (supervisor.answer machine.calls call), { machine with calls := machine.calls ++ [call] })

def info (text : String) : BootRoutine Unit :=
  .log .info .firmware text

def warn (text : String) : BootRoutine Unit :=
  .log .warning .firmware text

def registerContext (address : UInt64) (record : ContextRecord) : BootRoutine Unit :=
  fun machine =>
    (pure (), { machine with
      memory := machine.memory.writeContext address record
      contextPointer := address })

def write (address : UInt64) (bytes : List UInt8) : BootRoutine Unit := fun machine =>
  (pure (), { machine with memory := machine.memory.write address bytes })

end BootRoutine

end EarlyBoot.Boot
