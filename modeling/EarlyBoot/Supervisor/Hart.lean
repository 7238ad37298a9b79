import EarlyBoot.Supervisor.Status

set_option autoImplicit false

namespace EarlyBoot

inductive HartState where
  | started
  | stopped
  | startPending
  | stopPending
  | suspended
  | suspendPending
  | resumePending
  deriving DecidableEq, Repr

namespace HartState

def all : List HartState :=
  [.started, .stopped, .startPending, .stopPending, .suspended, .suspendPending, .resumePending]

def code : HartState → UInt64
  | .started => 0
  | .stopped => 1
  | .startPending => 2
  | .stopPending => 3
  | .suspended => 4
  | .suspendPending => 5
  | .resumePending => 6

def ofCode? (code : UInt64) : Option HartState :=
  all.find? fun state => state.code = code

theorem ofCode?_code (state : HartState) : ofCode? state.code = some state := by
  cases state <;> decide

end HartState

inductive HartRequest where
  | status (hart : UInt64)
  | start (hart entry argument : UInt64)
  deriving DecidableEq, Repr

def HartRequest.isStart : HartRequest → Bool
  | .status _ => false
  | .start .. => true

structure HartService where
  bootHart : UInt64
  status : List HartRequest → UInt64 → Except Supervisor.Refusal HartState
  start : List HartRequest → UInt64 → UInt64 → UInt64 → Except Supervisor.Refusal Unit

end EarlyBoot
