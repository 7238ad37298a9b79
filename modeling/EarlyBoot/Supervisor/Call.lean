import EarlyBoot.Supervisor.Hart

set_option autoImplicit false

namespace EarlyBoot

structure Supervisor.Call where
  extension : UInt64
  function : UInt64
  a0 : UInt64
  a1 : UInt64
  a2 : UInt64
  deriving DecidableEq, Repr

-- a reset that is carried out never returns
structure Supervisor where
  answer : List Supervisor.Call → Supervisor.Call → Supervisor.Reply
  resets : List Supervisor.Call → Supervisor.Call → Bool

namespace Supervisor

inductive ResetKind where
  | shutdown
  | coldReboot
  | warmReboot
  deriving DecidableEq, Repr

def ResetKind.code : ResetKind → UInt64
  | .shutdown => 0
  | .coldReboot => 1
  | .warmReboot => 2

inductive ResetReason where
  | none
  | systemFailure
  deriving DecidableEq, Repr

def ResetReason.code : ResetReason → UInt64
  | .none => 0
  | .systemFailure => 1

def baseExtension : UInt64 := 0x10
def hartExtension : UInt64 := 0x48534d
def resetExtension : UInt64 := 0x53525354

def specVersionFunction : UInt64 := 0
def probeFunction : UInt64 := 3
def hartStartFunction : UInt64 := 0
def hartStatusFunction : UInt64 := 2
def resetFunction : UInt64 := 0

namespace Call

def specVersion : Call := ⟨baseExtension, specVersionFunction, 0, 0, 0⟩

def probe (extension : UInt64) : Call := ⟨baseExtension, probeFunction, extension, 0, 0⟩

def hartStatus (hart : UInt64) : Call := ⟨hartExtension, hartStatusFunction, hart, 0, 0⟩

def hartStart (hart entry argument : UInt64) : Call :=
  ⟨hartExtension, hartStartFunction, hart, entry, argument⟩

def reset (kind : ResetKind) (reason : ResetReason) : Call :=
  ⟨resetExtension, resetFunction, kind.code, reason.code, 0⟩

def isHartStart (call : Call) : Bool :=
  call.extension = hartExtension && call.function = hartStartFunction

end Call

namespace Reply

def isPresent (reply : Reply) : Bool :=
  match reply.result with
  | .ok value => value ≠ 0
  | .error _ => false

def hartState (reply : Reply) : Except Refusal HartState :=
  match reply.result with
  | .ok code =>
    match HartState.ofCode? code with
    | some state => .ok state
    | none => .error .failed
  | .error refusal => .error refusal

def hartStarted (reply : Reply) : Except Refusal Unit :=
  reply.result.map fun _ => ()

def resetRefusal (reply : Reply) : Refusal :=
  match reply.result with
  | .ok _ => .failed
  | .error refusal => refusal

end Reply

def splitVersion (version : UInt64) : UInt64 × UInt64 :=
  ((version >>> 24) &&& 0x7f, version &&& 0xffffff)

end Supervisor

def HartRequest.call : HartRequest → Supervisor.Call
  | .status hart => .hartStatus hart
  | .start hart entry argument => .hartStart hart entry argument

def Supervisor.hartService (supervisor : Supervisor) (past : List Supervisor.Call)
    (bootHart : UInt64) : HartService where
  bootHart := bootHart
  status requests hart :=
    (supervisor.answer (past ++ requests.map HartRequest.call) (.hartStatus hart)).hartState
  start requests hart entry argument :=
    (supervisor.answer (past ++ requests.map HartRequest.call)
      (.hartStart hart entry argument)).hartStarted

end EarlyBoot
