set_option autoImplicit false

namespace EarlyBoot.Supervisor

inductive Refusal where
  | failed
  | notSupported
  | invalidParameter
  | denied
  | invalidAddress
  | alreadyAvailable
  | alreadyStarted
  | alreadyStopped
  deriving DecidableEq, Repr

namespace Refusal

def all : List Refusal :=
  [.failed, .notSupported, .invalidParameter, .denied, .invalidAddress, .alreadyAvailable,
    .alreadyStarted, .alreadyStopped]

def code : Refusal → Int64
  | .failed => -1
  | .notSupported => -2
  | .invalidParameter => -3
  | .denied => -4
  | .invalidAddress => -5
  | .alreadyAvailable => -6
  | .alreadyStarted => -7
  | .alreadyStopped => -8

def ofCode? (code : Int64) : Option Refusal :=
  all.find? fun refusal => refusal.code = code

def message : Refusal → String
  | .failed => "failed"
  | .notSupported => "not supported"
  | .invalidParameter => "invalid parameter"
  | .denied => "denied"
  | .invalidAddress => "invalid address"
  | .alreadyAvailable => "already available"
  | .alreadyStarted => "already started"
  | .alreadyStopped => "already stopped"

theorem ofCode?_code (refusal : Refusal) : ofCode? refusal.code = some refusal := by
  cases refusal <;> decide

end Refusal

structure Reply where
  status : Int64
  value : UInt64
  deriving DecidableEq, Repr

def Reply.result (reply : Reply) : Except Refusal UInt64 :=
  if reply.status = 0 then .ok reply.value
  else .error ((Refusal.ofCode? reply.status).getD .failed)

end EarlyBoot.Supervisor
