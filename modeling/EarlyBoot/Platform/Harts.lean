import EarlyBoot.Attempt
import EarlyBoot.Platform.Config
import EarlyBoot.Supervisor.Hart

set_option autoImplicit false

namespace EarlyBoot.Platform

open Supervisor (Refusal)

structure HartReport where
  started : List UInt64
  failed : List (UInt64 × Refusal)
  ignored : Nat
  deriving DecidableEq, Repr

namespace HartReport

def empty : HartReport := ⟨[], [], 0⟩

def handled (report : HartReport) : Nat :=
  report.started.length + report.failed.length

def isComplete (report : HartReport) : Bool :=
  report.failed.isEmpty && report.ignored = 0

def addStarted (report : HartReport) (hart : UInt64) : HartReport :=
  { report with started := report.started ++ [hart] }

def addFailed (report : HartReport) (hart : UInt64) (refusal : Refusal) : HartReport :=
  { report with failed := report.failed ++ [(hart, refusal)] }

def addIgnored (report : HartReport) : HartReport :=
  { report with ignored := report.ignored + 1 }

end HartReport

abbrev HartRoutine (α : Type) : Type :=
  Routine (List HartRequest) α

-- the argument of a start depends on how many came before it
structure HartEntry where
  address : UInt64
  argument : Nat → UInt64 → UInt64

namespace HartRoutine

def status (service : HartService) (hart : UInt64) :
    HartRoutine (Except Refusal HartState) := fun requests =>
  (pure (service.status requests hart), requests ++ [.status hart])

def start (service : HartService) (entry : HartEntry) (hart : UInt64) :
    HartRoutine (Except Refusal Unit) := fun requests =>
  let argument := entry.argument (requests.countP HartRequest.isStart) hart
  (pure (service.start requests hart entry.address argument),
    requests ++ [.start hart entry.address argument])

def info (text : String) : HartRoutine Unit :=
  .log .info .harts text

def warn (text : String) : HartRoutine Unit :=
  .log .warning .harts text

def label (hart : UInt64) : String :=
  toString hart.toNat

def launch (service : HartService) (entry : HartEntry) (report : HartReport) (hart : UInt64) :
    HartRoutine HartReport := do
  match ← start service entry hart with
  | .ok () =>
    info ("started hart " ++ label hart)
    return report.addStarted hart
  | .error refusal =>
    warn ("failed to start hart " ++ label hart ++ ": " ++ refusal.message)
    return report.addFailed hart refusal

def raise (service : HartService) (entry : HartEntry) (report : HartReport) (hart : UInt64) :
    HartRoutine HartReport := do
  match ← status service hart with
  | .ok .started | .ok .startPending =>
    info ("hart " ++ label hart ++ " is already running")
    return report.addStarted hart
  | .ok _ => launch service entry report hart
  | .error .notSupported =>
    warn "hart state management is not available"
    .fail (.supervisor .notSupported)
  -- a hart of unknown state is worth a try
  | .error refusal =>
    warn ("cannot get the state of hart " ++ label hart ++ ": " ++ refusal.message)
    launch service entry report hart

def consider (service : HartService) (entry : HartEntry) (report : HartReport) (hart : UInt64) :
    HartRoutine HartReport := do
  if maxHarts - 1 ≤ report.handled then
    warn ("hart " ++ label hart ++ " exceeds the supported hart count")
    return report.addIgnored
  else raise service entry report hart

def startSecondary (service : HartService) (entry : HartEntry) (harts : List UInt64) :
    HartRoutine HartReport :=
  (harts.filter (· ≠ service.bootHart)).foldlM (consider service entry) .empty

end HartRoutine

end EarlyBoot.Platform
