import EarlyBoot.Platform.Harts
import EarlyBoot.Proofs.Attempt

set_option autoImplicit false

namespace EarlyBoot.Platform.HartRoutine

open Routine

variable {service : HartService} {entry : HartEntry} {report : HartReport} {hart : UInt64}
  {requests after : List HartRequest} {failure : Failure}

theorem status_yields : (status service hart).Yields requests (service.status requests hart)
    (requests ++ [.status hart]) := ⟨rfl, rfl⟩

theorem start_yields (service : HartService) {argument : UInt64}
    (passed : argument = entry.argument (requests.countP HartRequest.isStart) hart) :
    (start service entry hart).Yields requests
      (service.start requests hart entry.address argument)
      (requests ++ [.start hart entry.address argument]) := by
  subst passed
  exact ⟨rfl, rfl⟩

theorem told_yields {level : Log.Level} {origin : Log.Origin} {text : String} :
    ((log level origin text >>= fun _ => pure report) : HartRoutine HartReport).Yields requests
      report requests :=
  (yields_log.mpr rfl : (log level origin text).Yields requests () requests).bind
    (yields_pure.mpr ⟨rfl, rfl⟩)

theorem not_fails_status : ¬(status service hart).Fails requests failure after :=
  status_yields.not_fails

theorem not_fails_start : ¬(start service entry hart).Fails requests failure after :=
  (start_yields service rfl).not_fails

theorem not_fails_told {level : Log.Level} {origin : Log.Origin} {text : String} :
    ¬((log level origin text >>= fun _ => pure report) : HartRoutine HartReport).Fails requests
      failure after :=
  told_yields.not_fails

theorem not_fails_launch : ¬(launch service entry report hart).Fails requests failure after := by
  intro failed
  obtain asked | ⟨answer, _, _, later⟩ := fails_bind.mp failed
  · exact not_fails_start asked
  · cases answer with
    | ok _ => exact not_fails_told later
    | error refusal => exact not_fails_told later

theorem failure_of_raise (failed : (raise service entry report hart).Fails requests failure after) :
    failure = .supervisor .notSupported := by
  obtain asked | ⟨answer, _, _, later⟩ := fails_bind.mp failed
  · exact absurd asked not_fails_status
  split at later
  next => exact absurd later not_fails_told
  next => exact absurd later not_fails_told
  next => exact absurd later not_fails_launch
  next =>
    obtain warned | ⟨_, _, _, last⟩ := fails_bind.mp later
    · exact absurd warned not_fails_log
    · exact (fails_fail.mp last).1.symm
  next =>
    -- a hart of unknown state is launched all the same
    obtain warned | ⟨_, _, _, last⟩ := fails_bind.mp later
    · exact absurd warned not_fails_log
    · exact absurd last not_fails_launch

theorem failure_of_consider
    (failed : (consider service entry report hart).Fails requests failure after) :
    failure = .supervisor .notSupported := by
  unfold consider at failed
  split at failed
  · exact absurd failed not_fails_told
  · exact failure_of_raise failed

theorem failure_of_startSecondary {harts : List UInt64}
    (failed : (startSecondary service entry harts).Fails requests failure after) :
    failure = .supervisor .notSupported :=
  failure_of_foldlM (fun _ _ _ _ _ => failure_of_consider) failed

end EarlyBoot.Platform.HartRoutine
