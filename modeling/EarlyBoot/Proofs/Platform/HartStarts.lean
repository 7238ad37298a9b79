import EarlyBoot.Proofs.Platform.HartAccounts

set_option autoImplicit false

namespace EarlyBoot.Platform

open HartRoutine (considered startSecondary)

def Visit.launched (visits : List Visit) : List UInt64 :=
  (visits.filter fun visit => visit.launch.isSome).map Visit.hart

def HartEntry.requests (entry : HartEntry) (first : Nat) (harts : List UInt64) :
    List HartRequest :=
  harts.mapIdx fun slot hart => .start hart entry.address (entry.argument (first + slot) hart)

section Visits

variable {service : HartService} {entry : HartEntry} {past : List HartRequest}
  {visits : List Visit}

theorem Visit.launched_sublist (visits : List Visit) :
    (launched visits).Sublist (visits.map Visit.hart) :=
  List.filter_sublist.map Visit.hart

theorem Visit.launched_eq_nil_iff :
    launched visits = [] ↔ ∀ visit ∈ visits, visit.launch = none := by
  simp [launched]

theorem HartEntry.requests_cons (first : Nat) (hart : UInt64) (rest : List UInt64) :
    entry.requests first (hart :: rest) =
      .start hart entry.address (entry.argument first hart) :: entry.requests (first + 1) rest := by
  simp only [requests, List.mapIdx_cons, Nat.add_zero, Nat.add_right_comm first, Nat.add_assoc]

theorem HartEntry.requests_eq_nil_iff {first : Nat} {harts : List UInt64} :
    entry.requests first harts = [] ↔ harts = [] :=
  List.mapIdx_eq_nil_iff

theorem Visit.starts_requests (visit : Visit) (entry : HartEntry) :
    (visit.requests entry).filter HartRequest.isStart =
      (visit.launch.map fun launch => .start visit.hart entry.address launch.argument).toList := by
  unfold requests
  cases visit.launch <;> rfl

theorem Visit.starts_trace (went : Visits service entry past visits) :
    (trace entry visits).filter HartRequest.isStart =
      entry.requests (past.countP HartRequest.isStart) (launched visits) := by
  induction went with
  | nil => rfl
  | @cons past visit visits answered _ ih =>
    -- one start takes one argument, and a visit without a start takes none
    rw [trace_cons, List.filter_append, ih, List.countP_append, List.countP_eq_length_filter,
      List.countP_eq_length_filter, starts_requests]
    cases launched : visit.launch with
    | none => simp [Visit.launched, launched]
    | some launch =>
      have passed := (answered.launched launch launched).1
      rw [List.countP_eq_length_filter] at passed
      simp [Visit.launched, launched, HartEntry.requests_cons, passed]

end Visits

namespace HartRoutine

variable {service : HartService} {entry : HartEntry} {harts : List UInt64} {failure : Failure}
  {requests : List HartRequest} {visits : List Visit} {hart : UInt64}

theorem exists_visits (service : HartService) (entry : HartEntry) (harts : List UInt64) :
    ∃ visits, Visits service entry [] visits ∧
      visits.map Visit.hart <+: considered service harts ∧
      (startSecondary service entry harts []).2.filter HartRequest.isStart =
        entry.requests 0 (Visit.launched visits) := by
  obtain ⟨_, _, visits, yields, accounted⟩ | ⟨visits, hart, refused⟩ :=
    startSecondary_ends service entry harts
  · refine ⟨visits, accounted.went, accounted.visited ▸ List.prefix_rfl, ?_⟩
    rw [yields.2, accounted.requests]
    exact Visit.starts_trace accounted.went
  · refine ⟨visits, refused.went, (List.prefix_append _ [hart]).trans refused.next, ?_⟩
    rw [(startSecondary_fails refused).2, List.filter_append, Visit.starts_trace refused.went]
    exact List.append_nil _

structure GivenUp (service : HartService) (entry : HartEntry) (harts : List UInt64)
    (failure : Failure) (requests : List HartRequest) (visits : List Visit) (hart : UInt64) :
    Prop where
  refused : Refused service entry [] (considered service harts) visits hart
  failure : failure = .supervisor .notSupported
  asked : requests = Visit.trace entry visits ++ [.status hart]
  starts : requests.filter HartRequest.isStart = entry.requests 0 (Visit.launched visits)
  parked_iff : (∀ request ∈ requests, request.isStart = false) ↔
    ∀ visit ∈ visits, visit.state = .ok .started ∨ visit.state = .ok .startPending

theorem givenUp_of_fails
    (failed : (startSecondary service entry harts).Fails [] failure requests) :
    ∃ visits hart, GivenUp service entry harts failure requests visits hart := by
  obtain ⟨visits, hart, refused⟩ := refused_of_fails failed
  have ended := startSecondary_fails refused
  have made : requests = Visit.trace entry visits ++ [.status hart] := failed.2.symm.trans ended.2
  have starts : requests.filter HartRequest.isStart =
      entry.requests 0 (Visit.launched visits) := by
    rw [made, List.filter_append, Visit.starts_trace refused.went]
    exact List.append_nil _
  have parked : (∀ request ∈ requests, request.isStart = false) ↔
      ∀ visit ∈ visits, visit.launch = none := by
    rw [← Visit.launched_eq_nil_iff, ← HartEntry.requests_eq_nil_iff, ← starts,
      List.filter_eq_nil_iff]
    simp only [Bool.not_eq_true]
  refine ⟨visits, hart, refused, failure_of_startSecondary failed, made, starts, parked.trans ?_⟩
  refine forall₂_congr fun visit among => ?_
  obtain ⟨_, answered⟩ := refused.went.answered among
  exact answered.running

theorem parked_of_unmanaged (entry : HartEntry) (harts : List UInt64)
    (unmanaged : ∀ past hart, service.status past hart = .error .notSupported) :
    ∀ request ∈ (startSecondary service entry harts []).2, request.isStart = false := by
  obtain ⟨visits, went, _, starts⟩ := exists_visits service entry harts
  have unvisited : visits = [] := by
    cases went with
    | nil => rfl
    | cons answered _ => exact absurd (answered.state ▸ unmanaged _ _) answered.supported
  rw [unvisited] at starts
  intro request made
  rw [← Bool.not_eq_true]
  exact List.filter_eq_nil_iff.mp starts request made

theorem startSecondary_givesUp (service : HartService) (entry : HartEntry)
    (harts : List UInt64) :
    (∀ failure requests, (startSecondary service entry harts).Fails [] failure requests →
      ∃ visits hart, GivenUp service entry harts failure requests visits hart) ∧
    ((∀ past hart, service.status past hart = .error .notSupported) →
      ∀ request ∈ (startSecondary service entry harts []).2, request.isStart = false) :=
  ⟨fun _ _ => givenUp_of_fails, parked_of_unmanaged entry harts⟩

-- every hart is stopped, and the state of hart 2 is not managed
def patchyService : HartService where
  bootHart := 0
  status _ hart := if hart = 2 then .error .notSupported else .ok .stopped
  start _ _ _ _ := .ok ()

def unmanagedService : HartService :=
  { patchyService with status := fun _ _ => .error .notSupported }

def spacedEntry : HartEntry :=
  ⟨0x80200000, fun slot _ => 0x1000 + 0x10 * UInt64.ofNat slot⟩

theorem patchyService_givesUp :
    (startSecondary patchyService spacedEntry [1, 2]).Fails [] (.supervisor .notSupported)
        [.status 1, .start 1 0x80200000 0x1000, .status 2] ∧
      (∃ visits hart, GivenUp patchyService spacedEntry [1, 2] (.supervisor .notSupported)
        [.status 1, .start 1 0x80200000 0x1000, .status 2] visits hart) ∧
      ∀ request ∈ (startSecondary unmanagedService spacedEntry [1, 2] []).2,
        request.isStart = false := by
  have failed : (startSecondary patchyService spacedEntry [1, 2]).Fails []
      (.supervisor .notSupported) [.status 1, .start 1 0x80200000 0x1000, .status 2] := ⟨rfl, rfl⟩
  exact ⟨failed, (startSecondary_givesUp patchyService spacedEntry [1, 2]).1 _ _ failed,
    (startSecondary_givesUp unmanagedService spacedEntry [1, 2]).2 fun _ _ => rfl⟩

theorem patchyService_strands_hart :
    (startSecondary patchyService spacedEntry [1, 2] []).1.result =
        .error (.supervisor .notSupported) ∧
      .start 1 0x80200000 0x1000 ∈ (startSecondary patchyService spacedEntry [1, 2] []).2 ∧
      patchyService.start [.status 1] 1 0x80200000 0x1000 = .ok () :=
  ⟨rfl, by decide, rfl⟩

end HartRoutine

end EarlyBoot.Platform
