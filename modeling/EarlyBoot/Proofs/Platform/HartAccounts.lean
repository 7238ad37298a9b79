import EarlyBoot.Proofs.Platform.Harts

set_option autoImplicit false

namespace EarlyBoot

def HartRequest.hart : HartRequest → UInt64
  | .status hart => hart
  | .start hart _ _ => hart

namespace Platform

open Supervisor (Refusal)

structure Launch where
  argument : UInt64
  answer : Except Refusal Unit

structure Visit where
  hart : UInt64
  state : Except Refusal HartState
  launch : Option Launch

namespace Visit

def requests (entry : HartEntry) (visit : Visit) : List HartRequest :=
  .status visit.hart ::
    (visit.launch.map fun launch => .start visit.hart entry.address launch.argument).toList

def refusal? (visit : Visit) : Option Refusal :=
  match visit.launch with
  | some ⟨_, .error refusal⟩ => some refusal
  | some ⟨_, .ok ()⟩ | none => none

def trace (entry : HartEntry) (visits : List Visit) : List HartRequest :=
  visits.flatMap fun visit => visit.requests entry

def started (visits : List Visit) : List UInt64 :=
  (visits.filter fun visit => visit.refusal?.isNone).map Visit.hart

def failed (visits : List Visit) : List (UInt64 × Refusal) :=
  visits.filterMap fun visit => visit.refusal?.map fun refusal => (visit.hart, refusal)

structure Answered (service : HartService) (entry : HartEntry) (past : List HartRequest)
    (visit : Visit) : Prop where
  state : service.status past visit.hart = visit.state
  supported : visit.state ≠ .error .notSupported
  running : visit.launch = none ↔
    visit.state = .ok .started ∨ visit.state = .ok .startPending
  launched : ∀ launch, visit.launch = some launch →
    launch.argument = entry.argument (past.countP HartRequest.isStart) visit.hart ∧
      launch.answer =
        service.start (past ++ [.status visit.hart]) visit.hart entry.address launch.argument

end Visit

inductive Visits (service : HartService) (entry : HartEntry) :
    List HartRequest → List Visit → Prop where
  | nil {past : List HartRequest} : Visits service entry past []
  | cons {past : List HartRequest} {visit : Visit} {visits : List Visit}
    (answered : visit.Answered service entry past)
    (later : Visits service entry (past ++ visit.requests entry) visits) :
    Visits service entry past (visit :: visits)

def HartReport.add (report : HartReport) (visit : Visit) : HartReport :=
  match visit.refusal? with
  | none => report.addStarted visit.hart
  | some refusal => report.addFailed visit.hart refusal

def HartReport.ofVisits (visits : List Visit) (ignored : Nat) : HartReport :=
  ⟨Visit.started visits, Visit.failed visits, ignored⟩

section Reports

variable {report : HartReport} {visit : Visit} {visits : List Visit}

@[simp]
theorem Visit.trace_nil (entry : HartEntry) : trace entry [] = [] := rfl

@[simp]
theorem Visit.trace_cons (entry : HartEntry) :
    trace entry (visit :: visits) = visit.requests entry ++ trace entry visits := rfl

theorem Visit.started_cons :
    started (visit :: visits) =
      if visit.refusal?.isNone then visit.hart :: started visits else started visits := by
  unfold started
  split_ifs with launched <;> simp [launched]

theorem Visit.failed_cons :
    failed (visit :: visits) =
      (visit.refusal?.map fun refusal => (visit.hart, refusal)).toList ++ failed visits := by
  unfold failed
  cases refused : visit.refusal? <;> simp [refused]

theorem HartReport.handled_ofVisits (visits : List Visit) (ignored : Nat) :
    (ofVisits visits ignored).handled = visits.length := by
  change (Visit.started visits).length + (Visit.failed visits).length = visits.length
  induction visits with
  | nil => rfl
  | cons visit rest ih =>
    rw [Visit.started_cons, Visit.failed_cons]
    cases visit.refusal? <;> simp <;> omega

theorem Visit.hart_mem_of_request {entry : HartEntry} {request : HartRequest}
    (made : request ∈ trace entry visits) :
    request.hart ∈ visits.map Visit.hart := by
  obtain ⟨visit, among, made⟩ := List.mem_flatMap.mp made
  refine List.mem_map.mpr ⟨visit, among, ?_⟩
  obtain ⟨hart, state, launch⟩ := visit
  cases launch with
  | none =>
    obtain rfl := List.mem_singleton.mp made
    rfl
  | some launch =>
    obtain rfl | rfl := List.mem_pair.mp made
    · rfl
    · rfl

theorem Visits.answered {service : HartService} {entry : HartEntry} {past : List HartRequest}
    (went : Visits service entry past visits) (among : visit ∈ visits) :
    ∃ earlier, visit.Answered service entry earlier := by
  induction went with
  | nil => cases among
  | cons answered _ ih =>
    obtain rfl | later := List.mem_cons.mp among
    · exact ⟨_, answered⟩
    · exact ih later

theorem HartReport.handled_empty : empty.handled = 0 := rfl

theorem HartReport.handled_add : (report.add visit).handled = report.handled + 1 := by
  unfold add
  cases visit.refusal? with
  | none => simp [addStarted, handled]; omega
  | some refusal => simp [addFailed, handled]; omega

theorem HartReport.foldl_add (visits : List Visit) (report : HartReport) :
    visits.foldl add report =
      ⟨report.started ++ Visit.started visits, report.failed ++ Visit.failed visits,
        report.ignored⟩ := by
  induction visits generalizing report with
  | nil => simp [Visit.started, Visit.failed]
  | cons visit rest ih =>
    rw [List.foldl_cons, ih, Visit.started_cons, Visit.failed_cons]
    unfold add
    cases visit.refusal? with
    | none => simp [addStarted]
    | some refusal => simp [addFailed]

end Reports

namespace HartRoutine

open Routine

section Steps

variable {service : HartService} {entry : HartEntry} {report : HartReport} {hart : UInt64}
  {past : List HartRequest} {visit : Visit}

theorem launch_yields {launch : Launch}
    (passed : launch.argument = entry.argument (past.countP HartRequest.isStart) hart)
    (answered : launch.answer = service.start past hart entry.address launch.argument)
    (report : HartReport) (state : Except Refusal HartState) :
    (HartRoutine.launch service entry report hart).Yields past
      (report.add ⟨hart, state, some launch⟩)
      (past ++ [.start hart entry.address launch.argument]) := by
  have asked := start_yields service passed
  rw [← answered] at asked
  refine asked.bind ?_
  obtain ⟨argument, answer⟩ := launch
  cases answer with
  | ok _ => exact told_yields
  | error refusal => exact told_yields

theorem raise_yields (answered : visit.Answered service entry past) :
    (raise service entry report visit.hart).Yields past (report.add visit)
      (past ++ visit.requests entry) := by
  obtain ⟨hart, state, launch⟩ := visit
  obtain ⟨asked, supported, running, launched⟩ := answered
  dsimp only at asked supported running launched
  subst asked
  refine status_yields.bind ?_
  cases launch with
  | none =>
    obtain runs | runs := running.mp rfl
    · rw [runs]
      exact told_yields
    · rw [runs]
      exact told_yields
  | some launch =>
    obtain ⟨passed, replied⟩ := launched launch rfl
    -- the question for the state takes no argument away
    have counted : (past ++ [HartRequest.status hart]).countP HartRequest.isStart =
        past.countP HartRequest.isStart := by
      simp [HartRequest.isStart]
    rw [← counted] at passed
    have goes := launch_yields passed replied report (service.status past hart)
    rw [List.append_assoc] at goes
    have stopped := mt running.mpr (Option.some_ne_none launch)
    split
    next runs => exact absurd (.inl runs) stopped
    next runs => exact absurd (.inr runs) stopped
    next => exact goes
    next refused => exact absurd refused supported
    next => exact (yields_log.mpr rfl : (log _ _ _).Yields _ () _).bind goes

theorem raise_fails (unsupported : service.status past hart = .error .notSupported) :
    (raise service entry report hart).Fails past (.supervisor .notSupported)
      (past ++ [.status hart]) := by
  refine status_yields.bind_fails ?_
  rw [unsupported]
  exact (yields_log.mpr rfl : (log _ _ _).Yields _ () _).bind_fails (fails_fail.mpr ⟨rfl, rfl⟩)

theorem consider_of_room (room : report.handled < maxHarts - 1) :
    consider service entry report hart = raise service entry report hart :=
  if_neg (Nat.not_le.mpr room)

theorem consider_yields (room : report.handled < maxHarts - 1)
    (answered : visit.Answered service entry past) :
    (consider service entry report visit.hart).Yields past (report.add visit)
      (past ++ visit.requests entry) := by
  rw [consider_of_room room]
  exact raise_yields answered

theorem consider_ignores (full : maxHarts - 1 ≤ report.handled) :
    (consider service entry report hart).Yields past report.addIgnored past := by
  rw [consider, if_pos full]
  exact told_yields

theorem exists_answered (supported : service.status past hart ≠ .error .notSupported)
    (entry : HartEntry) : ∃ visit : Visit, visit.hart = hart ∧ visit.Answered service entry past := by
  by_cases running : service.status past hart = .ok .started ∨
      service.status past hart = .ok .startPending
  · exact ⟨⟨hart, _, none⟩, rfl, rfl, supported, iff_of_true rfl running, nofun⟩
  · obtain ⟨launch, launched⟩ : ∃ launch : Launch,
        launch.argument = entry.argument (past.countP HartRequest.isStart) hart ∧
          launch.answer = service.start (past ++ [.status hart]) hart entry.address
            launch.argument := ⟨⟨_, service.start _ _ _ _⟩, rfl, rfl⟩
    refine ⟨⟨hart, _, some launch⟩, rfl, rfl, supported, iff_of_false nofun running, ?_⟩
    rintro _ ⟨⟩
    exact launched

end Steps

section Runs

variable {service : HartService} {entry : HartEntry} {report : HartReport} {hart : UInt64}
  {past : List HartRequest} {visits : List Visit} {harts : List UInt64}

theorem visits_yield (went : Visits service entry past visits)
    (room : report.handled + visits.length ≤ maxHarts - 1) :
    ((visits.map Visit.hart).foldlM (consider service entry) report).Yields past
      (visits.foldl HartReport.add report)
      (past ++ Visit.trace entry visits) := by
  induction went generalizing report with
  | nil => simp
  | cons answered _ ih =>
    -- one visit takes up one place in the report
    rw [List.length_cons] at room
    have first := consider_yields (by omega : report.handled < maxHarts - 1) answered
    rw [List.map_cons, List.foldlM_cons, Visit.trace_cons, ← List.append_assoc]
    exact first.bind (ih (by rw [HartReport.handled_add]; omega))

theorem excess_yields (service : HartService) (entry : HartEntry) (past : List HartRequest)
    (full : maxHarts - 1 ≤ report.handled) (harts : List UInt64) :
    (harts.foldlM (consider service entry) report).Yields past
      { report with ignored := report.ignored + harts.length } past := by
  induction harts generalizing report with
  | nil => simp
  | cons hart rest ih =>
    have later := ih (show maxHarts - 1 ≤ report.addIgnored.handled from full)
    rw [List.foldlM_cons, List.length_cons, Nat.add_comm rest.length, ← Nat.add_assoc]
    exact (consider_ignores full).bind later

structure Refused (service : HartService) (entry : HartEntry) (past : List HartRequest)
    (harts : List UInt64) (visits : List Visit) (hart : UInt64) : Prop where
  went : Visits service entry past visits
  next : visits.map Visit.hart ++ [hart] <+: harts
  unsupported : service.status (past ++ Visit.trace entry visits) hart =
    .error .notSupported

theorem visits_or_refused (service : HartService) (entry : HartEntry) (past : List HartRequest)
    (harts : List UInt64) :
    (∃ visits, visits.map Visit.hart = harts ∧ Visits service entry past visits) ∨
      ∃ visits hart, Refused service entry past harts visits hart := by
  induction harts generalizing past with
  | nil => exact .inl ⟨[], rfl, .nil⟩
  | cons hart rest ih =>
    by_cases supported : service.status past hart = .error .notSupported
    · exact .inr ⟨[], hart, .nil, by simp, by simpa using supported⟩
    · obtain ⟨visit, rfl, answered⟩ := exists_answered supported entry
      obtain ⟨visits, rfl, went⟩ | ⟨visits, last, went, next, unsupported⟩ :=
        ih (past ++ visit.requests entry)
      · exact .inl ⟨visit :: visits, rfl, went.cons answered⟩
      · refine .inr ⟨visit :: visits, last, went.cons answered, ?_, ?_⟩
        · simpa using next
        · simpa using unsupported

theorem visits_yield_empty (went : Visits service entry [] visits)
    (room : visits.length ≤ maxHarts - 1) :
    ((visits.map Visit.hart).foldlM (consider service entry) .empty).Yields []
      (.ofVisits visits 0) (Visit.trace entry visits) := by
  have none_handled : HartReport.empty.handled + visits.length ≤ maxHarts - 1 := by
    rwa [HartReport.handled_empty, Nat.zero_add]
  have goes := visits_yield went none_handled
  rwa [HartReport.foldl_add] at goes

end Runs

def secondary (service : HartService) (harts : List UInt64) : List UInt64 :=
  harts.filter (· ≠ service.bootHart)

def considered (service : HartService) (harts : List UInt64) : List UInt64 :=
  (secondary service harts).take (maxHarts - 1)

section Secondary

variable {service : HartService} {entry : HartEntry} {report : HartReport} {hart : UInt64}
  {requests : List HartRequest} {visits : List Visit} {harts : List UInt64} {failure : Failure}

theorem length_considered_le (service : HartService) (harts : List UInt64) :
    (considered service harts).length ≤ maxHarts - 1 :=
  List.length_take_le _ _

theorem ne_bootHart_of_mem_considered (listed : hart ∈ considered service harts) :
    hart ≠ service.bootHart := by
  simpa using List.of_mem_filter (List.mem_of_mem_take listed)

structure Accounted (service : HartService) (entry : HartEntry) (harts : List UInt64)
    (report : HartReport) (requests : List HartRequest) (visits : List Visit) : Prop where
  visited : visits.map Visit.hart = considered service harts
  went : Visits service entry [] visits
  requests : requests = Visit.trace entry visits
  report : report = .ofVisits visits ((secondary service harts).length -
    min (secondary service harts).length (maxHarts - 1))

theorem length_visited (visited : visits.map Visit.hart = considered service harts) :
    visits.length = min (secondary service harts).length (maxHarts - 1) := by
  rw [← List.length_map Visit.hart, visited, considered, List.length_take, Nat.min_comm]

theorem startSecondary_eq (service : HartService) (entry : HartEntry) (harts : List UInt64) :
    startSecondary service entry harts =
      (considered service harts).foldlM (consider service entry) .empty >>=
        ((secondary service harts).drop (maxHarts - 1)).foldlM (consider service entry) := by
  rw [considered, ← List.foldlM_append, List.take_append_drop]
  rfl

theorem startSecondary_yields (visited : visits.map Visit.hart = considered service harts)
    (went : Visits service entry [] visits) :
    (startSecondary service entry harts).Yields []
      (.ofVisits visits ((secondary service harts).length -
        min (secondary service harts).length (maxHarts - 1)))
      (Visit.trace entry visits) := by
  have counted := length_visited visited
  have first := visits_yield_empty went (counted ▸ Nat.min_le_right _ _)
  rw [startSecondary_eq, ← visited, ← counted]
  refine first.bind ?_
  by_cases fits : (secondary service harts).length ≤ maxHarts - 1
  · rw [List.drop_eq_nil_of_le fits, counted, Nat.min_eq_left fits, Nat.sub_self]
    exact yields_pure.mpr ⟨rfl, rfl⟩
  · -- the visited harts fill the report, and the rest is only counted
    rw [Nat.min_eq_right (Nat.le_of_not_le fits)] at counted
    have full : maxHarts - 1 ≤ (HartReport.ofVisits visits 0).handled := by
      rw [HartReport.handled_ofVisits, counted]
    have rest := excess_yields service entry (Visit.trace entry visits) full
      ((secondary service harts).drop (maxHarts - 1))
    simpa [HartReport.ofVisits, counted] using rest

theorem startSecondary_fails
    (refused : Refused service entry [] (considered service harts) visits hart) :
    (startSecondary service entry harts).Fails [] (.supervisor .notSupported)
      (Visit.trace entry visits ++ [.status hart]) := by
  obtain ⟨went, ⟨rest, listed⟩, unsupported⟩ := refused
  have room := length_considered_le service harts
  rw [← listed] at room
  simp only [List.length_append, List.length_map, List.length_singleton] at room
  have first := visits_yield_empty went (by omega)
  have last : (HartReport.ofVisits visits 0).handled < maxHarts - 1 := by
    rw [HartReport.handled_ofVisits]
    omega
  rw [startSecondary_eq, ← listed, List.append_assoc, List.foldlM_append]
  refine (first.bind_fails ?_).bind _
  rw [List.singleton_append, List.foldlM_cons, consider_of_room last]
  exact (raise_fails unsupported).bind _

theorem startSecondary_ends (service : HartService) (entry : HartEntry) (harts : List UInt64) :
    (∃ report requests visits,
      (startSecondary service entry harts).Yields [] report requests ∧
        Accounted service entry harts report requests visits) ∨
    ∃ visits hart, Refused service entry [] (considered service harts) visits hart := by
  obtain ⟨visits, visited, went⟩ | refused :=
    visits_or_refused service entry [] (considered service harts)
  · exact .inl ⟨_, _, visits, startSecondary_yields visited went, visited, went, rfl, rfl⟩
  · exact .inr refused

theorem accounted_of_yields
    (yields : (startSecondary service entry harts).Yields [] report requests) :
    ∃ visits, Accounted service entry harts report requests visits := by
  obtain ⟨_, _, visits, again, accounted⟩ | ⟨_, _, refused⟩ :=
    startSecondary_ends service entry harts
  · obtain ⟨rfl, rfl⟩ := yields.unique again
    exact ⟨visits, accounted⟩
  · exact absurd (startSecondary_fails refused) yields.not_fails

theorem refused_of_fails
    (failed : (startSecondary service entry harts).Fails [] failure requests) :
    ∃ visits hart, Refused service entry [] (considered service harts) visits hart := by
  obtain ⟨_, _, _, yields, _⟩ | refused := startSecondary_ends service entry harts
  · exact absurd failed yields.not_fails
  · exact refused

theorem asked_of_mem {request : HartRequest}
    (made : request ∈ (startSecondary service entry harts []).2) :
    request.hart ∈ considered service harts := by
  obtain ⟨_, _, visits, yields, accounted⟩ | ⟨visits, hart, refused⟩ :=
    startSecondary_ends service entry harts
  · rw [yields.2, accounted.requests] at made
    rw [← accounted.visited]
    exact Visit.hart_mem_of_request made
  · rw [(startSecondary_fails refused).2] at made
    refine refused.next.subset (List.mem_append.mpr ?_)
    obtain earlier | last := List.mem_append.mp made
    · exact .inl (Visit.hart_mem_of_request earlier)
    · obtain rfl := List.mem_singleton.mp last
      exact .inr (List.mem_singleton_self hart)

theorem handled_lt
    (yields : (startSecondary service entry harts).Yields [] report requests) :
    report.handled < maxHarts := by
  obtain ⟨visits, accounted⟩ := accounted_of_yields yields
  rw [accounted.report, HartReport.handled_ofVisits, length_visited accounted.visited]
  exact Nat.lt_of_le_of_lt (Nat.min_le_right _ _) (by decide)

theorem fails_iff_of_steady {state : UInt64 → Except Refusal HartState}
    (steady : ∀ past hart, service.status past hart = state hart) :
    (∃ failure requests, (startSecondary service entry harts).Fails [] failure requests) ↔
      ∃ hart ∈ considered service harts, state hart = .error .notSupported := by
  constructor
  · rintro ⟨_, _, failed⟩
    obtain ⟨visits, hart, refused⟩ := refused_of_fails failed
    refine ⟨hart, refused.next.subset (by simp), ?_⟩
    rw [← refused.unsupported, steady]
  · rintro ⟨hart, listed, unsupported⟩
    obtain ⟨_, _, visits, _, accounted⟩ | ⟨_, _, refused⟩ :=
      startSecondary_ends service entry harts
    · rw [← accounted.visited] at listed
      obtain ⟨visit, among, rfl⟩ := List.mem_map.mp listed
      obtain ⟨past, answered⟩ := accounted.went.answered among
      have asked := answered.state
      rw [steady, unsupported] at asked
      exact absurd asked.symm answered.supported
    · exact ⟨_, _, startSecondary_fails refused⟩

end Secondary

structure Accounts (service : HartService) (entry : HartEntry) (harts : List UInt64) : Prop where
  accounted : ∀ report requests,
    (startSecondary service entry harts).Yields [] report requests →
      ∃ visits, Accounted service entry harts report requests visits
  fails_iff :
    (∃ failure requests, (startSecondary service entry harts).Fails [] failure requests) ↔
      ∃ visits hart, Refused service entry [] (considered service harts) visits hart
  fails_iff_of_steady : ∀ state : UInt64 → Except Refusal HartState,
    (∀ past hart, service.status past hart = state hart) →
      ((∃ failure requests, (startSecondary service entry harts).Fails [] failure requests) ↔
        ∃ hart ∈ considered service harts, state hart = .error .notSupported)
  asked : ∀ request ∈ (startSecondary service entry harts []).2,
    request.hart ∈ considered service harts ∧ request.hart ≠ service.bootHart
  room : ∀ taken, taken <+: harts → ∀ report requests,
    (startSecondary service entry taken).Yields [] report requests → report.handled < maxHarts

theorem startSecondary_accounts (service : HartService) (entry : HartEntry)
    (harts : List UInt64) : Accounts service entry harts where
  accounted := fun _ _ => accounted_of_yields
  fails_iff :=
    ⟨fun ⟨_, _, failed⟩ => refused_of_fails failed,
      fun ⟨_, _, refused⟩ => ⟨_, _, startSecondary_fails refused⟩⟩
  fails_iff_of_steady := fun _ => fails_iff_of_steady
  asked := fun _ made =>
    ⟨asked_of_mem made, ne_bootHart_of_mem_considered (asked_of_mem made)⟩
  room := fun _ _ _ _ => handled_lt

end HartRoutine

end Platform

end EarlyBoot
