import Mathlib
import EarlyBoot.Attempt

set_option autoImplicit false

namespace EarlyBoot

namespace Attempt

theorem result_bind_eq_ok {α β : Type} {first : Attempt α} {next : α → Attempt β} {value : β} :
    (first >>= next).result = .ok value ↔
      ∃ middle, first.result = .ok middle ∧ (next middle).result = .ok value := by
  rw [result_bind]
  cases first.result with
  | error failure => simp [bind, Except.bind]
  | ok middle => simp [bind, Except.bind]

end Attempt

namespace Routine

variable {σ τ α β : Type}

/-- The routine succeeds on a state, with a value and a state after it. -/
def Yields (routine : Routine σ α) (state : σ) (value : α) (after : σ) : Prop :=
  (routine state).1.result = .ok value ∧ (routine state).2 = after

theorem yields_bind {first : Routine σ α} {next : α → Routine σ β} {state after : σ} {value : β} :
    (first >>= next).Yields state value after ↔
      ∃ middle between, first.Yields state middle between ∧
        (next middle).Yields between value after := by
  change (first.andThen next).Yields state value after ↔ _
  unfold Yields andThen
  obtain ⟨⟨result, records⟩, between⟩ := first state
  cases result with
  | error failure => simp
  | ok middle => simp

theorem Yields.bind {first : Routine σ α} {next : α → Routine σ β} {state between after : σ}
    {middle : α} {value : β} (now : first.Yields state middle between)
    (later : (next middle).Yields between value after) :
    (first >>= next).Yields state value after :=
  yields_bind.mpr ⟨middle, between, now, later⟩

theorem Yields.records_bind {first : Routine σ α} {state between : σ} {value : α}
    (now : first.Yields state value between) (next : α → Routine σ β) :
    ((first >>= next) state).1.records =
      (first state).1.records ++ (next value between).1.records := by
  obtain ⟨succeeded, rfl⟩ := now
  change (first.andThen next state).1.records = _
  simp only [andThen, succeeded]

@[simp]
theorem yields_pure {state after : σ} {value result : α} :
    (pure value : Routine σ α).Yields state result after ↔ value = result ∧ state = after := by
  change Except.ok value = Except.ok result ∧ state = after ↔ _
  rw [Except.ok.injEq]

@[simp]
theorem yields_ofAttempt {attempt : Attempt α} {state after : σ} {value : α} :
    (ofAttempt attempt).Yields state value after ↔
      attempt.result = .ok value ∧ state = after := Iff.rfl

@[simp]
theorem yields_log {level : Log.Level} {origin : Log.Origin} {text : String} {state after : σ}
    {value : Unit} : (log level origin text).Yields state value after ↔ state = after := by
  simp [log]

@[simp]
theorem yields_fail {failure : Failure} {state after : σ} {value : α} :
    ¬(fail failure : Routine σ α).Yields state value after := by
  simp [fail]

@[simp]
theorem yields_get {state value after : σ} :
    (get : Routine σ σ).Yields state value after ↔ state = value ∧ state = after :=
  yields_pure

theorem yields_on {part : σ → τ} {replace : σ → τ → σ} {routine : Routine τ α} {state after : σ}
    {value : α} :
    (on part replace routine).Yields state value after ↔
      ∃ last, routine.Yields (part state) value last ∧ replace state last = after := by
  simp [Yields, on, and_assoc]

theorem yields_within {start : τ} {routine : Routine τ α} {state after : σ} {value : α × τ} :
    (within start routine).Yields state value after ↔
      routine.Yields start value.1 value.2 ∧ state = after := by
  unfold Yields within
  obtain ⟨⟨result, records⟩, last⟩ := routine start
  cases result with
  | error failure => simp [Except.map]
  | ok found => simp [Except.map, Prod.ext_iff]

@[simp]
theorem yields_outcome {routine : Routine σ α} {state after : σ} {value : Except Failure α} :
    routine.outcome.Yields state value after ↔
      (routine state).1.result = value ∧ (routine state).2 = after := by
  change Except.ok (routine state).1.result = .ok value ∧ (routine state).2 = after ↔ _
  rw [Except.ok.injEq]

/-- The routine fails on a state, and this is the state it leaves. -/
def Fails (routine : Routine σ α) (state : σ) (failure : Failure) (after : σ) : Prop :=
  (routine state).1.result = .error failure ∧ (routine state).2 = after

theorem yields_or_fails (routine : Routine σ α) (state : σ) :
    (∃ value after, routine.Yields state value after) ∨
      ∃ failure after, routine.Fails state failure after := by
  cases ended : (routine state).1.result with
  | ok value => exact .inl ⟨value, _, ended, rfl⟩
  | error failure => exact .inr ⟨failure, _, ended, rfl⟩

theorem Yields.unique {routine : Routine σ α} {state after last : σ} {value other : α}
    (yields : routine.Yields state value after) (again : routine.Yields state other last) :
    value = other ∧ after = last :=
  ⟨Except.ok.inj (yields.1.symm.trans again.1), yields.2.symm.trans again.2⟩

theorem Yields.not_fails {routine : Routine σ α} {state after last : σ} {value : α}
    {failure : Failure} (yields : routine.Yields state value after) :
    ¬routine.Fails state failure last := by
  intro fails
  have both := yields.1.symm.trans fails.1
  cases both

theorem fails_bind {first : Routine σ α} {next : α → Routine σ β} {state after : σ}
    {failure : Failure} :
    (first >>= next).Fails state failure after ↔
      first.Fails state failure after ∨ ∃ middle between, first.Yields state middle between ∧
        (next middle).Fails between failure after := by
  change (first.andThen next).Fails state failure after ↔ _
  unfold Fails Yields andThen
  obtain ⟨⟨result, records⟩, between⟩ := first state
  cases result with
  | error earlier => simp
  | ok middle => simp

theorem Fails.bind {first : Routine σ α} {state after : σ} {failure : Failure}
    (failed : first.Fails state failure after) (next : α → Routine σ β) :
    (first >>= next).Fails state failure after :=
  fails_bind.mpr (.inl failed)

theorem Yields.bind_fails {first : Routine σ α} {next : α → Routine σ β}
    {state between after : σ} {middle : α} {failure : Failure}
    (now : first.Yields state middle between)
    (later : (next middle).Fails between failure after) :
    (first >>= next).Fails state failure after :=
  fails_bind.mpr (.inr ⟨middle, between, now, later⟩)

theorem not_fails_pure {state after : σ} {value : α} {failure : Failure} :
    ¬(pure value : Routine σ α).Fails state failure after :=
  (yields_pure.mpr ⟨rfl, rfl⟩ : (pure value : Routine σ α).Yields state value state).not_fails

theorem not_fails_log {level : Log.Level} {origin : Log.Origin} {text : String} {state after : σ}
    {failure : Failure} : ¬(log level origin text).Fails state failure after :=
  (yields_log.mpr rfl : (log level origin text).Yields state () state).not_fails

theorem fails_fail {failure ended : Failure} {state after : σ} :
    (fail failure : Routine σ α).Fails state ended after ↔ failure = ended ∧ state = after := by
  change Except.error failure = Except.error ended ∧ state = after ↔ _
  rw [Except.error.injEq]

theorem not_fails_get {state after : σ} {failure : Failure} :
    ¬(get : Routine σ σ).Fails state failure after :=
  not_fails_pure

theorem fails_within {start : τ} {routine : Routine τ α} {state after : σ} {failure : Failure} :
    (within start routine).Fails state failure after ↔
      (∃ last, routine.Fails start failure last) ∧ state = after := by
  unfold Fails within
  obtain ⟨⟨result, records⟩, last⟩ := routine start
  cases result with
  | error failure => simp [Except.map]
  | ok found => simp [Except.map]

theorem fails_on {part : σ → τ} {replace : σ → τ → σ} {routine : Routine τ α} {state after : σ}
    {failure : Failure} :
    (on part replace routine).Fails state failure after ↔
      ∃ last, routine.Fails (part state) failure last ∧ replace state last = after := by
  simp [Fails, on, and_assoc]

theorem failure_of_foldlM {step : β → α → Routine σ β} {allowed : Failure → Prop}
    (each : ∀ value item state failure after,
      (step value item).Fails state failure after → allowed failure)
    {items : List α} {start : β} {state after : σ} {failure : Failure}
    (failed : (items.foldlM step start).Fails state failure after) : allowed failure := by
  -- one of the steps has failed, after others that changed value and state
  induction items generalizing start state with
  | nil => exact absurd failed not_fails_pure
  | cons item rest ih =>
    rw [List.foldlM_cons] at failed
    obtain now | ⟨middle, between, _, later⟩ := fails_bind.mp failed
    · exact each _ _ _ _ _ now
    · exact ih later

theorem bind_of_error {first : Routine σ α} {state : σ} {failure : Failure}
    (failed : (first state).1.result = .error failure) (next : α → Routine σ β) :
    ((first >>= next) state).1.result = .error failure ∧
      ((first >>= next) state).2 = (first state).2 := by
  change (first.andThen next state).1.result = _ ∧ (first.andThen next state).2 = _
  simp only [andThen, failed, and_self]

theorem bind_of_ok {first : Routine σ α} {state : σ} {value : α}
    (succeeded : (first state).1.result = .ok value) (next : α → Routine σ β) :
    ((first >>= next) state).1.result = (next value (first state).2).1.result ∧
      ((first >>= next) state).2 = (next value (first state).2).2 := by
  change (first.andThen next state).1.result = _ ∧ (first.andThen next state).2 = _
  simp only [andThen, succeeded, and_self]

theorem map_id (routine : Routine σ α) : id <$> routine = routine := by
  funext state
  change routine.andThen (fun value => pure value) state = _
  unfold andThen
  obtain ⟨⟨result, records⟩, after⟩ := routine state
  cases result with
  | error failure => rfl
  | ok value => simp [pure]

theorem pure_andThen (value : α) (next : α → Routine σ β) :
    (pure value : Routine σ α).andThen next = next value := by
  funext state
  simp only [andThen, pure, List.nil_append]

theorem andThen_assoc {γ : Type} (first : Routine σ α) (next : α → Routine σ β)
    (last : β → Routine σ γ) :
    (first.andThen next).andThen last = first.andThen fun value => (next value).andThen last := by
  funext state
  unfold andThen
  obtain ⟨⟨result, records⟩, between⟩ := first state
  cases result with
  | error failure => rfl
  | ok middle =>
    dsimp only
    cases (next middle between).1.result with
    | error failure => rfl
    | ok value => simp only [List.append_assoc]

instance : LawfulMonad (Routine σ) :=
  LawfulMonad.mk' _ map_id pure_andThen andThen_assoc

theorem ofAttempt_bind {γ : Type} (first : Attempt α) (second : α → Attempt β)
    (next : β → Routine σ γ) :
    ofAttempt (first >>= second) >>= next =
      ofAttempt first >>= fun value => ofAttempt (second value) >>= next := by
  funext state
  change (ofAttempt (first.andThen second)).andThen next state =
    (ofAttempt first).andThen (fun value => (ofAttempt (second value)).andThen next) state
  simp only [Attempt.andThen, andThen, ofAttempt]
  cases first.result with
  | error failure => rfl
  | ok value => cases ended : (second value).result <;> simp only [ended, List.append_assoc]

/-- However the routine ends, it leaves this much of the state alone. -/
def Keeps {γ : Type} (view : σ → γ) (routine : Routine σ α) : Prop :=
  ∀ state, view (routine state).2 = view state

section Keeps

variable {γ : Type} {view : σ → γ}

theorem Keeps.map {δ : Type} {routine : Routine σ α} (keeps : routine.Keeps view)
    (shown : γ → δ) : routine.Keeps fun state => shown (view state) :=
  fun state => congrArg shown (keeps state)

theorem keeps_ofAttempt (attempt : Attempt α) : (ofAttempt attempt).Keeps view :=
  fun _ => rfl

theorem keeps_pure (value : α) : (pure value : Routine σ α).Keeps view :=
  fun _ => rfl

theorem keeps_get : (get : Routine σ σ).Keeps view :=
  fun _ => rfl

theorem keeps_within (start : τ) (routine : Routine τ α) : (within start routine).Keeps view :=
  fun _ => rfl

theorem keeps_on {part : σ → τ} {replace : σ → τ → σ} (routine : Routine τ α)
    (unseen : ∀ state last, view (replace state last) = view state) :
    (on part replace routine).Keeps view :=
  fun state => unseen state _

theorem Keeps.outcome {routine : Routine σ α} (keeps : routine.Keeps view) :
    routine.outcome.Keeps view :=
  keeps

theorem Keeps.bind {first : Routine σ α} {next : α → Routine σ β} (firstKeeps : first.Keeps view)
    (nextKeeps : ∀ value, (next value).Keeps view) : (first >>= next).Keeps view := by
  intro state
  change view (first.andThen next state).2 = view state
  have kept := firstKeeps state
  unfold andThen
  rcases run : first state with ⟨⟨result, records⟩, between⟩
  rw [run] at kept
  cases result with
  | error failure => exact kept
  | ok value => exact (nextKeeps value between).trans kept

end Keeps

def Leads (before after : σ → Prop) (routine : Routine σ α) : Prop :=
  ∀ state, before state → after (routine state).2

section Leads

variable {before between after : σ → Prop}

theorem Keeps.leads {γ : Type} {view : σ → γ} {routine : Routine σ α}
    (keeps : routine.Keeps view) (holds : γ → Prop) :
    routine.Leads (fun state => holds (view state)) fun state => holds (view state) := by
  intro state held
  rw [keeps state]
  exact held

theorem Leads.outcome {routine : Routine σ α} (leads : routine.Leads before after) :
    routine.outcome.Leads before after :=
  leads

theorem Leads.bind {first : Routine σ α} {next : α → Routine σ β}
    (firstLeads : first.Leads before between) (nextLeads : ∀ value, (next value).Leads between after)
    (enough : ∀ state, between state → after state) :
    (first >>= next).Leads before after := by
  intro state held
  have reached := firstLeads state held
  cases result : (first state).1.result with
  | error failure =>
    rw [(bind_of_error result next).2]
    exact enough _ reached
  | ok value =>
    rw [(bind_of_ok result next).2]
    exact nextLeads value _ reached

end Leads

end Routine

end EarlyBoot
