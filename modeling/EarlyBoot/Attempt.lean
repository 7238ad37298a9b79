import EarlyBoot.Failure
import EarlyBoot.Log

set_option autoImplicit false

namespace EarlyBoot

structure Attempt (α : Type) where
  result : Except Failure α
  records : List Log.Record

namespace Attempt

def fail {α : Type} (failure : Failure) : Attempt α :=
  ⟨.error failure, []⟩

def log (level : Log.Level) (origin : Log.Origin) (text : String) : Attempt Unit :=
  ⟨.ok (), [⟨level, origin, text⟩]⟩

def andThen {α β : Type} (first : Attempt α) (next : α → Attempt β) : Attempt β :=
  match first.result with
  | .error failure => ⟨.error failure, first.records⟩
  | .ok value => ⟨(next value).result, first.records ++ (next value).records⟩

instance : Monad Attempt where
  pure value := ⟨.ok value, []⟩
  bind := andThen

@[simp]
theorem result_pure {α : Type} (value : α) : (pure value : Attempt α).result = .ok value := rfl

@[simp]
theorem result_bind {α β : Type} (first : Attempt α) (next : α → Attempt β) :
    (first >>= next).result = first.result >>= fun value => (next value).result := by
  change (first.andThen next).result = _
  unfold andThen
  cases first.result <;> rfl

@[simp]
theorem result_log (level : Log.Level) (origin : Log.Origin) (text : String) :
    (log level origin text).result = .ok () := rfl

@[simp]
theorem result_fail {α : Type} (failure : Failure) :
    (fail failure : Attempt α).result = .error failure := rfl

end Attempt

/-- A computation on a state that ends well or badly, and logs in either case. -/
def Routine (σ α : Type) : Type :=
  σ → Attempt α × σ

namespace Routine

def andThen {σ α β : Type} (first : Routine σ α) (next : α → Routine σ β) : Routine σ β :=
  fun state =>
    let (attempt, after) := first state
    match attempt.result with
    | .error failure => (⟨.error failure, attempt.records⟩, after)
    | .ok value =>
      let (second, last) := next value after
      (⟨second.result, attempt.records ++ second.records⟩, last)

instance {σ : Type} : Monad (Routine σ) where
  pure value state := (pure value, state)
  bind := andThen

def ofAttempt {σ α : Type} (attempt : Attempt α) : Routine σ α := fun state =>
  (attempt, state)

def log {σ : Type} (level : Log.Level) (origin : Log.Origin) (text : String) : Routine σ Unit :=
  ofAttempt (.log level origin text)

def fail {σ α : Type} (failure : Failure) : Routine σ α :=
  ofAttempt (.fail failure)

def get {σ : Type} : Routine σ σ := fun state =>
  (pure state, state)

def set {σ : Type} (state : σ) : Routine σ Unit := fun _ =>
  (pure (), state)

/-- A routine on a part of a state. -/
def on {σ τ α : Type} (part : σ → τ) (replace : σ → τ → σ) (routine : Routine τ α) :
    Routine σ α := fun state =>
  let (attempt, after) := routine (part state)
  (attempt, replace state after)

/-- A routine on a state of its own, which is part of the value. -/
def within {σ τ α : Type} (start : τ) (routine : Routine τ α) : Routine σ (α × τ) := fun state =>
  let (attempt, after) := routine start
  (⟨attempt.result.map fun value => (value, after), attempt.records⟩, state)

/-- The outcome of a routine as a value, so that what follows runs in any case. -/
def outcome {σ α : Type} (routine : Routine σ α) : Routine σ (Except Failure α) := fun state =>
  let (attempt, after) := routine state
  (⟨.ok attempt.result, attempt.records⟩, after)

end Routine

end EarlyBoot
