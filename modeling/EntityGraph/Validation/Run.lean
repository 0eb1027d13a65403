import EntityGraph.Validation.Error
import EntityGraph.Validation.Rule
import EntityGraph.Validation.Violation

/-!
# Runs

A run of a validation has a schema to check against and may ask a data provider. It stops when it
is cancelled or its time is up; whether it is so is looked at between steps and before every
question to the provider. Everything effectful happens in the monad of the run.

Results:
* `proceed_of_quiet`: a run that nothing stops and whose limit is not zero goes on.
-/

namespace EntityGraph

/-- What a run perceives of the world: whether it is cancelled, and the time in milliseconds. -/
structure Signals (m : Type → Type) where
  cancelled : m Bool
  now : m Nat

/-- The world in which nothing is cancelled and no time passes. -/
def Signals.quiet {m : Type → Type} [Pure m] : Signals m := ⟨pure false, pure 0⟩

/-- A run of a validation. -/
structure Run (m : Type → Type) where
  schema : Schema
  settings : Settings := {}
  provider? : Option (Provider m) := none
  rules : RuleRegistry m := .empty
  signals : Signals m
  /-- The time at which the run began. -/
  started : Nat := 0

section

variable {m : Type → Type} [Monad m]

/-- What each element gives, one after another. -/
def gather {α β : Type} (f : α → m (List β)) : List α → m (List β)
  | [] => pure []
  | a :: rest => do
    let first ← f a
    let others ← gather f rest
    return first ++ others

variable [MonadExceptOf ValidationError m]

/-- A result of another part of the library, its error turned into an error of the run. -/
def lift {ε α : Type} (wrap : ε → ValidationError) : Except ε α → m α
  | .ok a => pure a
  | .error e => throw (wrap e)

namespace Run

/-- Goes on unless the run is cancelled or its time is up. -/
def proceed (r : Run m) : m Unit := do
  if ← r.signals.cancelled then throw ValidationError.cancelled
  match r.settings.timeoutMs with
  | none => pure ()
  | some limit =>
    if limit ≤ (← r.signals.now) - r.started then throw ValidationError.timedOut

/-- The data provider, which has to be there. -/
def provider (r : Run m) : m (Provider m) :=
  match r.provider? with
  | some p => pure p
  | none => throw ValidationError.noDataProvider

/-- What is stored under an identifier. -/
def stored? (r : Run m) (id : String) : m (Option StoredEntity) := do
  let p ← r.provider
  lift .provider (← p.getEntity (r.schema.namespaces.canonical id))

/-- The entities that refer to `target` through a predicate. -/
def referrers (r : Run m) (target predicate : String) (limit : Option Nat) : m EntityStream := do
  let p ← r.provider
  lift .provider (← p.hop (r.schema.namespaces.canonical target) predicate true limit)

end Run

end

/-- A run that nothing stops and whose limit is not zero goes on. -/
theorem Run.proceed_of_quiet {r : Run (Except ValidationError)} (hs : r.signals = .quiet)
    (ht : r.settings.timeoutMs ≠ some 0) : r.proceed = .ok () := by
  unfold Run.proceed
  rw [hs]
  cases h : r.settings.timeoutMs with
  | none => rfl
  | some limit =>
    have : ¬ limit ≤ 0 - r.started := by
      rw [h] at ht
      intro hle
      exact ht (by rw [show limit = 0 by omega])
    simp only [Signals.quiet, pure, Except.pure, bind, Except.bind, if_neg this]
    rfl

end EntityGraph
