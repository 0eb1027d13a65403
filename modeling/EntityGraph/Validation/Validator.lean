import EntityGraph.Validation.Check

/-!
# Validators

A validator holds what does not change from run to run: settings, data provider, rules and the
signals that may stop a run. Each entry point makes one run.

Results:
* `flatten_chunks`: the chunks of a list joined are the list.
-/

namespace EntityGraph

/-- A policy for validations. -/
structure Validator (m : Type → Type) where
  settings : Settings := {}
  provider? : Option (Provider m) := none
  rules : RuleRegistry m := .empty
  signals : Signals m

/-- The parts of a list of `size` elements each, the last one of what is left. -/
def chunks {α : Type} (size : Nat) (l : List α) : List (List α) :=
  if _h : size = 0 ∨ l = [] then []
  else l.take size :: chunks size (l.drop size)
termination_by l.length
decreasing_by
  rw [not_or] at _h
  have := List.length_pos_iff.2 _h.2
  rw [List.length_drop]
  omega

namespace Validator

variable {m : Type → Type} [Monad m] [MonadExceptOf ValidationError m]

/-- Begins a run. Related entities cannot be checked without a data provider. -/
def start (v : Validator m) (s : Schema) : m (Run m) := do
  let r : Run m := ⟨s, v.settings, v.provider?, v.rules, v.signals, ← v.signals.now⟩
  if v.settings.related && v.provider?.isNone then throw ValidationError.noDataProvider
  r.proceed
  return r

/-- Validates entities in order. -/
def validateEntities (v : Validator m) (s : Schema) (es : List Entity) : m (List Violation) := do
  (← v.start s).checkEntities es

/-- Validates one entity. -/
def validateEntity (v : Validator m) (s : Schema) (e : Entity) : m (List Violation) :=
  v.validateEntities s [e]

/-- Validates the entities of a collection in order. -/
def validateCollection (v : Validator m) (s : Schema) (c : Collection) : m (List Violation) :=
  v.validateEntities s c.entities

/-- What a computation gives, its failure included. -/
def attempt {α : Type} (x : m α) : m (Except ValidationError α) :=
  tryCatch (do return .ok (← x)) fun e => return .error e

/-- Validates entities in contiguous chunks, one for each worker that is not idle. All chunks are
run; of those that fail the first decides. -/
def validateParallel (v : Validator m) (s : Schema) (es : List Entity) (workers : Nat) :
    m (List Violation) := do
  let workers := max 1 (min workers (max 1 es.length))
  if workers = 1 then v.validateEntities s es
  else
    let r ← v.start s
    let size := (es.length + workers - 1) / workers
    let results ← (chunks size es).mapM fun part => attempt (r.checkEntities part)
    gather (lift id) results

/-- Validates the entities of a dataset, and then the store for instances of abstract classes. -/
def validateDataset (v : Validator m) (s : Schema) (dataset : String) : m (List Violation) := do
  let r ← v.start s
  let p ← r.provider
  let stream ← lift .provider (← p.datasetEntities dataset)
  let found ← gather (fun arrival => do
    let e ← lift .provider arrival
    r.proceed
    r.checkEntity e) stream
  return found ++ (← r.checkStore)

/-- Validates the store: no entity is typed as an abstract class. -/
def validateStore (v : Validator m) (s : Schema) : m (List Violation) := do
  let r ← v.start s
  let _ ← r.provider
  r.checkStore

/-- The validator as it is shown, cancelled or not. -/
def outline (v : Validator m) (cancelled : Bool) : Outline := .record "Validator" [
  ("settings", v.settings.outline),
  ("provider", .bool v.provider?.isSome),
  ("rules", v.rules.outline),
  ("cancellation", .record "CancellationToken" [("cancelled", .bool cancelled)])]

end Validator

/-- The chunks of a list joined are the list. -/
theorem flatten_chunks {α : Type} {size : Nat} (h : size ≠ 0) (l : List α) :
    (chunks size l).flatten = l := by
  fun_induction chunks size l with
  | case1 l h' =>
    rcases h' with h' | h'
    · exact absurd h' h
    · simp [h']
  | case2 l h' ih => simp [ih]

end EntityGraph
