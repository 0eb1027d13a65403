import EntityGraph.Schema.Basic
import EntityGraph.Store.Provider
import EntityGraph.Validation.Settings

/-!
# Rules of the application

An application constraint names a rule, and an evaluator registered under that name decides it.
Evaluators run in the monad of the validation, so that they may ask the data provider and fail.
-/

namespace EntityGraph

/-- What the evaluator of a rule sees besides the entity. -/
structure RuleContext (m : Type → Type) where
  schema : Schema
  constraint : Constraint
  settings : Settings
  provider? : Option (Provider m)

/-- The evaluator of a rule: it gives the message of a violation, or none if the entity passes. -/
abbrev Rule (m : Type → Type) := RuleContext m → Entity → m (Option String)

/-- Evaluators by the identifier of their rule, the one registered last in front. -/
structure RuleRegistry (m : Type → Type) where
  entries : List (String × Rule m) := []

namespace RuleRegistry

variable {m : Type → Type}

/-- The registry without evaluators. -/
def empty : RuleRegistry m := {}

/-- Registers an evaluator. -/
def register (registry : RuleRegistry m) (id : String) (rule : Rule m) : RuleRegistry m :=
  ⟨(id, rule) :: registry.entries⟩

/-- The number of evaluators. -/
def size (registry : RuleRegistry m) : Nat := registry.entries.length

/-- The identifiers, the one registered last in front. -/
def ids (registry : RuleRegistry m) : List String := registry.entries.map Prod.fst

/-- The evaluator whose identifier denotes the rule of a constraint. -/
def find? (registry : RuleRegistry m) (ns : Namespaces) (c : Constraint) : Option (Rule m) :=
  (registry.entries.find? fun e => c.matchesRule ns e.1).map Prod.snd

/-- The registry as it is shown. -/
def outline (registry : RuleRegistry m) : Outline := .texts registry.ids

end RuleRegistry

end EntityGraph
