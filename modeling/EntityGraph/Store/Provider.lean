import EntityGraph.Entity.Collection

/-!
# Data providers

A data provider answers three questions about a graph: what is stored under an identifier, what
a dataset holds, and which entities are one step away from an entity. An entity may have a record
in several datasets; merging them lets later records win.

Results:
* `id_merged`: a merged entity has the identifier asked for.
-/

namespace EntityGraph

/-- Why a data provider gives no answer. -/
inductive ProviderError where
  | unknownDataset (name : String)
  /-- A failure of the storage behind the provider. -/
  | backend (reason : String)
  | entity (error : EntityError)
  deriving DecidableEq, Repr

/-- The text of an error. -/
def ProviderError.message : ProviderError → String
  | .unknownDataset name => "Unknown dataset: " ++ name
  | .backend reason => "Data provider backend failure: " ++ reason
  | .entity error => error.message

/-- The record of an entity in one dataset. -/
structure Record where
  dataset : String
  entity : Entity
  deriving DecidableEq, Inhabited

/-- An entity as it is seen across all datasets with a record of it. -/
structure StoredEntity where
  id : String
  records : List Record
  deriving DecidableEq, Inhabited

/-- Whether a dataset belongs to a context. The empty context holds every dataset. -/
def inContext (context : List String) (dataset : String) : Bool :=
  context.isEmpty || decide (dataset ∈ context)

namespace StoredEntity

/-- The records from datasets of the context. -/
def recordsIn (s : StoredEntity) (context : List String) : List Record :=
  s.records.filter fun r => inContext context r.dataset

/-- One entity out of all records: of two slots at one predicate the later record's wins. -/
def merged (s : StoredEntity) : Entity where
  id := s.id
  properties := .ofList (s.records.flatMap fun r => r.entity.properties.toList)
  references := .ofList (s.records.flatMap fun r => r.entity.references.toList)

@[simp] theorem id_merged (s : StoredEntity) : s.merged.id = s.id := rfl

end StoredEntity

/-- Entities that are delivered one after another; an entity may fail to arrive. -/
abbrev EntityStream := List (Except ProviderError Entity)

/-- Access to a graph by computations in the monad `m`. -/
structure Provider (m : Type → Type) where
  /-- What is stored under a canonical identifier. -/
  getEntity : (id : String) → m (Except ProviderError (Option StoredEntity))
  /-- The records of a dataset. -/
  datasetEntities : (dataset : String) → m (Except ProviderError EntityStream)
  /-- The entities that `source` refers to through `predicate`, or with `inverse` those that refer
  to it, at most `limit` of them. -/
  hop : (source predicate : String) → (inverse : Bool) → (limit : Option Nat) →
    m (Except ProviderError EntityStream)

end EntityGraph
