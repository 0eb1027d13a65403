import EntityGraph.Entity.Slot
import EntityGraph.Namespaces

/-!
# Entities

An entity is a node of the graph: an identifier, properties that hold literals and references
that hold identifiers of other entities, both in order of insertion.

Expanding an entity rewrites its identifier, then its properties, then its references. When an
identifier on the way has no expansion, what was rewritten before stays rewritten, and the table
under work is left empty.

Results:
* `error?_expand_eq_none_iff`: an expansion completes exactly if its three parts do.
-/

namespace EntityGraph

/-- A node of the graph. -/
structure Entity where
  id : String
  properties : OrderedMap String (Slot Literal) := ∅
  references : OrderedMap String (Slot String) := ∅
  /-- Whether the record marks its entity as removed. -/
  deleted : Bool := false
  deriving DecidableEq, Inhabited

/-- What a rewriting leaves behind: the value as far as it was rewritten, and what stopped it. -/
structure Rewritten (ε α : Type) where
  value : α
  error? : Option ε

namespace Entity

/-- Stores a property slot, replacing the one at the predicate. -/
def setProperty (e : Entity) (predicate : String) (slot : Slot Literal) : Entity :=
  { e with properties := e.properties.insert predicate slot }

/-- Stores a reference slot, replacing the one at the predicate. -/
def setReference (e : Entity) (predicate : String) (slot : Slot String) : Entity :=
  { e with references := e.references.insert predicate slot }

/-- The property slot at a predicate. -/
def property? (e : Entity) (predicate : String) : Option (Slot Literal) :=
  e.properties.get? predicate

/-- The reference slot at a predicate. -/
def reference? (e : Entity) (predicate : String) : Option (Slot String) :=
  e.references.get? predicate

/-- The first literal at a predicate. -/
def firstProperty? (e : Entity) (predicate : String) : Option Literal :=
  (e.property? predicate).bind Slot.first?

/-- The first literal at a predicate, if it is a string. -/
def firstString? (e : Entity) (predicate : String) : Option String :=
  (e.firstProperty? predicate).bind Literal.string?

/-- The first literal at a predicate, if it has an integer value. -/
def firstInt? (e : Entity) (predicate : String) : Option Int :=
  (e.firstProperty? predicate).bind Literal.int?

/-- The first literal at a predicate, if it is a boolean. -/
def firstBool? (e : Entity) (predicate : String) : Option Bool :=
  (e.firstProperty? predicate).bind Literal.bool?

/-- The first target at a predicate. -/
def firstReference? (e : Entity) (predicate : String) : Option String :=
  (e.reference? predicate).bind Slot.first?

/-- The targets at a predicate, in order. -/
def referenceValues (e : Entity) (predicate : String) : List String :=
  (e.reference? predicate).elim [] Slot.toList

/-- The number of literals at a predicate. -/
def propertyCount (e : Entity) (predicate : String) : Nat :=
  (e.property? predicate).elim 0 Slot.count

/-- The number of targets at a predicate. -/
def referenceCount (e : Entity) (predicate : String) : Nat :=
  (e.reference? predicate).elim 0 Slot.count

/-- The declared types, in order. -/
def types (e : Entity) : List String := e.referenceValues Vocabulary.rdfType

/-- Whether a type is among the declared ones, as written. -/
def isOfType (e : Entity) (type : String) : Bool := decide (type ∈ e.types)

/-! ## Expansion -/

/-- The properties under expanded predicates. When two predicates expand alike, the first gives
the place and the last the slot. -/
def expandProperties (ns : Namespaces) (m : OrderedMap String (Slot Literal)) :
    Except UnknownLabel (OrderedMap String (Slot Literal)) :=
  m.toList.foldlM (fun acc e => do return acc.insert (← ns.expand e.1) e.2) ∅

/-- The references with expanded targets under expanded predicates. -/
def expandReferences (ns : Namespaces) (m : OrderedMap String (Slot String)) :
    Except UnknownLabel (OrderedMap String (Slot String)) :=
  m.toList.foldlM (fun acc e => do
    let targets ← e.2.mapE ns.expand
    return acc.insert (← ns.expand e.1) targets) ∅

/-- Rewrites the identifier, the properties and the references into expanded form. -/
def expand (ns : Namespaces) (e : Entity) : Rewritten UnknownLabel Entity :=
  match ns.expand e.id with
  | .error err => ⟨e, some err⟩
  | .ok id =>
    match expandProperties ns e.properties with
    | .error err => ⟨{ e with id, properties := ∅ }, some err⟩
    | .ok properties =>
      match expandReferences ns e.references with
      | .error err => ⟨{ e with id, properties, references := ∅ }, some err⟩
      | .ok references => ⟨{ e with id, properties, references }, none⟩

/-- An expansion completes exactly if its three parts do, and then it holds their results. -/
theorem error?_expand_eq_none_iff {ns : Namespaces} {e : Entity} :
    (e.expand ns).error? = none ↔
      ∃ id properties references, ns.expand e.id = .ok id ∧
        expandProperties ns e.properties = .ok properties ∧
        expandReferences ns e.references = .ok references ∧
        (e.expand ns).value = { e with id, properties, references } := by
  unfold expand
  cases ns.expand e.id with
  | error err => simp
  | ok id =>
    cases expandProperties ns e.properties with
    | error err => simp
    | ok properties =>
      cases expandReferences ns e.references with
      | error err => simp
      | ok references => simp

end Entity

end EntityGraph
