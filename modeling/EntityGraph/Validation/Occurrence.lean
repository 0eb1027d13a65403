import EntityGraph.Schema.Basic
import EntityGraph.Validation.Violation

/-!
# Occurrences

How often a predicate occurs in an entity, held against the bounds of a constraint, and whether
the predicates of an entity are declared at all. A predicate is found under its own spelling or
else under the first that denotes the same.
-/

namespace EntityGraph

/-- The slot at a predicate, or else at the first predicate that denotes the same. -/
def OrderedMap.getSame? {α : Type} (ns : Namespaces) (slots : OrderedMap String α)
    (predicate : String) : Option α :=
  (slots.get? predicate).or
    ((slots.toList.find? fun e => ns.same e.1 predicate).map Prod.snd)

/-- The number of values at a property. -/
def Entity.propertyCountAt (e : Entity) (ns : Namespaces) (predicate : String) : Nat :=
  ((e.properties.getSame? ns predicate).map Slot.count).getD 0

/-- The targets at a reference. -/
def Entity.targetsAt (e : Entity) (ns : Namespaces) (predicate : String) : List String :=
  ((e.references.getSame? ns predicate).map Slot.toList).getD []

namespace Violation

/-- What occurs too rarely or too often: values or references. -/
structure Occurrence where
  noun : String
  tooFew : Kind
  tooMany : Kind

/-- The values of a property. -/
def Occurrence.ofProperty : Occurrence where
  noun := "value(s)"
  tooFew := .minPropertyOccurrenceNotMet
  tooMany := .maxPropertyOccurrenceExceeded

/-- The targets of a reference. -/
def Occurrence.ofReference : Occurrence where
  noun := "reference(s)"
  tooFew := .minReferenceOccurrenceNotMet
  tooMany := .maxReferenceOccurrenceExceeded

/-- The violations of bounds by a count. -/
def occurrences (o : Occurrence) (c : Constraint) (e : Entity) (predicate : String)
    (bounds : Cardinality) (count : Nat) : List Violation :=
  let found := e.id ++ " has " ++ toString count ++ " " ++ o.noun ++ " for " ++ predicate
  (if bounds.isBelow count then
    [.of c e o.tooFew (found ++ ", expected at least " ++ toString bounds.min)] else []) ++
  (if bounds.isAbove count then
    [.of c e o.tooMany (found ++ ", expected " ++ bounds.display)] else [])

/-- The predicates of an entity that no constraint of the schema declares. -/
def undeclared (s : Schema) (e : Entity) : List Violation :=
  ((e.properties.keys.filter fun p => !s.declaresProperty p).map fun p =>
    ⟨.undeclaredProperty, e.id ++ " has undeclared property " ++ p, none, some e⟩) ++
  ((e.references.keys.filter fun p => !s.declaresReference p).map fun p =>
    ⟨.undeclaredReference, e.id ++ " has undeclared reference " ++ p, none, some e⟩)

end Violation

end EntityGraph
