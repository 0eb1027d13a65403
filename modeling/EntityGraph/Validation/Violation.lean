import EntityGraph.Json.Writer
import EntityGraph.Schema.Constraint

/-!
# Violations

A violation says which rule an entity breaks. It carries the constraint it was found by, which
violations of the closed world lack, and the entity, which violations of the whole store lack. A
finding is a violation reduced to identifiers, as it stands in reports.
-/

namespace EntityGraph

/-- The rule that a violation is about. -/
inductive Violation.Kind where
  | minPropertyOccurrenceNotMet
  | maxPropertyOccurrenceExceeded
  | minReferenceOccurrenceNotMet
  | maxReferenceOccurrenceExceeded
  | minInverseReferenceOccurrenceNotMet
  | maxInverseReferenceOccurrenceExceeded
  | referenceNotFound
  | referenceTypeMismatch
  | abstractEntityClassViolation
  | undeclaredProperty
  | undeclaredReference
  | applicationRuleViolation
  deriving DecidableEq, Repr, Inhabited

namespace Violation.Kind

/-- The kinds in order. -/
def all : List Kind := [
  minPropertyOccurrenceNotMet, maxPropertyOccurrenceExceeded, minReferenceOccurrenceNotMet,
  maxReferenceOccurrenceExceeded, minInverseReferenceOccurrenceNotMet,
  maxInverseReferenceOccurrenceExceeded, referenceNotFound, referenceTypeMismatch,
  abstractEntityClassViolation, undeclaredProperty, undeclaredReference, applicationRuleViolation]

/-- The name of a kind. -/
def name : Kind → String
  | minPropertyOccurrenceNotMet => "MinPropertyOccurrenceNotMet"
  | maxPropertyOccurrenceExceeded => "MaxPropertyOccurrenceExceeded"
  | minReferenceOccurrenceNotMet => "MinReferenceOccurrenceNotMet"
  | maxReferenceOccurrenceExceeded => "MaxReferenceOccurrenceExceeded"
  | minInverseReferenceOccurrenceNotMet => "MinInverseReferenceOccurrenceNotMet"
  | maxInverseReferenceOccurrenceExceeded => "MaxInverseReferenceOccurrenceExceeded"
  | referenceNotFound => "ReferenceNotFound"
  | referenceTypeMismatch => "ReferenceTypeMismatch"
  | abstractEntityClassViolation => "AbstractEntityClassViolation"
  | undeclaredProperty => "UndeclaredProperty"
  | undeclaredReference => "UndeclaredReference"
  | applicationRuleViolation => "ApplicationRuleViolation"

/-- The kind of a name. -/
def ofName? (name : String) : Option Kind := all.find? fun k => k.name == name

end Violation.Kind

/-- A violation reduced to identifiers. -/
structure Finding where
  kind : Violation.Kind
  /-- The identifier of the violated constraint. -/
  constraint : Option String
  /-- The identifier of the entity. -/
  entity : Option String
  message : String
  deriving DecidableEq, Repr, Inhabited

namespace Finding

/-- The members of a text that may be absent. -/
def optionalMember (name : String) (value : Option String) : List (String × Json) :=
  (value.map fun s => (name, Json.string s)).toList

/-- The finding as a JSON object. What is absent has no member. -/
def toJson (f : Finding) : Json := .object (
  ("kind", .string f.kind.name) :: optionalMember "constraint" f.constraint ++
    optionalMember "entity" f.entity ++ [("message", .string f.message)])

/-- The finding on one line. -/
def display (f : Finding) : String := f.kind.name ++ ": " ++ f.message

end Finding

/-- A rule that is broken. -/
structure Violation where
  kind : Violation.Kind
  message : String
  /-- The violated constraint, if the rule belongs to one. -/
  constraint : Option Constraint := none
  /-- The entity that breaks the rule, if it is a single one. -/
  entity : Option Entity := none
  deriving DecidableEq, Inhabited

namespace Violation

/-- The violation of a constraint by an entity. -/
def of (constraint : Constraint) (entity : Entity) (kind : Kind) (message : String) : Violation :=
  ⟨kind, message, some constraint, some entity⟩

/-- The violation reduced to identifiers. -/
def finding (v : Violation) : Finding :=
  ⟨v.kind, v.constraint.map (·.id), v.entity.map (·.id), v.message⟩

/-- The violation on one line. -/
def display (v : Violation) : String := v.finding.display

/-- The violations of one kind. -/
def ofKind (kind : Kind) (vs : List Violation) : List Violation :=
  vs.filter fun v => v.kind == kind

/-- The number of violations of each kind there is, in the order of the kinds. -/
def countByKind (vs : List Violation) : List (Kind × Nat) :=
  (Kind.all.map fun k => (k, (ofKind k vs).length)).filter fun e => e.2 != 0

/-- The report of violations as indented JSON. -/
def report (vs : List Violation) : String :=
  (Json.array (vs.map fun v => v.finding.toJson)).indented

end Violation

end EntityGraph
