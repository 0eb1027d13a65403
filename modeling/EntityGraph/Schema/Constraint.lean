import EntityGraph.Schema.Cardinality

/-!
# Classes and constraints

Every definition of a schema is the entity that declares it. Its attributes are read on demand,
and so a constraint that lacks one is reported only when something asks for it.
-/

namespace EntityGraph

/-- A class definition. -/
structure EntityClass where
  entity : Entity
  deriving DecidableEq, Inhabited

namespace EntityClass

/-- The identifier of the class. -/
def id (c : EntityClass) : String := c.entity.id

/-- The label of the class. -/
def label? (c : EntityClass) : Option String := c.entity.firstString? Vocabulary.label

/-- The description of the class. -/
def description? (c : EntityClass) : Option String := c.entity.firstString? Vocabulary.description

/-- The declared parents, in order. -/
def parents (c : EntityClass) : List String := c.entity.referenceValues Vocabulary.subClassOf

/-- The parent that the hierarchy follows: the first declared one. -/
def parent? (c : EntityClass) : Option String := c.entity.firstReference? Vocabulary.subClassOf

end EntityClass

/-- What a constraint is about. -/
inductive Constraint.Kind where
  /-- Occurrences of a property. -/
  | property
  /-- Occurrences and targets of a reference. -/
  | reference
  /-- A class without instances of its own. -/
  | isAbstract
  /-- A rule of the application. -/
  | application
  deriving DecidableEq, Repr, Inhabited

namespace Constraint.Kind

/-- The kinds, in the order in which an entity is classified. -/
def all : List Kind := [property, reference, isAbstract, application]

/-- The entity type that declares a kind. -/
def typeUri : Kind → String
  | property => Vocabulary.propertyConstraintType
  | reference => Vocabulary.referenceConstraintType
  | isAbstract => Vocabulary.abstractConstraintType
  | application => Vocabulary.applicationConstraintType

/-- The kind that an entity type declares. -/
def ofTypeUri? (uri : String) : Option Kind := all.find? fun k => k.typeUri == uri

/-- The name of a kind. -/
def name : Kind → String
  | property => "Property"
  | reference => "Reference"
  | isAbstract => "IsAbstract"
  | application => "Application"

end Constraint.Kind

/-- A constraint definition. -/
structure Constraint where
  kind : Constraint.Kind
  entity : Entity
  deriving DecidableEq, Inhabited

namespace Constraint

/-- The identifier of the constraint. -/
def id (c : Constraint) : String := c.entity.id

/-- The class that the constraint belongs to. -/
def entityClass? (c : Constraint) : Option String := c.entity.firstReference? Vocabulary.entityClass

/-- The class that the constraint belongs to, which it has to name. -/
def entityClass (c : Constraint) : Except SchemaError String :=
  match c.entityClass? with
  | some cls => .ok cls
  | none => .error (.missingAttribute c.id "entityClass")

/-- The target at a predicate or else the text there. -/
def name? (c : Constraint) (predicate : String) : Option String :=
  (c.entity.firstReference? predicate).or (c.entity.firstString? predicate)

/-- The constrained property. -/
def propertyClass (c : Constraint) : Except SchemaError String :=
  match c.name? Vocabulary.propertyClass with
  | some p => .ok p
  | none => .error (.missingAttribute c.id "propertyClass")

/-- The constrained reference. -/
def referenceClass (c : Constraint) : Except SchemaError String :=
  match c.entity.firstReference? Vocabulary.referenceClass with
  | some p => .ok p
  | none => .error (.missingAttribute c.id "referenceClass")

/-- The datatype of a property constraint. -/
def datatype (c : Constraint) : String :=
  (c.name? Vocabulary.datatype).getD Vocabulary.anyDatatype

/-- Whether a flag is set. -/
def flag (c : Constraint) (predicate : String) : Bool := (c.entity.firstBool? predicate).getD false

/-- The class that every target has to belong to. -/
def referencedEntityClass? (c : Constraint) : Option String :=
  c.entity.firstReference? Vocabulary.referencedEntityClass

/-- The name of the reference as seen from its target. -/
def inverseReferenceClass? (c : Constraint) : Option String :=
  c.entity.firstReference? Vocabulary.inverseReferenceClass

/-- The bounds declared at two predicates. -/
def bounds (c : Constraint) (min max : String) : Except SchemaError Cardinality :=
  Cardinality.ofDeclared c.id (c.entity.firstInt? min) (c.entity.firstInt? max)

/-- The bounds on the occurrences of the predicate. -/
def cardinality (c : Constraint) : Except SchemaError Cardinality :=
  c.bounds Vocabulary.minCard Vocabulary.maxCard

/-- The bounds on the number of referrers. -/
def inverseCardinality (c : Constraint) : Except SchemaError Cardinality :=
  c.bounds Vocabulary.inverseMinCard Vocabulary.inverseMaxCard

/-- The rule of an application constraint. -/
def rule? (c : Constraint) : Option String := c.name? Vocabulary.rule

/-- Whether `candidate` denotes the rule of the constraint. -/
def matchesRule (c : Constraint) (ns : Namespaces) (candidate : String) : Bool :=
  c.rule?.any fun rule => ns.same rule candidate

end Constraint

end EntityGraph
