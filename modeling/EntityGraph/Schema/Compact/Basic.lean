import EntityGraph.Schema.Builder

/-!
# Compact schema documents

A compact document binds namespaces and then lists class blocks, each with the constraints of its
class inside. It stands for one entity per class and one per constraint: the class, then its
abstractness, its property constraints, its reference constraints and its application
constraints, in this order.
-/

namespace EntityGraph.Compact

/-- A constraint on a property of the enclosing class. -/
structure PropertyBlock where
  propertyClass : Option String := none
  datatype : Option String := none
  min : Option Int := none
  max : Option Int := none
  sortable : Bool := false
  queryable : Bool := false
  isUnique : Bool := false
  deriving DecidableEq

/-- A constraint on a reference of the enclosing class. -/
structure ReferenceBlock where
  referenceClass : Option String := none
  referencedEntityClass : Option String := none
  min : Option Int := none
  max : Option Int := none
  inverseReferenceClass : Option String := none
  inverseMin : Option Int := none
  inverseMax : Option Int := none
  deriving DecidableEq

/-- A rule of the application for the enclosing class. -/
structure ApplicationBlock where
  rule : Option String := none
  deriving DecidableEq

/-- A class with its constraints. -/
structure ClassBlock where
  id : String
  superclasses : List String := []
  label : Option String := none
  description : Option String := none
  isAbstract : Bool := false
  /-- Further properties and references of the class. -/
  props : OrderedMap String Literal := ∅
  refs : OrderedMap String String := ∅
  propertyConstraints : List PropertyBlock := []
  referenceConstraints : List ReferenceBlock := []
  applicationConstraints : List ApplicationBlock := []
  deriving DecidableEq

/-- Namespaces and class blocks. -/
structure Document where
  namespaces : OrderedMap String String := ∅
  classes : List ClassBlock := []
  deriving DecidableEq

/-- Sets an attribute that names something, if it is given. -/
def nameIf (d : ConstraintDraft) (predicate : String) (target : Option String) : ConstraintDraft :=
  target.elim d (d.setName predicate)

/-- Sets an attribute that is a bound, if it is given. -/
def boundIf (d : ConstraintDraft) (predicate : String) (bound : Option Int) : ConstraintDraft :=
  bound.elim d (d.setBound predicate)

/-- Sets a flag, if it is raised. -/
def flagIf (d : ConstraintDraft) (predicate : String) (raised : Bool) : ConstraintDraft :=
  if raised then d.setFlag predicate else d

/-- Writes the attributes of a property constraint. -/
def PropertyBlock.fill (b : PropertyBlock) (d : ConstraintDraft) : ConstraintDraft :=
  let d := nameIf d Vocabulary.propertyClass b.propertyClass
  let d := nameIf d Vocabulary.datatype b.datatype
  let d := boundIf d Vocabulary.minCard b.min
  let d := boundIf d Vocabulary.maxCard b.max
  let d := flagIf d Vocabulary.sortable b.sortable
  let d := flagIf d Vocabulary.queryable b.queryable
  flagIf d Vocabulary.isUnique b.isUnique

/-- Writes the attributes of a reference constraint. -/
def ReferenceBlock.fill (b : ReferenceBlock) (d : ConstraintDraft) : ConstraintDraft :=
  let d := nameIf d Vocabulary.referenceClass b.referenceClass
  let d := nameIf d Vocabulary.referencedEntityClass b.referencedEntityClass
  let d := boundIf d Vocabulary.minCard b.min
  let d := boundIf d Vocabulary.maxCard b.max
  let d := nameIf d Vocabulary.inverseReferenceClass b.inverseReferenceClass
  let d := boundIf d Vocabulary.inverseMinCard b.inverseMin
  boundIf d Vocabulary.inverseMaxCard b.inverseMax

/-- Writes the attributes of an application constraint. -/
def ApplicationBlock.fill (b : ApplicationBlock) (d : ConstraintDraft) : ConstraintDraft :=
  nameIf d Vocabulary.rule b.rule

namespace ClassBlock

/-- The class of a block, without its constraints. -/
def draft (b : ClassBlock) : ClassDraft :=
  let d := b.superclasses.foldl ClassDraft.addParent (.named b.id)
  let d := b.label.elim d d.setLabel
  let d := b.description.elim d d.setDescription
  let d := b.props.toList.foldl (fun d (p, v) => d.setProperty p v) d
  let d := b.refs.toList.foldl (fun d (p, t) => d.setReference p t) d
  if b.isAbstract then d.makeAbstract else d

/-- The constraints of a block, abstractness apart: their kinds and attributes. -/
def constraints (b : ClassBlock) :
    List (Constraint.Kind × (ConstraintDraft → ConstraintDraft)) :=
  (b.propertyConstraints.map fun c => (.property, c.fill)) ++
    (b.referenceConstraints.map fun c => (.reference, c.fill)) ++
    (b.applicationConstraints.map fun c => (.application, c.fill))

/-- Adds the class and the constraints of a block. -/
def addTo (builder : SchemaBuilder) (b : ClassBlock) : SchemaBuilder :=
  b.constraints.foldl (fun builder (kind, fill) =>
    let (d, builder) := builder.startConstraint kind b.id
    builder.addConstraint (fill d)) (builder.addClass b.draft)

end ClassBlock

namespace Document

/-- The builder that was given all blocks of a document. -/
def builder (doc : Document) : SchemaBuilder :=
  doc.classes.foldl ClassBlock.addTo
    (doc.namespaces.toList.foldl (fun b (label, expansion) => b.bind label expansion) .empty)

/-- The schema that a document stands for. -/
def schema (doc : Document) : Except SchemaError Schema := doc.builder.build

end Document

end EntityGraph.Compact
