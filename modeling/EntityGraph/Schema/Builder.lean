import EntityGraph.Schema.Basic

/-!
# Building a schema step by step

A builder collects the entities that declare classes and constraints. A constraint gets an
identifier made of its class and a number, one sequence of numbers being shared by the whole
builder; a constraint that is started and never finished uses its number up. Identifiers are
expanded when the schema is built.
-/

namespace EntityGraph

/-- A class under construction. -/
structure ClassDraft where
  entity : Entity
  isAbstract : Bool := false

namespace ClassDraft

/-- A class with nothing but its identifier. -/
def named (id : String) : ClassDraft :=
  { entity := ({ id } : Entity).setReference Vocabulary.rdfType (.one Vocabulary.entityClassType) }

/-- Declares one more parent. The parents move behind all other references. -/
def addParent (d : ClassDraft) (parent : String) : ClassDraft :=
  let slot := match d.entity.reference? Vocabulary.subClassOf with
    | some slot => slot.append parent
    | none => .one parent
  let references := (d.entity.references.erase Vocabulary.subClassOf).insert
    Vocabulary.subClassOf slot
  { d with entity := { d.entity with references } }

/-- Sets a property to one literal. -/
def setProperty (d : ClassDraft) (predicate : String) (value : Literal) : ClassDraft :=
  { d with entity := d.entity.setProperty predicate (.one value) }

/-- Sets a reference to one target. -/
def setReference (d : ClassDraft) (predicate target : String) : ClassDraft :=
  { d with entity := d.entity.setReference predicate (.one target) }

/-- Sets the label. -/
def setLabel (d : ClassDraft) (label : String) : ClassDraft :=
  d.setProperty Vocabulary.label (.string label)

/-- Sets the description. -/
def setDescription (d : ClassDraft) (description : String) : ClassDraft :=
  d.setProperty Vocabulary.description (.string description)

/-- Makes the class abstract. -/
def makeAbstract (d : ClassDraft) : ClassDraft := { d with isAbstract := true }

end ClassDraft

/-- A constraint under construction. -/
structure ConstraintDraft where
  entity : Entity

namespace ConstraintDraft

/-- Replaces the identifier. -/
def withId (d : ConstraintDraft) (id : String) : ConstraintDraft := ⟨{ d.entity with id }⟩

/-- Sets an attribute that names something. -/
def setName (d : ConstraintDraft) (predicate target : String) : ConstraintDraft :=
  ⟨d.entity.setReference predicate (.one target)⟩

/-- Sets an attribute that is a bound. -/
def setBound (d : ConstraintDraft) (predicate : String) (bound : Int) : ConstraintDraft :=
  ⟨d.entity.setProperty predicate (.one (.int bound))⟩

/-- Sets a flag. -/
def setFlag (d : ConstraintDraft) (predicate : String) : ConstraintDraft :=
  ⟨d.entity.setProperty predicate (.one (.bool true))⟩

end ConstraintDraft

/-- The entities of a schema under construction. -/
structure SchemaBuilder where
  namespaces : Namespaces := .standard
  entities : List Entity := []
  /-- The number of the next constraint. -/
  next : Nat := 0

namespace SchemaBuilder

/-- The builder that has been given nothing. -/
def empty : SchemaBuilder := {}

/-- Binds a label. -/
def bind (b : SchemaBuilder) (label expansion : String) : SchemaBuilder :=
  { b with namespaces := b.namespaces.bind label expansion }

/-- Adds an entity as it is. -/
def addEntity (b : SchemaBuilder) (e : Entity) : SchemaBuilder :=
  { b with entities := b.entities ++ [e] }

/-- The identifier of the `n`-th constraint, which belongs to a class. -/
def constraintId (cls : String) (n : Nat) : String := cls ++ "-constraint-" ++ toString n

/-- Starts a constraint of a class. -/
def startConstraint (b : SchemaBuilder) (kind : Constraint.Kind) (cls : String) :
    ConstraintDraft × SchemaBuilder :=
  let e := (({ id := constraintId cls b.next } : Entity).setReference Vocabulary.rdfType
    (.one kind.typeUri)).setReference Vocabulary.entityClass (.one cls)
  (⟨e⟩, { b with next := b.next + 1 })

/-- Adds a finished constraint. -/
def addConstraint (b : SchemaBuilder) (d : ConstraintDraft) : SchemaBuilder :=
  b.addEntity d.entity

/-- Makes a class abstract; gives the identifier of the constraint. -/
def addAbstract (b : SchemaBuilder) (cls : String) : String × SchemaBuilder :=
  let (d, b) := b.startConstraint .isAbstract cls
  (d.entity.id, b.addConstraint d)

/-- Adds a finished class. -/
def addClass (b : SchemaBuilder) (d : ClassDraft) : SchemaBuilder :=
  let b := b.addEntity d.entity
  if d.isAbstract then (b.addAbstract d.entity.id).2 else b

/-- The schema of all that was added, every identifier expanded. -/
def build (b : SchemaBuilder) : Except SchemaError Schema :=
  match (Collection.empty b.namespaces).addAll b.entities with
  | .error e => .error (.entity e)
  | .ok c =>
    match c.expanded with
    | .error e => .error (.entity e)
    | .ok c => .ok (.ofCollection c)

end SchemaBuilder

end EntityGraph
