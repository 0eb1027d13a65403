import EntityGraph.Validation.Related

/-!
# Checking an entity

An entity is held against the constraints of each type it declares and of the ancestors of that
type. An entity without types breaks nothing.

Results:
* `checkEntity_of_types_nil`: an entity without types breaks nothing.
-/

namespace EntityGraph

namespace Run

variable {m : Type → Type} [Monad m] [MonadExceptOf ValidationError m]

/-- Holds the values of a property against a constraint. -/
def checkProperty (r : Run m) (c : Constraint) (e : Entity) : m (List Violation) := do
  let predicate ← lift .schema c.propertyClass
  let bounds ← lift .schema c.cardinality
  return Violation.occurrences .ofProperty c e predicate bounds
    (e.propertyCountAt r.schema.namespaces predicate)

/-- Holds the targets of a reference against a constraint, their number first. -/
def checkReference (r : Run m) (c : Constraint) (e : Entity) : m (List Violation) := do
  let predicate ← lift .schema c.referenceClass
  let bounds ← lift .schema c.cardinality
  let targets := e.targetsAt r.schema.namespaces predicate
  let counted := Violation.occurrences .ofReference c e predicate bounds targets.length
  if r.settings.related then return counted ++ (← gather (r.checkTarget c e) targets)
  else return counted

/-- Whether a class is declared by an entity directly, although it has to be abstract. -/
def checkAbstract (r : Run m) (c : Constraint) (e : Entity) : m (List Violation) := do
  let cls ← lift .schema c.entityClass
  if e.types.any fun type => r.schema.namespaces.same type cls then
    return [.of c e .abstractEntityClassViolation
      (e.id ++ " is directly typed as abstract class " ++ cls)]
  else return []

/-- Asks the evaluator of a rule; a rule without evaluator is passed. -/
def checkRule (r : Run m) (c : Constraint) (e : Entity) : m (List Violation) := do
  match r.rules.find? r.schema.namespaces c with
  | none => return []
  | some rule =>
    match ← rule ⟨r.schema, c, r.settings, r.provider?⟩ e with
    | some message => return [.of c e .applicationRuleViolation message]
    | none => return []

/-- Holds an entity against a constraint. -/
def checkConstraint (r : Run m) (e : Entity) (c : Constraint) : m (List Violation) :=
  match c.kind with
  | .property => r.checkProperty c e
  | .reference => r.checkReference c e
  | .isAbstract => r.checkAbstract c e
  | .application => r.checkRule c e

/-- Holds an entity against the constraints of one of its types. -/
def checkType (r : Run m) (e : Entity) (type : String) : m (List Violation) := do
  let own ← gather (r.checkConstraint e) (← lift .schema (r.schema.constraintsFor type true))
  if r.settings.related then
    let inverse ← lift .schema (r.schema.inverseConstraintsFor type true)
    return own ++ (← gather (r.checkInverse · e) inverse)
  else return own

/-- Holds an entity against all constraints that apply to it. -/
def checkEntity (r : Run m) (e : Entity) : m (List Violation) := do
  if e.types.isEmpty then return []
  let undeclared := if r.settings.strict then Violation.undeclared r.schema e else []
  return undeclared ++ (← gather (r.checkType e) e.types)

/-- Checks entities in order, unless the run is stopped between two of them. -/
def checkEntities (r : Run m) (es : List Entity) : m (List Violation) :=
  gather (fun e => do r.proceed; r.checkEntity e) es

/-- Looks for an entity of the store that is typed as an abstract class. -/
def checkAbstractClass (r : Run m) (c : Constraint) : m (List Violation) := do
  let cls ← lift .schema c.entityClass
  r.proceed
  match (← r.referrers cls Vocabulary.rdfType (some 1)).head? with
  | none => return []
  | some arrival => do
    let found ← lift .provider arrival
    return [⟨.referenceTypeMismatch, "expected zero instances of abstract class " ++
      r.schema.namespaces.canonical cls ++ ", found " ++ found.id, some c, none⟩]

/-- Looks for entities of the store that are typed as any abstract class. -/
def checkStore (r : Run m) : m (List Violation) :=
  gather r.checkAbstractClass r.schema.abstractConstraints

/-- An entity without types breaks nothing. -/
theorem checkEntity_of_types_nil {r : Run m} {e : Entity} (h : e.types = []) :
    r.checkEntity e = pure [] := by
  simp [checkEntity, h]

end Run

end EntityGraph
