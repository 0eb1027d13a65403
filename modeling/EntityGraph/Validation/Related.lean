import EntityGraph.Validation.Occurrence
import EntityGraph.Validation.Run

/-!
# Related entities

What the data provider knows about the targets of a reference and about the entities that refer
to an entity. Only records in the datasets of the settings' context count.
-/

namespace EntityGraph

namespace Run

variable {m : Type → Type} [Monad m] [MonadExceptOf ValidationError m]

/-- The types that records declare. -/
def declaredTypes (records : List Record) : List String :=
  records.flatMap fun rec => rec.entity.types

/-- Holds one target of a reference against what is stored under its identifier: there has to be
a record in the context, and one of the expected class if the constraint names a class. -/
def checkTarget (r : Run m) (c : Constraint) (e : Entity) (target : String) :
    m (List Violation) := do
  r.proceed
  let ns := r.schema.namespaces
  let link := e.id ++ " references " ++ ns.canonical target
  match ← r.stored? target with
  | none => return [.of c e .referenceNotFound (link ++ ", which does not exist")]
  | some stored =>
    let records := stored.recordsIn r.settings.context
    let found := declaredTypes records
    if records.isEmpty then
      return [.of c e .referenceNotFound (link ++ ", which is not present in datasets " ++
        (Outline.texts r.settings.context).line)]
    else
      match c.referencedEntityClass? with
      | none => return []
      | some expected =>
        if found.any fun type => ns.same type expected then return []
        else return [.of c e .referenceTypeMismatch (link ++ " of type(s) " ++
          (Outline.texts found).line ++ ", expected " ++ expected)]

/-- Whether one of the types is a class or inherits from it. -/
def isInstance (r : Run m) (cls : String) : List String → m Bool
  | [] => return false
  | type :: types => do
    if ← lift .schema (r.schema.isSubclassOf type cls) then return true
    else r.isInstance cls types

/-- Whether a referrer counts for a constraint of the class `owner`: it has to be an instance by
the types that its records in the context declare. -/
def counts (r : Run m) (owner : String) (referrer : Entity) : m Bool := do
  if r.settings.context.isEmpty then r.isInstance owner referrer.types
  else
    r.proceed
    match ← r.stored? referrer.id with
    | none => return false
    | some stored => r.isInstance owner (declaredTypes (stored.recordsIn r.settings.context))

/-- The number of referrers that count, from `count` on, and no further than just above the
bounds. -/
def countReferrers (r : Run m) (owner : String) (bounds : Cardinality) :
    EntityStream → (count : Nat) → m Nat
  | [], count => return count
  | arrival :: rest, count => do
    let referrer ← lift .provider arrival
    let count := if ← r.counts owner referrer then count + 1 else count
    if bounds.isAbove count then return count else r.countReferrers owner bounds rest count

/-- Holds the number of entities that refer to an entity against the bounds of a constraint. -/
def checkInverse (r : Run m) (c : Constraint) (e : Entity) : m (List Violation) := do
  let predicate ← lift .schema c.referenceClass
  let bounds ← lift .schema c.inverseCardinality
  if bounds = .any then return []
  let owner ← lift .schema c.entityClass
  r.proceed
  let count ← r.countReferrers owner bounds (← r.referrers e.id predicate none) 0
  let through := " through " ++ predicate ++ " (" ++ c.inverseReferenceClass?.getD predicate ++ ")"
  let tooFew := if bounds.isBelow count then
      [.of c e .minInverseReferenceOccurrenceNotMet (e.id ++ " is referenced " ++ toString count ++
        " time(s)" ++ through ++ ", expected at least " ++ toString bounds.min)]
    else []
  let tooMany := if bounds.isAbove count then
      [.of c e .maxInverseReferenceOccurrenceExceeded (e.id ++ " is referenced more than " ++
        toString (bounds.max.getD count) ++ " time(s)" ++ through)]
    else []
  return tooFew ++ tooMany

end Run

end EntityGraph
