import EntityGraph.Schema.Constraint

/-!
# Schemas

A schema is read off a collection of entities: those typed as classes are its classes, those
typed as constraints its constraints, and all other entities are kept and ignored. Nothing is
resolved when a schema is made, and so a class that is named and not defined is found out when
a hierarchy is walked.

The hierarchy of a class follows the first declared parent from class to class.

Results:
* `get?_indexLast`: an index by key finds the last element with the key.
* `getD_group`: a group holds the elements with its key, in order.
* `declaresProperty_iff_exists`, `declaresReference_iff_exists`: the declared predicates are those
  that constraints are about.
-/

namespace EntityGraph

namespace OrderedMap

variable {α κ : Type} [DecidableEq κ]

/-- Elements by key, of equal keys the last. -/
def indexLast (key : α → κ) (l : List α) : OrderedMap κ α :=
  l.foldl (fun m a => m.insert (key a) a) ∅

/-- Elements grouped by key, in order; an element without key is in no group. -/
def group (key : α → Option κ) (l : List α) : OrderedMap κ (List α) :=
  l.foldl (fun m a =>
    match key a with
    | some k => m.alter k (·.getD [] ++ [a])
    | none => m) ∅

/-- An index by key finds the last element with the key. -/
theorem get?_indexLast (key : α → κ) (l : List α) (k : κ) :
    (indexLast key l).get? k = l.reverse.find? (fun a => decide (key a = k)) := by
  suffices ∀ (l : List α) (m : OrderedMap κ α),
      (l.foldl (fun m a => m.insert (key a) a) m).get? k =
        (l.reverse.find? (fun a => decide (key a = k))).or (m.get? k) by
    simpa [indexLast] using this l ∅
  intro l
  induction l with
  | nil => intro m; simp
  | cons a l ih =>
    intro m
    simp only [List.foldl_cons, ih, List.reverse_cons, List.find?_append, get?_insert]
    cases List.find? (fun a => decide (key a = k)) l.reverse with
    | some b => simp
    | none => by_cases h : key a = k <;> simp [h]

/-- A group holds the elements with its key, in order. -/
theorem getD_group (key : α → Option κ) (l : List α) (k : κ) :
    ((group key l).get? k).getD [] = l.filter fun a => key a = some k := by
  suffices ∀ (l : List α) (m : OrderedMap κ (List α)),
      ((l.foldl (fun m a =>
        match key a with
        | some k => m.alter k (·.getD [] ++ [a])
        | none => m) m).get? k).getD [] =
        (m.get? k).getD [] ++ l.filter fun a => key a = some k by
    simpa [group] using this l ∅
  intro l
  induction l with
  | nil => intro m; simp
  | cons a l ih =>
    intro m
    rw [List.foldl_cons, ih]
    cases hk : key a with
    | none => simp [hk]
    | some k' =>
      simp only [alter, get?_insert]
      by_cases h : k' = k
      · subst h; simp [hk]
      · simp [hk, h]

end OrderedMap

/-- What an entity declares to a schema. -/
inductive Definition where
  | cls
  | constraint (kind : Constraint.Kind)
  deriving DecidableEq

/-- What the types of an entity declare: a class before any constraint, and of several kinds of
constraint the first. -/
def classify (ns : Namespaces) (e : Entity) : Option Definition :=
  let declared := e.types.map ns.canonical
  if Vocabulary.entityClassType ∈ declared then some .cls
  else (Constraint.Kind.all.find? fun k => decide (k.typeUri ∈ declared)).map .constraint

/-- A schema with its look-up tables, all keyed by canonical identifiers. -/
structure Schema where
  /-- The entities that the schema was made from. -/
  collection : Collection
  classes : List EntityClass
  constraints : List Constraint
  /-- The class of an identifier, of several the last. -/
  classTable : OrderedMap String EntityClass
  /-- The constraints that belong to a class. -/
  byClass : OrderedMap String (List Constraint)
  /-- The reference constraints with an inverse name whose targets belong to a class. -/
  byTarget : OrderedMap String (List Constraint)
  /-- The predicates that property constraints are about. -/
  declaredProperties : OrderedSet String
  /-- The predicates that reference constraints are about. -/
  declaredReferences : OrderedSet String
  deriving Inhabited

namespace Schema

/-- The class that an entity defines. -/
def class? (ns : Namespaces) (e : Entity) : Option EntityClass :=
  match classify ns e with
  | some .cls => some ⟨e⟩
  | _ => none

/-- The constraint that an entity defines. -/
def constraint? (ns : Namespaces) (e : Entity) : Option Constraint :=
  match classify ns e with
  | some (.constraint kind) => some ⟨kind, e⟩
  | _ => none

/-- The canonical class that the targets of a reference constraint with an inverse name belong
to. -/
def inverseKey? (ns : Namespaces) (c : Constraint) : Option String :=
  if c.kind = .reference ∧ c.inverseReferenceClass?.isSome then
    c.referencedEntityClass?.map ns.canonical
  else none

/-- The canonical predicate that a constraint of the given kind is about. A constraint that names no
predicate declares none. -/
def declaredKey? (ns : Namespaces) (kind : Constraint.Kind)
    (predicate : Constraint → Except SchemaError String) (c : Constraint) : Option String :=
  if c.kind = kind then (predicate c).toOption.map ns.canonical else none

/-- The schema of a collection. -/
def ofCollection (c : Collection) : Schema :=
  let ns := c.namespaces
  let classes := c.entities.filterMap (class? ns)
  let constraints := c.entities.filterMap (constraint? ns)
  { collection := c
    classes
    constraints
    classTable := .indexLast (fun cls => ns.canonical cls.id) classes
    byClass := .group (fun con => con.entityClass?.map ns.canonical) constraints
    byTarget := .group (inverseKey? ns) constraints
    declaredProperties :=
      .ofList (constraints.filterMap (declaredKey? ns .property Constraint.propertyClass))
    declaredReferences :=
      .ofList (constraints.filterMap (declaredKey? ns .reference Constraint.referenceClass)) }

/-- The namespace table that the schema was written with. -/
def namespaces (s : Schema) : Namespaces := s.collection.namespaces

/-- The constraints that make a class abstract. -/
def abstractConstraints (s : Schema) : List Constraint :=
  s.constraints.filter fun c => c.kind == .isAbstract

/-- The class of an identifier, given as written or in canonical form. -/
def entityClass? (s : Schema) (id : String) : Option EntityClass :=
  (s.classTable.get? id).or (s.classTable.get? (s.namespaces.canonical id))

/-! ## The hierarchy -/

/-- The identifiers of the ancestors from `current` on, nearest first. `unvisited` holds the
canonical identifiers of the classes that the walk has not met. -/
def ancestorsFrom (s : Schema) (unvisited : List String) (current : EntityClass) :
    Except SchemaError (List String) :=
  match current.parent? with
  | none => .ok []
  | some p =>
    match s.entityClass? p with
    | none => .error (.missingParent p)
    | some parent =>
      if _h : s.namespaces.canonical parent.id ∈ unvisited then
        (s.ancestorsFrom (unvisited.erase (s.namespaces.canonical parent.id)) parent).map
          (parent.id :: ·)
      else .error (.cyclicHierarchy parent.id)
termination_by unvisited.length
decreasing_by
  rw [List.length_erase_of_mem _h]
  have := List.length_pos_of_mem _h
  omega

/-- The identifiers of the ancestors of a class, nearest first. -/
def hierarchy (s : Schema) (id : String) : Except SchemaError (List String) :=
  match s.entityClass? id with
  | none => .error (.unknownClass id)
  | some start => s.ancestorsFrom (s.classTable.keys.erase (s.namespaces.canonical start.id)) start

/-- Whether a class is `ancestor` or inherits from it. A class without definition is only
itself. -/
def isSubclassOf (s : Schema) (id ancestor : String) : Except SchemaError Bool :=
  if s.namespaces.same id ancestor then .ok true
  else if (s.entityClass? id).isNone then .ok false
  else (s.hierarchy id).map fun chain => chain.any fun c => s.namespaces.same c ancestor

/-! ## Constraints of a class -/

/-- The entries of a table for a class. -/
def entriesAt (s : Schema) (table : OrderedMap String (List Constraint)) (id : String) :
    List Constraint :=
  (table.get? (s.namespaces.canonical id)).getD []

/-- The entries of a table for a class and, with `inherited`, for each ancestor of a defined
class, nearest first. -/
def entriesFor (s : Schema) (table : OrderedMap String (List Constraint)) (id : String)
    (inherited : Bool) : Except SchemaError (List Constraint) :=
  if inherited && (s.entityClass? id).isSome then
    (s.hierarchy id).map fun chain => (id :: chain).flatMap (s.entriesAt table)
  else .ok (s.entriesAt table id)

/-- The constraints of a class and, with `inherited`, of its ancestors. -/
def constraintsFor (s : Schema) (id : String) (inherited : Bool) :
    Except SchemaError (List Constraint) :=
  s.entriesFor s.byClass id inherited

/-- The reference constraints with an inverse name whose targets belong to a class and, with
`inherited`, to its ancestors. -/
def inverseConstraintsFor (s : Schema) (id : String) (inherited : Bool) :
    Except SchemaError (List Constraint) :=
  s.entriesFor s.byTarget id inherited

/-- Whether the constraints of a class itself make it abstract. -/
def isAbstract (s : Schema) (id : String) : Bool :=
  (s.entriesAt s.byClass id).any fun c => c.kind == .isAbstract

/-- Whether some property constraint is about a predicate. -/
def declaresProperty (s : Schema) (predicate : String) : Bool :=
  s.declaredProperties.contains (s.namespaces.canonical predicate)

/-- Whether a predicate declares types or some reference constraint is about it. -/
def declaresReference (s : Schema) (predicate : String) : Bool :=
  predicate == Vocabulary.rdfType ||
    s.declaredReferences.contains (s.namespaces.canonical predicate)

/-- A key is declared by the constraints of the kind that are about it. -/
theorem mem_filterMap_declaredKey?_iff {ns : Namespaces} {kind : Constraint.Kind}
    {predicate : Constraint → Except SchemaError String} {cs : List Constraint} {key : String} :
    key ∈ cs.filterMap (declaredKey? ns kind predicate) ↔
      ∃ c ∈ cs, c.kind = kind ∧ ∃ p, predicate c = .ok p ∧ ns.canonical p = key := by
  rw [List.mem_filterMap]
  refine exists_congr fun c => and_congr_right fun _ => ?_
  unfold declaredKey?
  by_cases hkind : c.kind = kind
  · cases predicate c <;> simp [hkind, Except.toOption]
  · simp [hkind]

section

variable {s : Schema} {p : String}

/-- The properties that the schema of a collection declares are those that its property constraints
are about. -/
theorem declaresProperty_iff_exists (hs : s = ofCollection s.collection) :
    s.declaresProperty p = true ↔ ∃ c ∈ s.constraints, c.kind = .property ∧
      ∃ q, c.propertyClass = .ok q ∧ s.namespaces.canonical q = s.namespaces.canonical p := by
  have hset : s.declaredProperties = .ofList (s.constraints.filterMap
      (declaredKey? s.namespaces .property Constraint.propertyClass)) := by
    rw [hs]
    rfl
  rw [declaresProperty, hset, OrderedSet.contains_ofList_iff, mem_filterMap_declaredKey?_iff]

/-- The references that the schema of a collection declares are the type predicate and those that
its reference constraints are about. -/
theorem declaresReference_iff_exists (hs : s = ofCollection s.collection) :
    s.declaresReference p = true ↔ p = Vocabulary.rdfType ∨
      ∃ c ∈ s.constraints, c.kind = .reference ∧
        ∃ q, c.referenceClass = .ok q ∧ s.namespaces.canonical q = s.namespaces.canonical p := by
  have hset : s.declaredReferences = .ofList (s.constraints.filterMap
      (declaredKey? s.namespaces .reference Constraint.referenceClass)) := by
    rw [hs]
    rfl
  rw [declaresReference, hset, Bool.or_eq_true, beq_iff_eq, OrderedSet.contains_ofList_iff,
    mem_filterMap_declaredKey?_iff]

end

end Schema

end EntityGraph
