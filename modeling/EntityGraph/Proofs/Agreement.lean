import EntityGraph.Proofs.Sameness
import EntityGraph.Validation.Validator

/-!
# Validation up to the order of entries

A schema enters a validation through what is asked of it, and schemas that are the same answer
alike. What a validation reports, its effects and errors included, is therefore the same for both,
as long as the rules of the application also take equal maps for equal. This is shown check by
check, in any monad.

Results:
* `checkConstraint_withSchema`, `checkInverse_withSchema`: one constraint against an entity.
* `Validator.validateEntities_same`: a validation reports the same.
* `Schema.Same.agrees`: schemas that are the same agree in every answer.
-/

namespace EntityGraph

/-! ## What is read off a definition -/

/-- All that a class definition says. -/
structure EntityClass.Reading where
  id : String
  parents : List String
  parent? : Option String
  label? : Option String
  description? : Option String

/-- The reading of a class definition. -/
def EntityClass.reading (c : EntityClass) : EntityClass.Reading :=
  ⟨c.id, c.parents, c.parent?, c.label?, c.description?⟩

/-- All that a constraint definition says. What an attribute says where the kind has no use for it
is included. -/
structure Constraint.Reading where
  id : String
  kind : Constraint.Kind
  entityClass? : Option String
  propertyClass : Except SchemaError String
  referenceClass : Except SchemaError String
  datatype : String
  cardinality : Except SchemaError Cardinality
  sortable : Bool
  queryable : Bool
  isUnique : Bool
  referencedEntityClass? : Option String
  inverseReferenceClass? : Option String
  inverseCardinality : Except SchemaError Cardinality
  rule? : Option String

/-- The reading of a constraint definition. -/
def Constraint.reading (c : Constraint) : Constraint.Reading where
  id := c.id
  kind := c.kind
  entityClass? := c.entityClass?
  propertyClass := c.propertyClass
  referenceClass := c.referenceClass
  datatype := c.datatype
  cardinality := c.cardinality
  sortable := c.flag Vocabulary.sortable
  queryable := c.flag Vocabulary.queryable
  isUnique := c.flag Vocabulary.isUnique
  referencedEntityClass? := c.referencedEntityClass?
  inverseReferenceClass? := c.inverseReferenceClass?
  inverseCardinality := c.inverseCardinality
  rule? := c.rule?

theorem EntityClass.Same.reading_eq {c c' : EntityClass} (h : c.Same c') :
    c.reading = c'.reading := by
  unfold EntityClass.reading
  rw [h.id_eq, h.parents_eq, h.parent?_eq, h.label?_eq, h.description?_eq]

theorem Constraint.Same.reading_eq {c c' : Constraint} (h : c.Same c') :
    c.reading = c'.reading := by
  unfold Constraint.reading
  rw [h.id_eq, h.kind, h.entityClass?_eq, h.propertyClass_eq, h.referenceClass_eq, h.datatype_eq,
    h.cardinality_eq, h.flag_eq, h.flag_eq, h.flag_eq, h.referencedEntityClass?_eq,
    h.inverseReferenceClass?_eq, h.inverseCardinality_eq, h.rule?_eq]

/-! ## Rules -/

/-- Two contexts of a rule that differ at most in the order of entries in namespace tables and
entities. -/
structure RuleContext.Same {m : Type → Type} (ctx ctx' : RuleContext m) : Prop where
  schema : ctx.schema.Same ctx'.schema
  constraint : ctx.constraint.Same ctx'.constraint
  settings : ctx.settings = ctx'.settings
  provider? : ctx.provider? = ctx'.provider?

/-- A rule that takes equal maps for equal. Maps are equal if they hold the same entries, in
whatever order, and so a rule that is a function of what its context says is of this kind. -/
def Rule.Extensional {m : Type → Type} (rule : Rule m) : Prop :=
  ∀ ctx ctx' : RuleContext m, ctx.Same ctx' → rule ctx = rule ctx'

/-- Every registered rule takes equal maps for equal. -/
def RuleRegistry.Extensional {m : Type → Type} (rules : RuleRegistry m) : Prop :=
  ∀ entry ∈ rules.entries, Rule.Extensional entry.2

/-! ## Reports -/

section

variable {m : Type → Type} [Monad m]

/-- What a run reports: its violations reduced to identifiers, with its effects and errors. -/
def reported (run : m (List Violation)) : m (List Finding) := List.map Violation.finding <$> run

variable [LawfulMonad m]

theorem reported_pure (vs : List Violation) :
    reported (pure vs : m (List Violation)) = pure (vs.map Violation.finding) :=
  map_pure _ _

/-- Reports agree if what comes after one and the same step does. -/
theorem reported_bind {α : Type} (x : m α) {f g : α → m (List Violation)}
    (h : ∀ a, reported (f a) = reported (g a)) : reported (x >>= f) = reported (x >>= g) := by
  unfold reported at h ⊢
  rw [map_bind, map_bind]
  exact congrArg (x >>= ·) (funext h)

theorem reported_append (x y : m (List Violation)) :
    reported (do return (← x) ++ (← y)) = (do return (← reported x) ++ (← reported y)) := by
  simp only [reported, map_bind, bind_map_left, map_pure, List.map_append]

theorem reported_prepend (vs : List Violation) (y : m (List Violation)) :
    reported (do return vs ++ (← y)) =
      (do return vs.map Violation.finding ++ (← reported y)) := by
  simp only [reported, map_bind, bind_map_left, map_pure, List.map_append]

/-- Gathering reports the same if the parts do. -/
theorem reported_gather {α β : Type} {R : α → β → Prop} {f : α → m (List Violation)}
    {g : β → m (List Violation)} {l : List α} {l' : List β} (h : List.Forall₂ R l l')
    (hfg : ∀ a b, R a b → reported (f a) = reported (g b)) :
    reported (gather f l) = reported (gather g l') := by
  induction h with
  | nil => rfl
  | @cons a b l l' hab _ ih =>
    calc reported (gather f (a :: l))
        = (do return (← reported (f a)) ++ (← reported (gather f l))) := reported_append _ _
      _ = (do return (← reported (g b)) ++ (← reported (gather g l'))) := by rw [hfg a b hab, ih]
      _ = reported (gather g (b :: l')) := (reported_append _ _).symm

theorem reported_gather_congr {α : Type} {f g : α → m (List Violation)} (l : List α)
    (h : ∀ a, reported (f a) = reported (g a)) : reported (gather f l) = reported (gather g l) :=
  reported_gather (List.forall₂_same.mpr fun _ _ => rfl : List.Forall₂ Eq l l)
    fun a _ hab => hab ▸ h a

variable [MonadExceptOf ValidationError m]

/-- Reports agree after results that are the same. -/
theorem reported_lift_bind {α : Type} {R : α → α → Prop} (hrefl : ∀ a, R a a)
    {x y : Except SchemaError α} (h : SameResult R x y) {f g : α → m (List Violation)}
    (hfg : ∀ a b, R a b → reported (f a) = reported (g b)) :
    reported (lift .schema x >>= f) = reported (lift .schema y >>= g) := by
  cases h with
  -- nothing is known of what follows a failure, and so it is compared on one and the same value
  | error err => exact reported_bind _ fun a => hfg a a (hrefl a)
  | ok hab =>
    simp only [lift, pure_bind]
    exact hfg _ _ hab

end

/-! ## Checks -/

theorem Entity.Same.refl (e : Entity) : e.Same e := ⟨rfl, fun _ => rfl, fun _ => rfl, rfl⟩

theorem Constraint.Same.refl (c : Constraint) : c.Same c := ⟨rfl, .refl _⟩

theorem finding_of {c c' : Constraint} (h : c.Same c') (e : Entity) (kind : Violation.Kind)
    (message : String) :
    (Violation.of c e kind message).finding = (Violation.of c' e kind message).finding := by
  simp only [Violation.of, Violation.finding, Option.map_some, h.id_eq]

theorem map_finding_occurrences {c c' : Constraint} (h : c.Same c') (o : Violation.Occurrence)
    (e : Entity) (p : String) (bounds : Cardinality) (count : Nat) :
    (Violation.occurrences o c e p bounds count).map Violation.finding =
      (Violation.occurrences o c' e p bounds count).map Violation.finding := by
  unfold Violation.occurrences
  rw [List.map_append, List.map_append]
  congr 1 <;> split <;> first | rfl | exact congrArg (· :: []) (finding_of h _ _ _)

theorem getSame?_eq {α : Type} {ns ns' : Namespaces} (h : ns.Same ns')
    (slots : OrderedMap String α) (p : String) : slots.getSame? ns p = slots.getSame? ns' p := by
  unfold OrderedMap.getSame?
  rw [h.same_eq]

/-- Two schemas in which identifiers denote the same and classes descend alike. -/
structure Schema.Kindred (s s' : Schema) : Prop where
  namespaces : s.namespaces.Same s'.namespaces
  isSubclassOf_eq : ∀ id ancestor, s.isSubclassOf id ancestor = s'.isSubclassOf id ancestor

namespace Schema.Kindred

variable {s s' : Schema}

theorem canonical_eq (h : s.Kindred s') : s.namespaces.canonical = s'.namespaces.canonical :=
  h.namespaces.canonical_eq

theorem same_eq (h : s.Kindred s') : s.namespaces.same = s'.namespaces.same := h.namespaces.same_eq

end Schema.Kindred

theorem Schema.Same.kindred {s s' : Schema} (h : s.Same s') : s.Kindred s' :=
  ⟨h.namespaces, h.isSubclassOf_eq⟩

theorem undeclared_eq {s s' : Schema} (h : s.Same s') (e : Entity) :
    Violation.undeclared s e = Violation.undeclared s' e := by
  unfold Violation.undeclared
  simp only [h.declaresProperty_eq, h.declaresReference_eq]

namespace Run

variable {m : Type → Type} {r : Run m} {s : Schema} {c c' : Constraint}

/-- The run with another schema. -/
def withSchema (r : Run m) (s : Schema) : Run m := { r with schema := s }

-- the parentheses keep these two from being used by definition, which would leave the old terms in
-- the instances that decide a condition
@[simp] theorem schema_withSchema (r : Run m) (s : Schema) : (r.withSchema s).schema = s := (rfl)

@[simp] theorem settings_withSchema (r : Run m) (s : Schema) :
    (r.withSchema s).settings = r.settings := (rfl)

variable [Monad m] [MonadExceptOf ValidationError m]

theorem stored?_withSchema (h : r.schema.Kindred s) (id : String) :
    (r.withSchema s).stored? id = r.stored? id := by
  unfold stored?
  rw [h.canonical_eq]
  rfl

theorem referrers_withSchema (h : r.schema.Kindred s) (target predicate : String)
    (limit : Option Nat) :
    (r.withSchema s).referrers target predicate limit = r.referrers target predicate limit := by
  unfold referrers
  rw [h.canonical_eq]
  rfl

theorem isInstance_withSchema (h : r.schema.Kindred s) (cls : String) (types : List String) :
    (r.withSchema s).isInstance cls types = r.isInstance cls types := by
  induction types with
  | nil => rfl
  | cons type types ih =>
    rw [isInstance, isInstance, ih, h.isSubclassOf_eq]
    rfl

theorem counts_withSchema (h : r.schema.Kindred s) (owner : String) (referrer : Entity) :
    (r.withSchema s).counts owner referrer = r.counts owner referrer := by
  unfold counts
  simp only [isInstance_withSchema h, stored?_withSchema h]
  rfl

theorem countReferrers_withSchema (h : r.schema.Kindred s) (owner : String) (bounds : Cardinality)
    (stream : EntityStream) (count : Nat) :
    (r.withSchema s).countReferrers owner bounds stream count =
      r.countReferrers owner bounds stream count := by
  induction stream generalizing count with
  | nil => rfl
  | cons arrival rest ih =>
    rw [countReferrers, countReferrers]
    simp only [counts_withSchema h, ih]

variable [LawfulMonad m]

theorem checkTarget_withSchema (h : r.schema.Kindred s) (hc : c.Same c') (e : Entity)
    (target : String) :
    reported (r.checkTarget c e target) = reported ((r.withSchema s).checkTarget c' e target) := by
  unfold checkTarget
  refine reported_bind _ fun _ => ?_
  simp only [stored?_withSchema h, schema_withSchema, ← h.canonical_eq, ← h.same_eq,
    ← hc.referencedEntityClass?_eq]
  refine reported_bind _ fun found => ?_
  cases found with
  | none => simp only [reported_pure, List.map_singleton, finding_of hc]
  | some stored =>
    simp only [settings_withSchema]
    split
    · simp only [reported_pure, List.map_singleton, finding_of hc]
    · cases c.referencedEntityClass? with
      | none => rfl
      | some expected =>
        simp only
        split
        · rfl
        · simp only [reported_pure, List.map_singleton, finding_of hc]

theorem checkProperty_withSchema (h : r.schema.Kindred s) (hc : c.Same c') (e : Entity) :
    reported (r.checkProperty c e) = reported ((r.withSchema s).checkProperty c' e) := by
  unfold checkProperty Entity.propertyCountAt
  rw [hc.propertyClass_eq, hc.cardinality_eq]
  refine reported_bind _ fun predicate => reported_bind _ fun bounds => ?_
  rw [reported_pure, reported_pure, map_finding_occurrences hc,
    getSame?_eq h.namespaces]
  rfl

theorem checkReference_withSchema (h : r.schema.Kindred s) (hc : c.Same c') (e : Entity) :
    reported (r.checkReference c e) = reported ((r.withSchema s).checkReference c' e) := by
  unfold checkReference Entity.targetsAt
  rw [hc.referenceClass_eq, hc.cardinality_eq]
  refine reported_bind _ fun predicate => reported_bind _ fun bounds => ?_
  simp only [schema_withSchema, settings_withSchema,
    ← getSame?_eq h.namespaces]
  split
  · rw [reported_prepend, reported_prepend, map_finding_occurrences hc,
      reported_gather_congr _ (checkTarget_withSchema h hc e)]
  · rw [reported_pure, reported_pure, map_finding_occurrences hc]

theorem checkAbstract_withSchema (h : r.schema.Kindred s) (hc : c.Same c') (e : Entity) :
    reported (r.checkAbstract c e) = reported ((r.withSchema s).checkAbstract c' e) := by
  unfold checkAbstract
  rw [hc.entityClass_eq]
  refine reported_bind _ fun cls => ?_
  simp only [schema_withSchema, ← h.same_eq]
  split
  · simp only [reported_pure, List.map_singleton, finding_of hc]
  · rfl

omit [MonadExceptOf ValidationError m] in
theorem checkRule_withSchema (hrules : r.rules.Extensional) (h : r.schema.Same s) (hc : c.Same c')
    (e : Entity) : reported (r.checkRule c e) = reported ((r.withSchema s).checkRule c' e) := by
  have hfind : (r.withSchema s).rules.find? (r.withSchema s).schema.namespaces c' =
      r.rules.find? r.schema.namespaces c := by
    unfold RuleRegistry.find?
    rw [hc.matchesRule_eq h.namespaces]
    rfl
  unfold checkRule
  rw [hfind]
  cases hrule : r.rules.find? r.schema.namespaces c with
  | none => rfl
  | some rule =>
    obtain ⟨entry, hentry, rfl⟩ := Option.map_eq_some_iff.mp hrule
    have hanswer := hrules entry (List.mem_of_find?_eq_some hentry)
      ⟨r.schema, c, r.settings, r.provider?⟩ ⟨s, c', r.settings, r.provider?⟩ ⟨h, hc, rfl, rfl⟩
    simp only [hanswer]
    refine reported_bind _ fun answer => ?_
    cases answer with
    | none => rfl
    | some message => simp only [reported_pure, List.map_singleton, finding_of hc]

/-- **One constraint of an entity's class reports the same.** -/
theorem checkConstraint_withSchema (hrules : r.rules.Extensional) (h : r.schema.Same s)
    (hc : c.Same c') (e : Entity) :
    reported (r.checkConstraint e c) = reported ((r.withSchema s).checkConstraint e c') := by
  unfold checkConstraint
  rw [← hc.kind]
  cases c.kind with
  | property => exact checkProperty_withSchema h.kindred hc e
  | reference => exact checkReference_withSchema h.kindred hc e
  | isAbstract => exact checkAbstract_withSchema h.kindred hc e
  | application => exact checkRule_withSchema hrules h hc e

/-- **One constraint on the referrers of an entity reports the same.** -/
theorem checkInverse_withSchema (h : r.schema.Kindred s) (hc : c.Same c') (e : Entity) :
    reported (r.checkInverse c e) = reported ((r.withSchema s).checkInverse c' e) := by
  unfold checkInverse
  simp only [hc.referenceClass_eq, hc.inverseCardinality_eq, hc.entityClass_eq,
    hc.inverseReferenceClass?_eq, referrers_withSchema h, countReferrers_withSchema h]
  refine reported_bind _ fun predicate => reported_bind _ fun bounds => ?_
  split
  · rfl
  · refine reported_bind _ fun owner => reported_bind _ fun _ => reported_bind _ fun stream =>
      reported_bind _ fun count => ?_
    rw [reported_pure, reported_pure, List.map_append, List.map_append]
    congr 2 <;> split <;> first | rfl | exact congrArg (· :: []) (finding_of hc _ _ _)

theorem checkType_withSchema (hrules : r.rules.Extensional) (h : r.schema.Same s) (e : Entity)
    (type : String) :
    reported (r.checkType e type) = reported ((r.withSchema s).checkType e type) := by
  have hrefl : ∀ l : List Constraint, List.Forall₂ Constraint.Same l l :=
    fun l => List.forall₂_same.mpr fun c _ => .refl c
  have hown := reported_lift_bind hrefl (h.constraintsFor type true) fun cs cs' hcs =>
    reported_gather hcs fun c c' hc => checkConstraint_withSchema hrules h hc e
  have hinverse := reported_lift_bind hrefl (h.inverseConstraintsFor type true) fun ds ds' hds =>
    reported_gather hds fun c c' hc => checkInverse_withSchema h.kindred hc e
  cases hrelated : r.settings.related with
  | false =>
    have hrelated' : (r.withSchema s).settings.related = false := hrelated
    rw [checkType_of_not_related hrelated, checkType_of_not_related hrelated']
    exact hown
  | true =>
    have hrelated' : (r.withSchema s).settings.related = true := hrelated
    rw [checkType_of_related hrelated, checkType_of_related hrelated', reported_append,
      reported_append]
    exact congrArg₂ (fun own inverse => do return (← own) ++ (← inverse)) hown hinverse

/-- **An entity reports the same.** -/
theorem checkEntity_withSchema (hrules : r.rules.Extensional) (h : r.schema.Same s) (e : Entity) :
    reported (r.checkEntity e) = reported ((r.withSchema s).checkEntity e) := by
  unfold checkEntity
  split
  · rfl
  · simp only [settings_withSchema, schema_withSchema,
      ← undeclared_eq h]
    rw [reported_prepend, reported_prepend,
      reported_gather_congr _ (checkType_withSchema hrules h e)]

/-- **A run over entities reports the same.** -/
theorem checkEntities_withSchema (hrules : r.rules.Extensional) (h : r.schema.Same s)
    (es : List Entity) :
    reported (r.checkEntities es) = reported ((r.withSchema s).checkEntities es) :=
  reported_gather_congr es fun e => reported_bind _ fun _ => checkEntity_withSchema hrules h e

end Run

/-- **A validation reports the same over schemas that are the same.** -/
theorem Validator.validateEntities_same {m : Type → Type} [Monad m] [LawfulMonad m]
    [MonadExceptOf ValidationError m] {v : Validator m} (hrules : v.rules.Extensional)
    {s s' : Schema} (h : s.Same s') (es : List Entity) :
    reported (v.validateEntities s es) = reported (v.validateEntities s' es) := by
  unfold validateEntities start
  simp only [bind_assoc]
  refine reported_bind _ fun started => ?_
  let r : Run m := ⟨s, v.settings, v.provider?, v.rules, v.signals, started⟩
  have hrun : reported (do r.proceed; r.checkEntities es) =
      reported (do (r.withSchema s').proceed; (r.withSchema s').checkEntities es) :=
    reported_bind _ fun _ => Run.checkEntities_withSchema hrules h es
  split
  · simp only [bind_assoc, pure_bind]
    exact reported_bind _ fun _ => hrun
  · simp only [bind_assoc, pure_bind]
    exact hrun

/-! ## Agreement -/

/-- Two schemas that no question tells apart: the same classes and constraints in the same order,
the same hierarchies and look-ups, and the same outcome of every validation whose rules take equal
maps for equal. -/
structure Schema.Agrees (s s' : Schema) : Prop where
  classes : s.classes.map EntityClass.reading = s'.classes.map EntityClass.reading
  constraints : s.constraints.map Constraint.reading = s'.constraints.map Constraint.reading
  entityClass? : ∀ id,
    (s.entityClass? id).map EntityClass.reading = (s'.entityClass? id).map EntityClass.reading
  hierarchy : ∀ id, s.hierarchy id = s'.hierarchy id
  isSubclassOf : ∀ id ancestor, s.isSubclassOf id ancestor = s'.isSubclassOf id ancestor
  isAbstract : ∀ id, s.isAbstract id = s'.isAbstract id
  constraintsFor : ∀ id inherited,
    (s.constraintsFor id inherited).map (List.map Constraint.reading) =
      (s'.constraintsFor id inherited).map (List.map Constraint.reading)
  inverseConstraintsFor : ∀ id inherited,
    (s.inverseConstraintsFor id inherited).map (List.map Constraint.reading) =
      (s'.inverseConstraintsFor id inherited).map (List.map Constraint.reading)
  validateEntity : ∀ {m : Type → Type} [Monad m] [LawfulMonad m]
    [MonadExceptOf ValidationError m] (v : Validator m), v.rules.Extensional →
    ∀ e, reported (v.validateEntity s e) = reported (v.validateEntity s' e)

theorem SameResult.map_reading_eq {x y : Except SchemaError (List Constraint)}
    (h : SameResult (List.Forall₂ Constraint.Same) x y) :
    x.map (List.map Constraint.reading) = y.map (List.map Constraint.reading) := by
  cases h with
  | error err => rfl
  | ok hcs => exact congrArg Except.ok (map_eq_of_forall₂ hcs fun _ _ hc => hc.reading_eq)

/-- **Schemas that are the same agree.** -/
theorem Schema.Same.agrees {s s' : Schema} (h : s.Same s') : s.Agrees s' where
  classes := map_eq_of_forall₂ h.classes fun _ _ hc => hc.reading_eq
  constraints := map_eq_of_forall₂ h.constraints fun _ _ hc => hc.reading_eq
  entityClass? id := by
    cases hx : s.entityClass? id with
    | none => rw [h.entityClass?_eq_none hx]
    | some cls =>
      obtain ⟨cls', hcls', hcls⟩ := h.exists_entityClass? hx
      rw [hcls', Option.map_some, Option.map_some, hcls.reading_eq]
  hierarchy := h.hierarchy_eq
  isSubclassOf := h.isSubclassOf_eq
  isAbstract := h.isAbstract_eq
  constraintsFor id inherited := (h.constraintsFor id inherited).map_reading_eq
  inverseConstraintsFor id inherited := (h.inverseConstraintsFor id inherited).map_reading_eq
  validateEntity v hrules e := v.validateEntities_same hrules h [e]

end EntityGraph
