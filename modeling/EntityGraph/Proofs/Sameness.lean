import EntityGraph.Proofs.Expansion

/-!
# Schemas up to the order of entries

Two maps are equal as maps if they hold the same values at the same keys, whatever the order of
their entries. Schemas whose entities and namespace tables are equal in this sense answer every
question alike: no attribute is read by its place among the others.

Results:
* `Collection.Same.schema`: what is read off collections that are the same is the same.
* `Schema.Same.hierarchy_eq`: the hierarchies of a class agree.
* `Schema.Same.constraintsFor`, `Schema.Same.inverseConstraintsFor`: so do its constraints.
-/

namespace EntityGraph

/-! ## Relations -/

/-- Two results: the same error, or related values. -/
inductive SameResult {ε α β : Type} (R : α → β → Prop) : Except ε α → Except ε β → Prop
  | error (err : ε) : SameResult R (.error err) (.error err)
  | ok {a : α} {b : β} (h : R a b) : SameResult R (.ok a) (.ok b)

/-- Two tables with the same keys in the same order and related values. -/
def OrderedMap.Rel {κ ν ν' : Type} (R : ν → ν' → Prop) (m : OrderedMap κ ν)
    (m' : OrderedMap κ ν') : Prop :=
  List.Forall₂ (fun e e' => e.1 = e'.1 ∧ R e.2 e'.2) m.toList m'.toList

/-- Two tables that bind the same labels to the same expansions. -/
def Namespaces.Same (ns ns' : Namespaces) : Prop :=
  ∀ label, ns.expansion? label = ns'.expansion? label

/-- Two entities that differ at most in the order of their predicates. -/
structure Entity.Same (e e' : Entity) : Prop where
  id : e.id = e'.id
  property? : ∀ p, e.property? p = e'.property? p
  reference? : ∀ p, e.reference? p = e'.reference? p
  deleted : e.deleted = e'.deleted

/-- Two class definitions that differ at most in the order of their predicates. -/
def EntityClass.Same (c c' : EntityClass) : Prop := c.entity.Same c'.entity

/-- Two constraint definitions that differ at most in the order of their predicates. -/
structure Constraint.Same (c c' : Constraint) : Prop where
  kind : c.kind = c'.kind
  entity : c.entity.Same c'.entity

/-- Two collections whose entities, in order, and whose namespace tables are the same. -/
structure Collection.Same (c c' : Collection) : Prop where
  namespaces : c.namespaces.Same c'.namespaces
  continuation : c.continuation = c'.continuation
  entities : List.Forall₂ Entity.Same c.entities c'.entities
  index : c.index = c'.index

/-- Two schemas whose parts are the same, up to the order of entries in namespace tables and
entities. -/
structure Schema.Same (s s' : Schema) : Prop where
  collection : s.collection.Same s'.collection
  classes : List.Forall₂ EntityClass.Same s.classes s'.classes
  constraints : List.Forall₂ Constraint.Same s.constraints s'.constraints
  classTable : s.classTable.Rel EntityClass.Same s'.classTable
  byClass : s.byClass.Rel (List.Forall₂ Constraint.Same) s'.byClass
  byTarget : s.byTarget.Rel (List.Forall₂ Constraint.Same) s'.byTarget
  declaredProperties : s.declaredProperties = s'.declaredProperties
  declaredReferences : s.declaredReferences = s'.declaredReferences

/-! ## Namespace tables -/

namespace Namespaces.Same

variable {ns ns' : Namespaces}

theorem expand_eq (h : ns.Same ns') : ns.expand = ns'.expand := by
  funext a
  unfold expand
  simp only [h _]

theorem canonical_eq (h : ns.Same ns') : ns.canonical = ns'.canonical := by
  funext a
  unfold canonical
  rw [h.expand_eq]

theorem same_eq (h : ns.Same ns') : ns.same = ns'.same := by
  funext a b
  unfold same
  rw [h.canonical_eq]

theorem symm (h : ns.Same ns') : ns'.Same ns := fun label => (h label).symm

end Namespaces.Same

/-! ## Entities and definitions -/

namespace Entity.Same

variable {e e' : Entity}

theorem symm (h : e.Same e') : e'.Same e :=
  ⟨h.id.symm, fun p => (h.property? p).symm, fun p => (h.reference? p).symm, h.deleted.symm⟩

theorem referenceValues_eq (h : e.Same e') (p : String) :
    e.referenceValues p = e'.referenceValues p := by
  unfold referenceValues
  rw [h.reference?]

theorem firstReference?_eq (h : e.Same e') (p : String) :
    e.firstReference? p = e'.firstReference? p := by
  unfold firstReference?
  rw [h.reference?]

theorem firstProperty?_eq (h : e.Same e') (p : String) :
    e.firstProperty? p = e'.firstProperty? p := by
  unfold firstProperty?
  rw [h.property?]

theorem firstString?_eq (h : e.Same e') (p : String) : e.firstString? p = e'.firstString? p := by
  unfold firstString?
  rw [h.firstProperty?_eq]

theorem firstInt?_eq (h : e.Same e') (p : String) : e.firstInt? p = e'.firstInt? p := by
  unfold firstInt?
  rw [h.firstProperty?_eq]

theorem firstBool?_eq (h : e.Same e') (p : String) : e.firstBool? p = e'.firstBool? p := by
  unfold firstBool?
  rw [h.firstProperty?_eq]

theorem types_eq (h : e.Same e') : e.types = e'.types := h.referenceValues_eq _

theorem classify_eq (h : e.Same e') {ns ns' : Namespaces} (hns : ns.Same ns') :
    classify ns e = classify ns' e' := by
  unfold classify
  rw [h.types_eq, hns.canonical_eq]

end Entity.Same

namespace EntityClass.Same

variable {c c' : EntityClass}

theorem id_eq (h : c.Same c') : c.id = c'.id := Entity.Same.id h

theorem parents_eq (h : c.Same c') : c.parents = c'.parents := Entity.Same.referenceValues_eq h _

theorem parent?_eq (h : c.Same c') : c.parent? = c'.parent? := Entity.Same.firstReference?_eq h _

theorem label?_eq (h : c.Same c') : c.label? = c'.label? := Entity.Same.firstString?_eq h _

theorem description?_eq (h : c.Same c') : c.description? = c'.description? :=
  Entity.Same.firstString?_eq h _

end EntityClass.Same

namespace Constraint.Same

variable {c c' : Constraint}

theorem id_eq (h : c.Same c') : c.id = c'.id := h.entity.id

theorem entityClass?_eq (h : c.Same c') : c.entityClass? = c'.entityClass? :=
  h.entity.firstReference?_eq _

theorem entityClass_eq (h : c.Same c') : c.entityClass = c'.entityClass := by
  unfold entityClass
  rw [h.entityClass?_eq, h.id_eq]

theorem name?_eq (h : c.Same c') (p : String) : c.name? p = c'.name? p := by
  unfold name?
  rw [h.entity.firstReference?_eq, h.entity.firstString?_eq]

theorem propertyClass_eq (h : c.Same c') : c.propertyClass = c'.propertyClass := by
  unfold propertyClass
  rw [h.name?_eq, h.id_eq]

theorem referenceClass_eq (h : c.Same c') : c.referenceClass = c'.referenceClass := by
  unfold referenceClass
  rw [h.entity.firstReference?_eq, h.id_eq]

theorem datatype_eq (h : c.Same c') : c.datatype = c'.datatype := by
  unfold datatype
  rw [h.name?_eq]

theorem flag_eq (h : c.Same c') (p : String) : c.flag p = c'.flag p := by
  unfold flag
  rw [h.entity.firstBool?_eq]

theorem referencedEntityClass?_eq (h : c.Same c') :
    c.referencedEntityClass? = c'.referencedEntityClass? :=
  h.entity.firstReference?_eq _

theorem inverseReferenceClass?_eq (h : c.Same c') :
    c.inverseReferenceClass? = c'.inverseReferenceClass? :=
  h.entity.firstReference?_eq _

theorem bounds_eq (h : c.Same c') (min max : String) : c.bounds min max = c'.bounds min max := by
  unfold bounds
  rw [h.id_eq, h.entity.firstInt?_eq, h.entity.firstInt?_eq]

theorem cardinality_eq (h : c.Same c') : c.cardinality = c'.cardinality := h.bounds_eq _ _

theorem inverseCardinality_eq (h : c.Same c') : c.inverseCardinality = c'.inverseCardinality :=
  h.bounds_eq _ _

theorem rule?_eq (h : c.Same c') : c.rule? = c'.rule? := h.name?_eq _

theorem matchesRule_eq (h : c.Same c') {ns ns' : Namespaces} (hns : ns.Same ns') :
    c.matchesRule ns = c'.matchesRule ns' := by
  funext candidate
  unfold matchesRule
  rw [h.rule?_eq, hns.same_eq]

end Constraint.Same

/-! ## Tables -/

namespace OrderedMap.Rel

variable {κ ν ν' : Type} {R : ν → ν' → Prop} {m : OrderedMap κ ν} {m' : OrderedMap κ ν'}

theorem keys_eq (h : m.Rel R m') : m.keys = m'.keys := by
  unfold keys
  unfold Rel at h
  generalize m.toList = l at h ⊢
  generalize m'.toList = l' at h ⊢
  induction h with
  | nil => rfl
  | cons he _ ih => rw [List.map_cons, List.map_cons, he.1, ih]

variable [DecidableEq κ]

theorem get? (h : m.Rel R m') (k : κ) : Option.Rel R (m.get? k) (m'.get? k) := by
  unfold OrderedMap.get?
  unfold Rel at h
  generalize m.toList = l at h ⊢
  generalize m'.toList = l' at h ⊢
  induction h with
  | nil => exact .none
  | @cons e e' l l' he _ ih =>
    rw [find, find, he.1]
    by_cases heq : e'.1 = k
    · rw [if_pos heq, if_pos heq]
      exact .some he.2
    · rw [if_neg heq, if_neg heq]
      exact ih

theorem insert (h : m.Rel R m') (k : κ) {v : ν} {v' : ν'} (hv : R v v') :
    (m.insert k v).Rel R (m'.insert k v') := by
  show List.Forall₂ _ (put k v m.toList) (put k v' m'.toList)
  unfold Rel at h
  generalize m.toList = l at h ⊢
  generalize m'.toList = l' at h ⊢
  induction h with
  | nil => exact .cons ⟨rfl, hv⟩ .nil
  | @cons e e' l l' he hl ih =>
    rw [put, put, he.1]
    by_cases heq : e'.1 = k
    · rw [if_pos heq, if_pos heq]
      exact .cons ⟨rfl, hv⟩ hl
    · rw [if_neg heq, if_neg heq]
      exact .cons ⟨rfl, he.2⟩ ih

end OrderedMap.Rel

theorem OrderedMap.rel_empty {κ ν ν' : Type} (R : ν → ν' → Prop) :
    (∅ : OrderedMap κ ν).Rel R (∅ : OrderedMap κ ν') :=
  List.Forall₂.nil

/-- Elements that are related make related indexes, if they have the same keys. -/
theorem OrderedMap.rel_indexLast {α β κ : Type} [DecidableEq κ] {R : α → β → Prop} {key : α → κ}
    {key' : β → κ} {l : List α} {l' : List β} (h : List.Forall₂ R l l')
    (hkey : ∀ a b, R a b → key a = key' b) : (indexLast key l).Rel R (indexLast key' l') := by
  unfold indexLast
  refine List.rel_foldl (P := OrderedMap.Rel R) (R := R) ?_ (rel_empty R) h
  intro m m' hm a b hab
  simp only [hkey a b hab]
  exact hm.insert _ hab

/-- Elements that are related make related groups, if they have the same keys. -/
theorem OrderedMap.rel_group {α β κ : Type} [DecidableEq κ] {R : α → β → Prop}
    {key : α → Option κ} {key' : β → Option κ} {l : List α} {l' : List β}
    (h : List.Forall₂ R l l') (hkey : ∀ a b, R a b → key a = key' b) :
    (group key l).Rel (List.Forall₂ R) (group key' l') := by
  unfold group
  refine List.rel_foldl (P := OrderedMap.Rel (List.Forall₂ R)) (R := R) ?_ (rel_empty _) h
  intro m m' hm a b hab
  simp only [hkey a b hab]
  cases key' b with
  | none => exact hm
  | some k =>
    refine hm.insert k (List.rel_append ?_ (.cons hab .nil))
    have hget := hm.get? k
    revert hget
    generalize m.get? k = x
    generalize m'.get? k = y
    rintro ⟨⟩
    · assumption
    · exact .nil

/-! ## Schemas -/

/-- Entities that are the same make collections that are, each with its index. -/
theorem Collection.same_of_entities {ns ns' : Namespaces} (hns : ns.Same ns')
    (continuation : Option String) {es es' : List Entity} (h : List.Forall₂ Entity.Same es es') :
    (⟨ns, continuation, es, positions es⟩ : Collection).Same
      ⟨ns', continuation, es', positions es'⟩ := by
  refine ⟨hns, rfl, h, ?_⟩
  unfold positions
  rw [map_eq_of_forall₂ h fun _ _ he => he.id]

/-- Constraints that are the same declare the same predicates. -/
theorem Schema.declared_eq {ns ns' : Namespaces} (hns : ns.Same ns') {cs cs' : List Constraint}
    (hcs : List.Forall₂ Constraint.Same cs cs') {kind : Constraint.Kind}
    {predicate : Constraint → Except SchemaError String}
    (hpredicate : ∀ c c' : Constraint, c.Same c' → predicate c = predicate c') :
    OrderedSet.ofList (cs.filterMap (declaredKey? ns kind predicate)) =
      OrderedSet.ofList (cs'.filterMap (declaredKey? ns' kind predicate)) := by
  refine congrArg OrderedSet.ofList (filterMap_eq_of_forall₂ hcs fun c c' hc => ?_)
  rw [declaredKey?, declaredKey?, hc.kind, hpredicate c c' hc, hns.canonical_eq]

/-- **What is read off collections that are the same is the same.** -/
theorem Collection.Same.schema {c c' : Collection} (h : c.Same c') :
    (Schema.ofCollection c).Same (Schema.ofCollection c') := by
  have hclasses : List.Forall₂ EntityClass.Same (Schema.ofCollection c).classes
      (Schema.ofCollection c').classes := by
    refine List.rel_filterMap (fun e e' he => ?_) h.entities
    unfold Schema.class?
    rw [he.classify_eq h.namespaces]
    cases classify c'.namespaces e' with
    | none => exact .none
    | some d =>
      cases d with
      | cls => exact .some he
      | constraint kind => exact .none
  have hconstraints : List.Forall₂ Constraint.Same (Schema.ofCollection c).constraints
      (Schema.ofCollection c').constraints := by
    refine List.rel_filterMap (fun e e' he => ?_) h.entities
    unfold Schema.constraint?
    rw [he.classify_eq h.namespaces]
    cases classify c'.namespaces e' with
    | none => exact .none
    | some d =>
      cases d with
      | cls => exact .none
      | constraint kind => exact .some ⟨rfl, he⟩
  refine ⟨h, hclasses, hconstraints, ?_, ?_, ?_, ?_, ?_⟩
  · refine OrderedMap.rel_indexLast hclasses fun a b hab => ?_
    rw [hab.id_eq, h.namespaces.canonical_eq]
  · refine OrderedMap.rel_group hconstraints fun a b hab => ?_
    rw [hab.entityClass?_eq, h.namespaces.canonical_eq]
  · refine OrderedMap.rel_group hconstraints fun a b hab => ?_
    unfold Schema.inverseKey?
    rw [hab.kind, hab.inverseReferenceClass?_eq, hab.referencedEntityClass?_eq,
      h.namespaces.canonical_eq]
  · exact Schema.declared_eq h.namespaces hconstraints fun _ _ hab => hab.propertyClass_eq
  · exact Schema.declared_eq h.namespaces hconstraints fun _ _ hab => hab.referenceClass_eq

namespace Schema.Same

variable {s s' : Schema}

theorem namespaces (h : s.Same s') : s.namespaces.Same s'.namespaces := h.collection.namespaces

theorem canonical_eq (h : s.Same s') : s.namespaces.canonical = s'.namespaces.canonical :=
  h.namespaces.canonical_eq

theorem same_eq (h : s.Same s') : s.namespaces.same = s'.namespaces.same := h.namespaces.same_eq

theorem entityClass? (h : s.Same s') (id : String) :
    Option.Rel EntityClass.Same (s.entityClass? id) (s'.entityClass? id) := by
  unfold Schema.entityClass?
  rw [h.canonical_eq]
  have hraw := h.classTable.get? id
  revert hraw
  generalize s.classTable.get? id = x
  generalize s'.classTable.get? id = y
  rintro ⟨⟩
  · exact .some ‹_›
  · exact h.classTable.get? _

theorem entityClass?_eq_none (h : s.Same s') {id : String} (hnone : s.entityClass? id = none) :
    s'.entityClass? id = none := by
  have hrel := h.entityClass? id
  rw [hnone] at hrel
  generalize s'.entityClass? id = y at hrel
  cases hrel
  rfl

theorem exists_entityClass? (h : s.Same s') {id : String} {cls : EntityClass}
    (hsome : s.entityClass? id = some cls) :
    ∃ cls', s'.entityClass? id = some cls' ∧ cls.Same cls' := by
  have hrel := h.entityClass? id
  rw [hsome] at hrel
  generalize s'.entityClass? id = y at hrel
  cases hrel with
  | some hcls => exact ⟨_, rfl, hcls⟩

theorem isSome_entityClass?_eq (h : s.Same s') (id : String) :
    (s.entityClass? id).isSome = (s'.entityClass? id).isSome := by
  cases hx : s.entityClass? id with
  | none => rw [h.entityClass?_eq_none hx]
  | some cls =>
    obtain ⟨cls', hcls', -⟩ := h.exists_entityClass? hx
    rw [hcls']
    rfl

/-- The walks up from classes that are the same agree. -/
theorem ancestorsFrom_eq (h : s.Same s') {unvisited : List String} {cls cls' : EntityClass}
    (hcls : cls.Same cls') : s.ancestorsFrom unvisited cls = s'.ancestorsFrom unvisited cls' := by
  -- along the walk of the first schema; each step finds a class that is the same in the other
  induction unvisited, cls using ancestorsFrom.induct s generalizing cls' with
  | case1 unvisited cls hp =>
    rw [ancestorsFrom, ancestorsFrom, ← hcls.parent?_eq, hp]
  | case2 unvisited cls p hp hnone =>
    rw [ancestorsFrom, ancestorsFrom, ← hcls.parent?_eq, hp]
    simp only [hnone, h.entityClass?_eq_none hnone]
  | case3 unvisited cls p hp parent hsome hmem ih =>
    obtain ⟨parent', hsome', hparent⟩ := h.exists_entityClass? hsome
    rw [ancestorsFrom, ancestorsFrom, ← hcls.parent?_eq, hp]
    simp only [hsome, hsome', ← h.canonical_eq, ← hparent.id_eq, hmem, dite_true, ih hparent]
  | case4 unvisited cls p hp parent hsome hmem =>
    obtain ⟨parent', hsome', hparent⟩ := h.exists_entityClass? hsome
    rw [ancestorsFrom, ancestorsFrom, ← hcls.parent?_eq, hp]
    simp only [hsome, hsome', ← h.canonical_eq, ← hparent.id_eq, hmem, dite_false]

/-- **The hierarchies of a class agree.** -/
theorem hierarchy_eq (h : s.Same s') (id : String) : s.hierarchy id = s'.hierarchy id := by
  unfold hierarchy
  cases hx : s.entityClass? id with
  | none => rw [h.entityClass?_eq_none hx]
  | some cls =>
    obtain ⟨cls', hcls', hcls⟩ := h.exists_entityClass? hx
    simp only [hcls', h.canonical_eq, hcls.id_eq, h.classTable.keys_eq]
    exact h.ancestorsFrom_eq hcls

theorem isSubclassOf_eq (h : s.Same s') (id ancestor : String) :
    s.isSubclassOf id ancestor = s'.isSubclassOf id ancestor := by
  unfold isSubclassOf
  have hnone : (s.entityClass? id).isNone = (s'.entityClass? id).isNone := by
    rw [← Option.not_isSome, ← Option.not_isSome, h.isSome_entityClass?_eq]
  rw [h.same_eq, hnone, h.hierarchy_eq]

theorem entriesAt (h : s.Same s') {table table' : OrderedMap String (List Constraint)}
    (htable : table.Rel (List.Forall₂ Constraint.Same) table') (id : String) :
    List.Forall₂ Constraint.Same (s.entriesAt table id) (s'.entriesAt table' id) := by
  unfold Schema.entriesAt
  rw [h.canonical_eq]
  have hrel := htable.get? (s'.namespaces.canonical id)
  revert hrel
  generalize table.get? (s'.namespaces.canonical id) = x
  generalize table'.get? (s'.namespaces.canonical id) = y
  rintro ⟨⟩
  · assumption
  · exact .nil

theorem entriesFor (h : s.Same s') {table table' : OrderedMap String (List Constraint)}
    (htable : table.Rel (List.Forall₂ Constraint.Same) table') (id : String) (inherited : Bool) :
    SameResult (List.Forall₂ Constraint.Same) (s.entriesFor table id inherited)
      (s'.entriesFor table' id inherited) := by
  unfold Schema.entriesFor
  rw [h.isSome_entityClass?_eq, h.hierarchy_eq]
  split
  · cases s'.hierarchy id with
    | error err => exact .error err
    | ok chain =>
      refine .ok (List.rel_flatMap (List.forall₂_eq_eq_eq ▸ rfl) fun a b hab => ?_)
      exact hab ▸ h.entriesAt htable a
  · exact .ok (h.entriesAt htable id)

/-- **The constraints of a class are the same.** -/
theorem constraintsFor (h : s.Same s') (id : String) (inherited : Bool) :
    SameResult (List.Forall₂ Constraint.Same) (s.constraintsFor id inherited)
      (s'.constraintsFor id inherited) :=
  h.entriesFor h.byClass id inherited

/-- **The inverse constraints of a class are the same.** -/
theorem inverseConstraintsFor (h : s.Same s') (id : String) (inherited : Bool) :
    SameResult (List.Forall₂ Constraint.Same) (s.inverseConstraintsFor id inherited)
      (s'.inverseConstraintsFor id inherited) :=
  h.entriesFor h.byTarget id inherited

theorem isAbstract_eq (h : s.Same s') (id : String) : s.isAbstract id = s'.isAbstract id :=
  any_eq_of_forall₂ (h.entriesAt h.byClass id) fun a b hab => by rw [hab.kind]

theorem declaresProperty_eq (h : s.Same s') (predicate : String) :
    s.declaresProperty predicate = s'.declaresProperty predicate := by
  unfold declaresProperty
  rw [h.declaredProperties, h.canonical_eq]

theorem declaresReference_eq (h : s.Same s') (predicate : String) :
    s.declaresReference predicate = s'.declaresReference predicate := by
  unfold declaresReference
  rw [h.declaredReferences, h.canonical_eq]

end Schema.Same

end EntityGraph
