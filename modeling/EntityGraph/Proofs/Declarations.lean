import EntityGraph.Proofs.Expansion
import EntityGraph.Schema.Compact.Basic
import Mathlib.Data.List.Induction

/-!
# The entities of a compact document

What a compact document stands for, written down without a builder: for each class block the
entity of the class and then one entity for each constraint, with the number of the constraint in
its identifier. An attribute is an entry of the entity if the block gives it.

Results:
* `toList_ofList_of_nodup`: entries with distinct keys make a map with just these entries.
* `PropertyBlock.fill_eq`, `ReferenceBlock.fill_eq`, `ApplicationBlock.fill_eq`: what a block
  writes into a draft.
* `ClassBlock.draft_eq`: what a class block drafts.
* `Document.builder_eq`: the builder of a document holds the entities of the document.
* `Part.reads_back`: an expanded constraint is read as what its block says.
-/

namespace EntityGraph

namespace OrderedMap

variable {κ ν : Type}

/-- The entries of those attributes that are given. -/
def given (l : List (κ × Option ν)) : List (κ × ν) := l.filterMap fun e => e.2.map fun v => (e.1, v)

theorem given_append (l l' : List (κ × Option ν)) : given (l ++ l') = given l ++ given l' :=
  List.filterMap_append

theorem map_fst_given_sublist (l : List (κ × Option ν)) :
    ((given l).map Prod.fst).Sublist (l.map Prod.fst) := by
  induction l with
  | nil => exact .slnil
  | cons e l ih =>
    obtain ⟨k, v?⟩ := e
    cases v? with
    | none => exact ih.cons _
    | some v => exact ih.cons_cons _

theorem mem_given {l : List (κ × Option ν)} {k : κ} {v : ν} :
    (k, v) ∈ given l ↔ (k, some v) ∈ l := by
  unfold given
  rw [List.mem_filterMap]
  constructor
  · rintro ⟨⟨k', v?⟩, hmem, h⟩
    obtain ⟨v', rfl, heq⟩ := Option.map_eq_some_iff.mp h
    obtain ⟨rfl, rfl⟩ := Prod.mk.inj heq
    exact hmem
  · exact fun hmem => ⟨_, hmem, rfl⟩

variable [DecidableEq κ]

theorem ofList_concat (l : List (κ × ν)) (e : κ × ν) :
    ofList (l ++ [e]) = (ofList l).insert e.1 e.2 := by
  unfold ofList
  rw [List.foldl_append]
  rfl

/-- Entries with distinct keys make a map with just these entries. -/
theorem toList_ofList_of_nodup {l : List (κ × ν)} (h : (l.map Prod.fst).Nodup) :
    (ofList l).toList = l := by
  induction l using List.reverseRecOn with
  | nil => rfl
  | append_singleton l e ih =>
    rw [List.map_append, List.nodup_append] at h
    have hl := ih h.1
    have hnew : e.1 ∉ (ofList l).keys := fun hmem => by
      rw [keys, hl] at hmem
      exact h.2.2 e.1 hmem e.1 List.mem_cons_self rfl
    rw [ofList_concat, toList_insert_of_not_mem hnew, hl]

/-- What is held at a key that stands once among the attributes is what is given there. -/
theorem get?_ofList_given {l : List (κ × Option ν)} (h : (l.map Prod.fst).Nodup) (k : κ) :
    (ofList (given l)).get? k = (find k l).join := by
  rw [get?, toList_ofList_of_nodup (h.sublist (map_fst_given_sublist l))]
  induction l with
  | nil => rfl
  | cons e l ih =>
    obtain ⟨k', v?⟩ := e
    rw [List.map_cons, List.nodup_cons] at h
    have hnone : k' = k → find k (given l) = none := fun heq =>
      find_eq_none_iff.mpr fun hmem => h.1 (heq ▸ (map_fst_given_sublist l).subset hmem)
    cases v? with
    | none =>
      show find k (given l) = _
      by_cases hk : k' = k
      · simp [find, hk, hnone hk]
      · simp [find, hk, ih h.2]
    | some v =>
      show find k ((k', v) :: given l) = _
      by_cases hk : k' = k
      · simp [find, hk]
      · simp [find, hk, ih h.2]

theorem keys_ofList_of_nodup {l : List (κ × ν)} (h : (l.map Prod.fst).Nodup) :
    (ofList l).keys = l.map Prod.fst := by
  rw [keys, toList_ofList_of_nodup h]

end OrderedMap

open OrderedMap (given)

/-- Every predicate of the entity is a full URI. -/
structure Entity.FullKeys (e : Entity) : Prop where
  properties : ∀ p ∈ e.properties.keys, isFullUri p = true
  references : ∀ p ∈ e.references.keys, isFullUri p = true

namespace Entity.FullKeys

variable {ns : Namespaces} {e e' : Entity}

theorem property?_expand (h : e.FullKeys) (hexp : e.expand ns = ⟨e', none⟩) (p : String) :
    e'.property? p = e.property? p := by
  have hget := (expand_eq_iff.mp hexp).2.1.get?_eq p
  rw [OrderedMap.last?_of_isFullUri h.properties] at hget
  exact hget.trans (Option.bind_fun_some _)

theorem reference?_expand (h : e.FullKeys) (hexp : e.expand ns = ⟨e', none⟩) (p : String) :
    e'.reference? p = (e.reference? p).bind fun slot => (slot.mapE ns.expand).toOption := by
  have hget := (expand_eq_iff.mp hexp).2.2.1.get?_eq p
  rwa [OrderedMap.last?_of_isFullUri h.references] at hget

end Entity.FullKeys

theorem isFullUri_entityClassType : isFullUri Vocabulary.entityClassType = true := by decide

theorem isFullUri_subClassOf : isFullUri Vocabulary.subClassOf = true := by decide

theorem isFullUri_typeUri (kind : Constraint.Kind) : isFullUri kind.typeUri = true := by
  cases kind <;> decide

/-- An entity that declares one type, and that a kind of constraint, is such a constraint. -/
theorem classify_of_types {ns : Namespaces} {e : Entity} {kind : Constraint.Kind}
    (h : e.types = [kind.typeUri]) : classify ns e = some (.constraint kind) := by
  unfold classify
  rw [h, List.map_singleton,
    Namespaces.canonical_of_expand (Namespaces.expand_of_isFullUri (isFullUri_typeUri kind))]
  cases kind <;> decide

theorem classify_of_types_cls {ns : Namespaces} {e : Entity}
    (h : e.types = [Vocabulary.entityClassType]) : classify ns e = some .cls := by
  unfold classify
  rw [h, List.map_singleton,
    Namespaces.canonical_of_expand (Namespaces.expand_of_isFullUri isFullUri_entityClassType)]
  decide

/-! ## Drafts -/

/-- Writes attributes into a draft. -/
def ConstraintDraft.write (d : ConstraintDraft) (properties : List (String × Slot Literal))
    (references : List (String × Slot String)) : ConstraintDraft :=
  ⟨{ d.entity with
    properties := properties.foldl (fun m e => m.insert e.1 e.2) d.entity.properties
    references := references.foldl (fun m e => m.insert e.1 e.2) d.entity.references }⟩

theorem ConstraintDraft.write_write (d : ConstraintDraft) (ps ps' : List (String × Slot Literal))
    (rs rs' : List (String × Slot String)) :
    (d.write ps rs).write ps' rs' = d.write (ps ++ ps') (rs ++ rs') := by
  unfold write
  rw [List.foldl_append, List.foldl_append]

namespace Compact

theorem nameIf_eq (d : ConstraintDraft) (p : String) (target : Option String) :
    nameIf d p target = d.write [] (given [(p, target.map .one)]) := by
  cases target <;> rfl

theorem boundIf_eq (d : ConstraintDraft) (p : String) (bound : Option Int) :
    boundIf d p bound = d.write (given [(p, bound.map fun i => .one (.int i))]) [] := by
  cases bound <;> rfl

/-- A flag as an attribute, which is given if it is raised. -/
def raised (flag : Bool) : Option (Slot Literal) := if flag then some (.one (.bool true)) else none

theorem flagIf_eq (d : ConstraintDraft) (p : String) (flag : Bool) :
    flagIf d p flag = d.write (given [(p, raised flag)]) [] := by
  cases flag <;> rfl

/-! ## Constraints -/

/-- A constraint that a class block declares: its kind and its attributes, those that are absent
included. An attribute is named by a full URI and stands once. -/
structure Part where
  kind : Constraint.Kind
  properties : List (String × Option (Slot Literal)) := []
  references : List (String × Option (Slot String)) := []
  full_properties : ∀ p ∈ properties.map Prod.fst, isFullUri p = true := by
    simp only [List.map_cons, List.map_nil]; decide +kernel
  full_references : ∀ p ∈ references.map Prod.fst, isFullUri p = true := by
    simp only [List.map_cons, List.map_nil]; decide +kernel
  nodup_properties : (properties.map Prod.fst).Nodup := by
    simp only [List.map_cons, List.map_nil]; decide +kernel
  nodup_references :
      (Vocabulary.rdfType :: Vocabulary.entityClass :: references.map Prod.fst).Nodup := by
    simp only [List.map_cons, List.map_nil]; decide +kernel

namespace Part

/-- What a part writes into a draft. -/
def fill (part : Part) (d : ConstraintDraft) : ConstraintDraft :=
  d.write (given part.properties) (given part.references)

/-- The type of a constraint, its class and the names that it gives. -/
def named (part : Part) (cls : String) : List (String × Slot String) :=
  (Vocabulary.rdfType, .one part.kind.typeUri) :: (Vocabulary.entityClass, .one cls) ::
    given part.references

/-- The constraint of a class as an entity of its own. -/
def entity (part : Part) (cls : String) (n : Nat) : Entity where
  id := SchemaBuilder.constraintId cls n
  properties := .ofList (given part.properties)
  references := .ofList (part.named cls)

theorem nodup_given_properties (part : Part) : ((given part.properties).map Prod.fst).Nodup :=
  part.nodup_properties.sublist (OrderedMap.map_fst_given_sublist _)

theorem nodup_named (part : Part) (cls : String) : ((part.named cls).map Prod.fst).Nodup :=
  part.nodup_references.sublist
    (((OrderedMap.map_fst_given_sublist _).cons_cons _).cons_cons _)

theorem fullKeys_entity (part : Part) (cls : String) (n : Nat) :
    (part.entity cls n).FullKeys where
  properties := by
    intro p hp
    unfold entity at hp
    rw [OrderedMap.keys_ofList_of_nodup part.nodup_given_properties] at hp
    exact part.full_properties p ((OrderedMap.map_fst_given_sublist _).subset hp)
  references := by
    intro p hp
    unfold entity at hp
    rw [OrderedMap.keys_ofList_of_nodup (part.nodup_named cls)] at hp
    rcases List.mem_cons.mp hp with rfl | hp
    · show isFullUri Vocabulary.rdfType = true
      decide
    · rcases List.mem_cons.mp hp with rfl | hp
      · show isFullUri Vocabulary.entityClass = true
        decide
      · exact part.full_references p ((OrderedMap.map_fst_given_sublist _).subset hp)

theorem reference?_entity_rdfType (part : Part) (cls : String) (n : Nat) :
    (part.entity cls n).reference? Vocabulary.rdfType = some (.one part.kind.typeUri) := by
  refine OrderedMap.mem_toList_iff.mp ?_
  unfold entity
  rw [OrderedMap.toList_ofList_of_nodup (part.nodup_named cls)]
  exact List.mem_cons_self

theorem reference?_entity_entityClass (part : Part) (cls : String) (n : Nat) :
    (part.entity cls n).reference? Vocabulary.entityClass = some (.one cls) := by
  refine OrderedMap.mem_toList_iff.mp ?_
  unfold entity
  rw [OrderedMap.toList_ofList_of_nodup (part.nodup_named cls)]
  exact List.mem_cons_of_mem _ List.mem_cons_self

/-- **An expanded constraint is read as what its block says**: it has the kind of the block, the
identifier made of the class and the number, and the class that it was written for. -/
theorem reads_back {part : Part} {cls : String} {n : Nat} {ns : Namespaces} {e : Entity}
    (h : (part.entity cls n).expand ns = ⟨e, none⟩) :
    classify ns e = some (.constraint part.kind) ∧
      ns.expand (SchemaBuilder.constraintId cls n) = .ok e.id ∧
      ∃ uri, ns.expand cls = .ok uri ∧ e.firstReference? Vocabulary.entityClass = some uri := by
  have hkeys := part.fullKeys_entity cls n
  refine ⟨classify_of_types ?_, (Entity.expand_eq_iff.mp h).1, ?_⟩
  · unfold Entity.types Entity.referenceValues
    rw [hkeys.reference?_expand h, reference?_entity_rdfType, Option.bind_some, Slot.mapE,
      Namespaces.expand_of_isFullUri (isFullUri_typeUri part.kind)]
    rfl
  · obtain ⟨v, hv⟩ := (OrderedMap.exists_expands_iff.mp ⟨_, (Entity.expand_eq_iff.mp h).2.2.1⟩ _
      (OrderedMap.mem_toList_of_get? (part.reference?_entity_entityClass cls n))).2
    cases huri : ns.expand cls with
    | error err =>
      rw [Slot.mapE, huri] at hv
      cases hv
    | ok uri =>
      refine ⟨uri, rfl, ?_⟩
      unfold Entity.firstReference?
      rw [hkeys.reference?_expand h, reference?_entity_entityClass, Option.bind_some, Slot.mapE,
        huri]
      rfl

end Part

/-- A class without instances of its own. -/
def abstractness : Part where
  kind := .isAbstract

/-- The constraint of a property block. -/
def PropertyBlock.part (b : PropertyBlock) : Part where
  kind := .property
  properties := [
    (Vocabulary.minCard, b.min.map fun i => .one (.int i)),
    (Vocabulary.maxCard, b.max.map fun i => .one (.int i)),
    (Vocabulary.sortable, raised b.sortable),
    (Vocabulary.queryable, raised b.queryable),
    (Vocabulary.isUnique, raised b.isUnique)]
  references := [
    (Vocabulary.propertyClass, b.propertyClass.map .one),
    (Vocabulary.datatype, b.datatype.map .one)]

/-- The constraint of a reference block. -/
def ReferenceBlock.part (b : ReferenceBlock) : Part where
  kind := .reference
  properties := [
    (Vocabulary.minCard, b.min.map fun i => .one (.int i)),
    (Vocabulary.maxCard, b.max.map fun i => .one (.int i)),
    (Vocabulary.inverseMinCard, b.inverseMin.map fun i => .one (.int i)),
    (Vocabulary.inverseMaxCard, b.inverseMax.map fun i => .one (.int i))]
  references := [
    (Vocabulary.referenceClass, b.referenceClass.map .one),
    (Vocabulary.referencedEntityClass, b.referencedEntityClass.map .one),
    (Vocabulary.inverseReferenceClass, b.inverseReferenceClass.map .one)]

/-- The constraint of an application block. -/
def ApplicationBlock.part (b : ApplicationBlock) : Part where
  kind := .application
  references := [(Vocabulary.rule, b.rule.map .one)]

theorem PropertyBlock.fill_eq (b : PropertyBlock) (d : ConstraintDraft) :
    b.fill d = b.part.fill d := by
  simp only [PropertyBlock.fill, nameIf_eq, boundIf_eq, flagIf_eq, ConstraintDraft.write_write,
    ← OrderedMap.given_append, List.nil_append, List.append_nil, List.cons_append]
  rfl

theorem ReferenceBlock.fill_eq (b : ReferenceBlock) (d : ConstraintDraft) :
    b.fill d = b.part.fill d := by
  simp only [ReferenceBlock.fill, nameIf_eq, boundIf_eq, ConstraintDraft.write_write,
    ← OrderedMap.given_append, List.nil_append, List.append_nil, List.cons_append]
  rfl

theorem ApplicationBlock.fill_eq (b : ApplicationBlock) (d : ConstraintDraft) :
    b.fill d = b.part.fill d :=
  nameIf_eq d Vocabulary.rule b.rule

namespace ClassBlock

/-- The constraints of a block, abstractness apart. -/
def nested (b : ClassBlock) : List Part :=
  b.propertyConstraints.map PropertyBlock.part ++ b.referenceConstraints.map ReferenceBlock.part ++
    b.applicationConstraints.map ApplicationBlock.part

/-- The constraints of a block: abstractness, if the class is abstract, and then those that are
nested in it. -/
def parts (b : ClassBlock) : List Part := (if b.isAbstract then [abstractness] else []) ++ b.nested

theorem constraints_eq (b : ClassBlock) :
    b.constraints = b.nested.map fun part => (part.kind, part.fill) := by
  unfold constraints nested
  simp only [List.map_append, List.map_map]
  congr 1
  · congr 1
    · exact List.map_congr_left fun c _ => Prod.ext rfl (funext c.fill_eq)
    · exact List.map_congr_left fun c _ => Prod.ext rfl (funext c.fill_eq)
  · exact List.map_congr_left fun c _ => Prod.ext rfl (funext c.fill_eq)

/-! ## Classes -/

/-- The slot of declared parents: one, or a sequence of several. -/
def parents? : List String → Option (Slot String)
  | [] => none
  | [parent] => some (.one parent)
  | parents => some (.many parents)

/-- The label and the description of a class. -/
def texts (b : ClassBlock) : List (String × Option (Slot Literal)) := [
  (Vocabulary.label, b.label.map fun s => .one (.string s)),
  (Vocabulary.description, b.description.map fun s => .one (.string s))]

/-- The type of a class and its parents. -/
def ties (b : ClassBlock) : List (String × Option (Slot String)) := [
  (Vocabulary.rdfType, some (.one Vocabulary.entityClassType)),
  (Vocabulary.subClassOf, parents? b.superclasses)]

/-- The class of a block as an entity: what the block says of the class itself, and over it the
further properties and references. -/
def entity (b : ClassBlock) : Entity where
  id := b.id
  properties := .ofList (given b.texts ++ b.props.toList.map fun e => (e.1, .one e.2))
  references := .ofList (given b.ties ++ b.refs.toList.map fun e => (e.1, .one e.2))

theorem parents?_eq_none_iff {parents : List String} : parents? parents = none ↔ parents = [] :=
  match parents with
  | [] => by simp [parents?]
  | [_] => by simp [parents?]
  | _ :: _ :: _ => by simp [parents?]

theorem parents?_eq_one_iff {parents : List String} {parent : String} :
    parents? parents = some (.one parent) ↔ parents = [parent] :=
  match parents with
  | [] => by simp [parents?]
  | [_] => by simp [parents?]
  | _ :: _ :: _ => by simp [parents?]

theorem toList_parents? (parents : List String) :
    (parents? parents).elim [] Slot.toList = parents :=
  match parents with
  | [] => rfl
  | [_] => rfl
  | _ :: _ :: _ => rfl

theorem mapE_parents? {ε : Type} {f : String → Except ε String} {parents uris : List String}
    (h : parents.mapM f = .ok uris) :
    (parents? parents).bind (fun slot => (slot.mapE f).toOption) = parents? uris := by
  match parents, uris, mapM_eq_ok_iff.mp h with
  | [], [], _ => rfl
  | [p], [u], h =>
    obtain ⟨hp, -⟩ := List.forall₂_cons.mp h
    simp [parents?, Slot.mapE, hp, Except.map, Except.toOption]
  | p :: q :: ps, u :: v :: us, h =>
    have hall := mapM_eq_ok_iff.mpr h
    simp only [parents?, Option.bind_some, Slot.mapE, hall, Except.map, Except.toOption]

/-- A slot of parents is read exactly if the parents are. -/
theorem exists_mapE_iff {ε : Type} {f : String → Except ε String} {parents : List String}
    {slot : Slot String} (h : parents? parents = some slot) :
    (∃ slot', slot.mapE f = .ok slot') ↔ ∃ uris, parents.mapM f = .ok uris := by
  match parents, h with
  | [p], h =>
    obtain rfl := Option.some.inj h
    rw [Slot.mapE, List.mapM_cons, List.mapM_nil]
    cases f p <;> simp [Except.map]
  | p :: q :: ps, h =>
    obtain rfl := Option.some.inj h
    rw [Slot.mapE]
    cases (p :: q :: ps).mapM f <;> simp [Except.map]

theorem nodup_texts (b : ClassBlock) : (b.texts.map Prod.fst).Nodup := by
  simp only [texts, List.map_cons, List.map_nil]
  decide

theorem full_texts (b : ClassBlock) : ∀ p ∈ b.texts.map Prod.fst, isFullUri p = true := by
  simp only [texts, List.map_cons, List.map_nil]
  decide +kernel

theorem nodup_ties (b : ClassBlock) : (b.ties.map Prod.fst).Nodup := by
  simp only [ties, List.map_cons, List.map_nil]
  decide

theorem full_ties (b : ClassBlock) : ∀ p ∈ b.ties.map Prod.fst, isFullUri p = true := by
  simp only [ties, List.map_cons, List.map_nil]
  decide +kernel

theorem foldl_addParent (id : String) (parents : List String) :
    parents.foldl ClassDraft.addParent (.named id) = ⟨{ id, references := .ofList (given [
      (Vocabulary.rdfType, some (.one Vocabulary.entityClassType)),
      (Vocabulary.subClassOf, parents? parents)]) }, false⟩ := by
  induction parents using List.reverseRecOn with
  | nil => rfl
  | append_singleton parents p ih =>
    rw [List.foldl_append, ih]
    cases parents with
    | nil => rfl
    | cons q parents =>
      cases parents <;> rfl

/-- Properties set one after another are inserted one after another. -/
theorem foldl_setProperty (l : List (String × Literal)) (d : ClassDraft) :
    l.foldl (fun d (p, v) => d.setProperty p v) d = { d with entity := { d.entity with
      properties := (l.map fun e => (e.1, Slot.one e.2)).foldl (fun m e => m.insert e.1 e.2)
        d.entity.properties } } := by
  induction l generalizing d with
  | nil => rfl
  | cons e l ih => exact ih _

/-- References set one after another are inserted one after another. -/
theorem foldl_setReference (l : List (String × String)) (d : ClassDraft) :
    l.foldl (fun d (p, t) => d.setReference p t) d = { d with entity := { d.entity with
      references := (l.map fun e => (e.1, Slot.one e.2)).foldl (fun m e => m.insert e.1 e.2)
        d.entity.references } } := by
  induction l generalizing d with
  | nil => rfl
  | cons e l ih => exact ih _

/-- **What a class block drafts.** -/
theorem draft_eq (b : ClassBlock) : b.draft = ⟨b.entity, b.isAbstract⟩ := by
  unfold draft entity texts ties
  simp only [foldl_setProperty, foldl_setReference, foldl_addParent, OrderedMap.ofList,
    List.foldl_append]
  cases b.label <;> cases b.description <;> cases b.isAbstract <;> rfl

/-- The entities of a block, the first of its constraints with the number `n`. -/
def entities (b : ClassBlock) (n : Nat) : List Entity :=
  b.entity :: (b.parts.zipIdx n).map fun (part, i) => part.entity b.id i

/-- Parts are added one after another, each under the next number. -/
theorem foldl_addConstraint (cls : String) (parts : List Part) (builder : SchemaBuilder) :
    (parts.map fun part => (part.kind, part.fill)).foldl (fun builder (kind, fill) =>
      let (d, builder) := builder.startConstraint kind cls
      builder.addConstraint (fill d)) builder =
    { builder with
      entities := builder.entities ++
        (parts.zipIdx builder.next).map fun e => e.1.entity cls e.2
      next := builder.next + parts.length } := by
  induction parts generalizing builder with
  | nil => simp
  | cons part parts ih =>
    rw [List.map_cons, List.foldl_cons]
    refine (ih _).trans ?_
    simp only [SchemaBuilder.startConstraint, SchemaBuilder.addConstraint, SchemaBuilder.addEntity,
      List.zipIdx_cons, List.map_cons, List.append_assoc, List.singleton_append, List.length_cons]
    congr 1
    omega

/-- **What a block adds to a builder**: its entities. -/
theorem addTo_eq (b : ClassBlock) (builder : SchemaBuilder) :
    addTo builder b = { builder with
      entities := builder.entities ++ b.entities builder.next
      next := builder.next + b.parts.length } := by
  unfold addTo entities parts
  rw [constraints_eq, foldl_addConstraint, draft_eq]
  unfold SchemaBuilder.addClass
  cases b.isAbstract with
  | false => simp [SchemaBuilder.addEntity]
  | true =>
    have habstract : ((builder.addEntity b.entity).addAbstract b.id).2 = { builder with
        entities := builder.entities ++ [b.entity] ++ [abstractness.entity b.id builder.next]
        next := builder.next + 1 } := rfl
    rw [if_pos rfl, show b.entity.id = b.id from rfl, habstract]
    simp [Nat.add_assoc, Nat.add_comm 1]

end ClassBlock

/-- The entities of blocks, the first of their constraints with the number `n`. -/
def entitiesFrom (n : Nat) : List ClassBlock → List Entity
  | [] => []
  | b :: bs => b.entities n ++ entitiesFrom (n + b.parts.length) bs

theorem foldl_addTo (bs : List ClassBlock) (builder : SchemaBuilder) :
    (bs.foldl ClassBlock.addTo builder).entities =
        builder.entities ++ entitiesFrom builder.next bs ∧
      (bs.foldl ClassBlock.addTo builder).namespaces = builder.namespaces := by
  induction bs generalizing builder with
  | nil => exact ⟨(List.append_nil _).symm, rfl⟩
  | cons b bs ih =>
    rw [List.foldl_cons, ClassBlock.addTo_eq]
    obtain ⟨hentities, hnamespaces⟩ := ih { builder with
      entities := builder.entities ++ b.entities builder.next
      next := builder.next + b.parts.length }
    exact ⟨hentities.trans (List.append_assoc _ _ _), hnamespaces⟩

namespace Document

/-- The entities of a document. -/
def entities (doc : Document) : List Entity := entitiesFrom 0 doc.classes

/-- The namespace table of a document. -/
def table (doc : Document) : Namespaces := Namespaces.standard.bindAll doc.namespaces.toList

theorem foldl_bind (l : List (String × String)) (b : SchemaBuilder) :
    l.foldl (fun b (label, expansion) => b.bind label expansion) b =
      { b with namespaces := b.namespaces.bindAll l } := by
  induction l generalizing b with
  | nil => rfl
  | cons e l ih => exact ih _

/-- **The builder of a document holds the entities of the document.** -/
theorem builder_eq (doc : Document) :
    doc.builder.entities = doc.entities ∧ doc.builder.namespaces = doc.table := by
  unfold builder
  rw [foldl_bind]
  exact foldl_addTo doc.classes _

/-- **The schema of a document** is read off its entities, expanded. -/
theorem schema_eq_ok_iff {doc : Document} {s : Schema} :
    doc.schema = .ok s ↔ ∃ es,
      List.Forall₂ (fun e e' => e.expand doc.table = ⟨e', none⟩) doc.entities es ∧
      (es.map Entity.id).Nodup ∧
      s = .ofCollection ⟨doc.table, none, es, Collection.positions es⟩ := by
  unfold schema
  rw [SchemaBuilder.build_eq_ok_iff, doc.builder_eq.1, doc.builder_eq.2]

end Document

end Compact

end EntityGraph
