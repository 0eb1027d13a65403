import EntityGraph.Proofs.Expansion
import EntityGraph.Proofs.Lineage
import EntityGraph.Proofs.Occurrence
import EntityGraph.Proofs.Sameness
import Mathlib.Data.List.Perm.Basic

/-!
# Schemas and entities in another order

The entities of a schema may be declared in any order, and so may the predicates and the types of an
entity. No two entities of an expanded collection have one identifier, so a look-up has one answer
wherever it stands, and a list of constraints has the same members. Where no two predicates of an
entity denote the same, what is found at a predicate does not depend on the order either.

Results:
* `Schema.Reordered.right`: an expanded collection is one in any order.
* `Schema.Reordered.hierarchy_eq`, `Schema.Reordered.isSubclassOf_eq`: the hierarchy stays.
* `Schema.Reordered.constraintsFor`, `Schema.Reordered.inverseConstraintsFor`: constraints are the
  same up to their order.
* `Entity.Reordered.propertyCountAt_eq`, `Entity.Reordered.targetsAt_perm`: so is what an entity has
  at a predicate.
-/

namespace EntityGraph

/-! ## Entities -/

/-- Two slots that differ at most in the order of their values. -/
inductive Slot.Reordered {α : Type} : Slot α → Slot α → Prop
  | one (a : α) : Reordered (.one a) (.one a)
  | many {as bs : List α} (h : as.Perm bs) : Reordered (.many as) (.many bs)

/-- Two entities that differ at most in the order of their predicates and of their types. -/
structure Entity.Reordered (e e' : Entity) : Prop where
  id : e.id = e'.id
  property? : ∀ p, e.property? p = e'.property? p
  reference? : ∀ p, p ≠ Vocabulary.rdfType → e.reference? p = e'.reference? p
  types : Option.Rel Slot.Reordered (e.reference? Vocabulary.rdfType)
    (e'.reference? Vocabulary.rdfType)
  deleted : e.deleted = e'.deleted

theorem Slot.Reordered.refl {α : Type} (slot : Slot α) : slot.Reordered slot := by
  cases slot with
  | one a => exact .one a
  | many as => exact .many (.refl as)

theorem Slot.Reordered.trans {α : Type} {a b c : Slot α} (h : a.Reordered b)
    (h' : b.Reordered c) : a.Reordered c := by
  cases h with
  | one a => exact h'
  | many h =>
    cases h' with
    | many h' => exact .many (h.trans h')

theorem Slot.Reordered.toList_perm {α : Type} {slot slot' : Slot α} (h : slot.Reordered slot') :
    slot.toList.Perm slot'.toList := by
  cases h with
  | one a => exact .refl _
  | many h => exact h

namespace OrderedMap

variable {α : Type} {ns : Namespaces} {R : α → α → Prop} {slots slots' : OrderedMap String α}

/-- Tables that answer alike have the same keys. -/
theorem keys_perm (h : ∀ p, Option.Rel R (slots.get? p) (slots'.get? p)) :
    slots.keys.Perm slots'.keys := by
  refine (List.perm_ext_iff_of_nodup slots.nodup slots'.nodup).mpr fun p => ?_
  show p ∈ slots.keys ↔ p ∈ slots'.keys
  rw [mem_keys_iff, mem_keys_iff]
  have hrel := h p
  generalize slots.get? p = x at hrel
  generalize slots'.get? p = y at hrel
  cases hrel with
  | none => simp
  | some _ => simp

/-- Tables with the same entries in another order answer alike. -/
theorem get?_eq_of_perm (h : slots.toList.Perm slots'.toList) (p : String) :
    slots.get? p = slots'.get? p := by
  ext a
  rw [← mem_toList_iff, ← mem_toList_iff]
  exact h.mem_iff

/-- What is found at a predicate is what stands at a key that denotes the same. -/
theorem getSame?_eq_some_iff (h : (slots.keys.map ns.canonical).Nodup) {p : String} {a : α} :
    slots.getSame? ns p = some a ↔ ∃ k, slots.get? k = some a ∧ ns.same k p = true := by
  rw [← Option.mem_toList, ← filter_same_eq h, List.mem_map]
  constructor
  · rintro ⟨⟨k, b⟩, hmem, rfl⟩
    obtain ⟨hmem, hsame⟩ := List.mem_filter.mp hmem
    exact ⟨k, mem_toList_iff.mp hmem, hsame⟩
  · rintro ⟨k, hget, hsame⟩
    exact ⟨(k, a), List.mem_filter.mpr ⟨mem_toList_iff.mpr hget, hsame⟩, rfl⟩

/-- Where no two keys denote the same, tables that answer alike also do so in other spellings. -/
theorem rel_getSame? (h : (slots.keys.map ns.canonical).Nodup)
    (hrel : ∀ p, Option.Rel R (slots.get? p) (slots'.get? p)) (p : String) :
    Option.Rel R (slots.getSame? ns p) (slots'.getSame? ns p) := by
  have h' : (slots'.keys.map ns.canonical).Nodup := ((keys_perm hrel).map _).nodup_iff.mp h
  cases hx : slots.getSame? ns p with
  | none =>
    cases hy : slots'.getSame? ns p with
    | none => exact .none
    | some b =>
      obtain ⟨k, hget, hsame⟩ := (getSame?_eq_some_iff h').mp hy
      have hk := hrel k
      rw [hget] at hk
      cases hfound : slots.get? k with
      | none => rw [hfound] at hk; cases hk
      | some a =>
        rw [(getSame?_eq_some_iff h).mpr ⟨k, hfound, hsame⟩] at hx
        cases hx
  | some a =>
    obtain ⟨k, hget, hsame⟩ := (getSame?_eq_some_iff h).mp hx
    have hk := hrel k
    rw [hget] at hk
    cases hfound : slots'.get? k with
    | none => rw [hfound] at hk; cases hk
    | some b =>
      rw [hfound] at hk
      rw [(getSame?_eq_some_iff h').mpr ⟨k, hfound, hsame⟩]
      exact hk

end OrderedMap

namespace Entity.Reordered

variable {e e' : Entity} {ns : Namespaces}

theorem refl (e : Entity) : e.Reordered e where
  id := rfl
  property? _ := rfl
  reference? _ _ := rfl
  types := by
    cases e.reference? Vocabulary.rdfType with
    | none => exact .none
    | some slot => exact .some (.refl slot)
  deleted := rfl

/-- The predicates of an entity may be put in any order. -/
theorem of_perm {properties : OrderedMap String (Slot Literal)}
    {references : OrderedMap String (Slot String)}
    (hproperties : e.properties.toList.Perm properties.toList)
    (hreferences : e.references.toList.Perm references.toList) :
    e.Reordered { e with properties, references } where
  id := rfl
  property? := OrderedMap.get?_eq_of_perm hproperties
  reference? p _ := OrderedMap.get?_eq_of_perm hreferences p
  types := by
    have heq : e.reference? Vocabulary.rdfType = references.get? Vocabulary.rdfType :=
      OrderedMap.get?_eq_of_perm hreferences _
    rw [heq]
    exact (refl { e with references }).types
  deleted := rfl

/-- So may its types. -/
theorem of_types {as bs : List String} (hsome : e.reference? Vocabulary.rdfType = some (.many as))
    (h : as.Perm bs) : e.Reordered (e.setReference Vocabulary.rdfType (.many bs)) where
  id := rfl
  property? _ := rfl
  reference? p hp := by
    have hget : (e.setReference Vocabulary.rdfType (.many bs)).reference? p = e.reference? p := by
      unfold setReference Entity.reference?
      rw [OrderedMap.get?_insert, if_neg (Ne.symm hp)]
    exact hget.symm
  types := by
    have hget : (e.setReference Vocabulary.rdfType (.many bs)).reference? Vocabulary.rdfType =
        some (.many bs) := by
      unfold setReference Entity.reference?
      rw [OrderedMap.get?_insert, if_pos rfl]
    rw [hsome, hget]
    exact .some (.many h)
  deleted := rfl

theorem trans {e'' : Entity} (h : e.Reordered e') (h' : e'.Reordered e'') : e.Reordered e'' where
  id := h.id.trans h'.id
  property? p := (h.property? p).trans (h'.property? p)
  reference? p hp := (h.reference? p hp).trans (h'.reference? p hp)
  types := by
    have hrel := h.types
    have hrel' := h'.types
    generalize e.reference? Vocabulary.rdfType = x at hrel
    generalize e'.reference? Vocabulary.rdfType = y at hrel hrel'
    generalize e''.reference? Vocabulary.rdfType = z at hrel'
    cases hrel with
    | none =>
      cases hrel'
      exact .none
    | some hslot =>
      cases hrel' with
      | some hslot' => exact .some (hslot.trans hslot')
  deleted := h.deleted.trans h'.deleted

theorem rel_properties (h : e.Reordered e') (p : String) :
    Option.Rel Eq (e.properties.get? p) (e'.properties.get? p) := by
  have heq : e.properties.get? p = e'.properties.get? p := h.property? p
  rw [heq]
  cases e'.properties.get? p with
  | none => exact .none
  | some slot => exact .some rfl

theorem rel_references (h : e.Reordered e') (p : String) :
    Option.Rel Slot.Reordered (e.references.get? p) (e'.references.get? p) := by
  by_cases hp : p = Vocabulary.rdfType
  · subst hp
    exact h.types
  · have heq : e.references.get? p = e'.references.get? p := h.reference? p hp
    rw [heq]
    cases e'.references.get? p with
    | none => exact .none
    | some slot => exact .some (.refl slot)

/-- The types are the same up to their order. -/
theorem types_perm (h : e.Reordered e') : e.types.Perm e'.types := by
  unfold Entity.types referenceValues
  have hrel := h.types
  generalize e.reference? Vocabulary.rdfType = x at hrel
  generalize e'.reference? Vocabulary.rdfType = y at hrel
  cases hrel with
  | none => exact .refl _
  | some hslot => exact hslot.toList_perm

/-- **A property has as many values.** -/
theorem propertyCountAt_eq (h : e.Reordered e') (hdist : e.DistinctPredicates ns) (p : String) :
    e.propertyCountAt ns p = e'.propertyCountAt ns p := by
  unfold propertyCountAt
  have hrel := OrderedMap.rel_getSame? hdist.1 h.rel_properties p
  generalize e.properties.getSame? ns p = x at hrel
  generalize e'.properties.getSame? ns p = y at hrel
  cases hrel with
  | none => rfl
  | some heq => rw [heq]

/-- **A reference has the same targets up to their order.** -/
theorem targetsAt_perm (h : e.Reordered e') (hdist : e.DistinctPredicates ns) (p : String) :
    (e.targetsAt ns p).Perm (e'.targetsAt ns p) := by
  unfold targetsAt
  have hrel := OrderedMap.rel_getSame? hdist.2 h.rel_references p
  generalize e.references.getSame? ns p = x at hrel
  generalize e'.references.getSame? ns p = y at hrel
  cases hrel with
  | none => exact .refl _
  | some hslot => exact hslot.toList_perm

end Entity.Reordered

/-! ## Collections and schemas -/

/-- Two collections that differ in the order of their entities, each indexed by its own. -/
structure Collection.Reordered (c c' : Collection) : Prop where
  namespaces : c'.namespaces = c.namespaces
  continuation : c'.continuation = c.continuation
  entities : c.entities.Perm c'.entities
  index : c'.index = Collection.positions c'.entities

/-- An expanded collection is one in any order: the entities it was expanded from may be put in the
same order. -/
theorem Collection.Reordered.exists_expanded {c₀ c c' : Collection} (h : c.Reordered c')
    (hexp : c₀.expanded = .ok c) : ∃ c₁ : Collection, c₁.expanded = .ok c' := by
  obtain ⟨es, hes, hnodup, rfl⟩ := Collection.expanded_eq_ok_iff.mp hexp
  obtain ⟨before, hbefore, hexpands⟩ : Relation.Comp List.Perm
      (List.Forall₂ fun e e' => e.expand c₀.namespaces = ⟨e', none⟩) c₀.entities c'.entities := by
    rw [← List.forall₂_comp_perm_eq_perm_comp_forall₂]
    exact ⟨es, hes, h.entities⟩
  refine ⟨⟨c₀.namespaces, c₀.continuation, before, ∅⟩,
    Collection.expanded_eq_ok_iff.mpr ⟨c'.entities, hexpands, ?_, ?_⟩⟩
  · exact (h.entities.map _).nodup_iff.mp hnodup
  · obtain ⟨ns, continuation, entities, index⟩ := c'
    obtain ⟨hns, hcontinuation, -, hindex⟩ := h
    simp only at hns hcontinuation hindex
    rw [hns, hcontinuation, hindex]

/-- Two schemas that are read off one expanded collection in two orders. -/
structure Schema.Reordered (s s' : Schema) : Prop where
  left : s.FromExpanded
  collection : s.collection.Reordered s'.collection
  ofCollection : s' = .ofCollection s'.collection

namespace Schema.Reordered

variable {s s' : Schema}

theorem namespaces_eq (h : s.Reordered s') : s'.namespaces = s.namespaces :=
  h.collection.namespaces

/-- **An expanded collection in another order makes a schema of the same sort.** -/
theorem right (h : s.Reordered s') : s'.FromExpanded := by
  refine ⟨h.namespaces_eq.symm ▸ h.left.expansions, ?_⟩
  obtain ⟨c₀, c, hexp, hs⟩ := h.left.source
  have hcollection : s.collection = c := congrArg Schema.collection hs
  obtain ⟨c₁, hc₁⟩ := h.collection.exists_expanded (hcollection ▸ hexp)
  exact ⟨c₁, s'.collection, hc₁, h.ofCollection⟩

theorem classes_perm (h : s.Reordered s') : s.classes.Perm s'.classes := by
  rw [h.left.eq_ofCollection, h.ofCollection]
  show (s.collection.entities.filterMap (class? s.collection.namespaces)).Perm
    (s'.collection.entities.filterMap (class? s'.collection.namespaces))
  rw [h.collection.namespaces]
  exact h.collection.entities.filterMap _

theorem constraints_perm (h : s.Reordered s') : s.constraints.Perm s'.constraints := by
  rw [h.left.eq_ofCollection, h.ofCollection]
  show (s.collection.entities.filterMap (constraint? s.collection.namespaces)).Perm
    (s'.collection.entities.filterMap (constraint? s'.collection.namespaces))
  rw [h.collection.namespaces]
  exact h.collection.entities.filterMap _

/-- A look-up finds the same class. -/
theorem entityClass?_eq (h : s.Reordered s') (id : String) :
    s.entityClass? id = s'.entityClass? id := by
  ext cls
  rw [h.left.entityClass?_eq_some_iff, h.right.entityClass?_eq_some_iff]
  unfold Declares
  rw [h.namespaces_eq, h.classes_perm.mem_iff]

theorem keys_classTable_perm (h : s.Reordered s') :
    s.classTable.keys.Perm s'.classTable.keys := by
  refine OrderedMap.keys_perm (R := Eq) fun id => ?_
  have hget : s.classTable.get? id = s'.classTable.get? id := by
    ext cls
    rw [h.left.get?_classTable, h.right.get?_classTable, h.classes_perm.mem_iff]
  rw [hget]
  cases s'.classTable.get? id with
  | none => exact .none
  | some cls => exact .some rfl

/-- The walks up from a class agree, in whatever order the classes are listed that they have not
met. -/
theorem ancestorsFrom_eq (h : s.Reordered s') {unvisited unvisited' : List String}
    (hperm : unvisited.Perm unvisited') (cls : EntityClass) :
    s.ancestorsFrom unvisited cls = s'.ancestorsFrom unvisited' cls := by
  induction unvisited, cls using ancestorsFrom.induct s generalizing unvisited' with
  | case1 unvisited cls hp => rw [ancestorsFrom, ancestorsFrom, hp]
  | case2 unvisited cls p hp hnone =>
    rw [ancestorsFrom, ancestorsFrom, hp]
    simp only [← h.entityClass?_eq, hnone]
  | case3 unvisited cls p hp parent hsome hmem ih =>
    have hmem' := hperm.mem_iff.mp hmem
    rw [ancestorsFrom, ancestorsFrom, hp]
    simp only [← h.entityClass?_eq, hsome, h.namespaces_eq, hmem, hmem', dite_true,
      ih (hperm.erase _)]
  | case4 unvisited cls p hp parent hsome hmem =>
    have hmem' := mt hperm.mem_iff.mpr hmem
    rw [ancestorsFrom, ancestorsFrom, hp]
    simp only [← h.entityClass?_eq, hsome, h.namespaces_eq, hmem, hmem', dite_false]

/-- **The hierarchies of a class agree.** -/
theorem hierarchy_eq (h : s.Reordered s') (id : String) : s.hierarchy id = s'.hierarchy id := by
  unfold hierarchy
  rw [← h.entityClass?_eq, h.namespaces_eq]
  cases s.entityClass? id with
  | none => rfl
  | some cls => exact h.ancestorsFrom_eq (h.keys_classTable_perm.erase _) cls

/-- **One class descends from another in either order.** -/
theorem isSubclassOf_eq (h : s.Reordered s') (id ancestor : String) :
    s.isSubclassOf id ancestor = s'.isSubclassOf id ancestor := by
  unfold isSubclassOf
  rw [h.namespaces_eq, h.entityClass?_eq, h.hierarchy_eq]

theorem entriesAt_byClass_perm (h : s.Reordered s') (id : String) :
    (s.entriesAt s.byClass id).Perm (s'.entriesAt s'.byClass id) := by
  rw [h.left.entriesAt_byClass, h.right.entriesAt_byClass]
  unfold constraintsAt
  rw [h.namespaces_eq]
  exact h.constraints_perm.filter _

theorem entriesAt_byTarget_perm (h : s.Reordered s') (id : String) :
    (s.entriesAt s.byTarget id).Perm (s'.entriesAt s'.byTarget id) := by
  have hgroup : ∀ {s : Schema}, s = .ofCollection s.collection →
      s.byTarget = .group (inverseKey? s.namespaces) s.constraints := by
    intro s hs
    rw [hs]
    rfl
  unfold entriesAt
  rw [hgroup h.left.eq_ofCollection, hgroup h.ofCollection, h.namespaces_eq, OrderedMap.getD_group,
    OrderedMap.getD_group]
  exact h.constraints_perm.filter _

theorem entriesFor (h : s.Reordered s') {table table' : OrderedMap String (List Constraint)}
    (htable : ∀ id, (s.entriesAt table id).Perm (s'.entriesAt table' id)) (id : String)
    (inherited : Bool) :
    SameResult List.Perm (s.entriesFor table id inherited) (s'.entriesFor table' id inherited) := by
  unfold Schema.entriesFor
  rw [h.entityClass?_eq, h.hierarchy_eq]
  split
  · cases s'.hierarchy id with
    | error err => exact .error err
    | ok chain => exact .ok (.flatMap_left _ fun a _ => htable a)
  · exact .ok (htable id)

/-- **A class has the same constraints up to their order.** -/
theorem constraintsFor (h : s.Reordered s') (id : String) (inherited : Bool) :
    SameResult List.Perm (s.constraintsFor id inherited) (s'.constraintsFor id inherited) :=
  h.entriesFor h.entriesAt_byClass_perm id inherited

/-- **A class has the same inverse constraints up to their order.** -/
theorem inverseConstraintsFor (h : s.Reordered s') (id : String) (inherited : Bool) :
    SameResult List.Perm (s.inverseConstraintsFor id inherited)
      (s'.inverseConstraintsFor id inherited) :=
  h.entriesFor h.entriesAt_byTarget_perm id inherited

theorem declaresProperty_eq (h : s.Reordered s') (predicate : String) :
    s.declaresProperty predicate = s'.declaresProperty predicate := by
  rw [Bool.eq_iff_iff, declaresProperty_iff_exists h.left.eq_ofCollection,
    declaresProperty_iff_exists h.ofCollection, h.namespaces_eq]
  simp only [h.constraints_perm.mem_iff]

theorem declaresReference_eq (h : s.Reordered s') (predicate : String) :
    s.declaresReference predicate = s'.declaresReference predicate := by
  rw [Bool.eq_iff_iff, declaresReference_iff_exists h.left.eq_ofCollection,
    declaresReference_iff_exists h.ofCollection, h.namespaces_eq]
  simp only [h.constraints_perm.mem_iff]

end Schema.Reordered

end EntityGraph
