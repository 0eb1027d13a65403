import EntityGraph.Proofs.Ascent
import EntityGraph.Proofs.Declarations
import EntityGraph.Proofs.Substitution

/-!
# Abbreviated entities

An entity may write its identifiers short. A check compares them by their canonical forms, and so
an entity is reported on as its expansion is, whichever of its identifiers are short. There is one
exception: the types of an entity are read under the full URI of the type predicate alone. An
entity that writes this predicate short has no types, and nothing is checked of it, until it is
expanded.

Results:
* `canonized_of_expand`: an expanded entity holds the canonical forms, in the same order.
* `getSame?_canonized`: at each predicate there is what was there before.
* `entriesFor_canonical`: the canonical form of a type has the constraints of the type.
* `checkEntity_canonized`: the check of an entity whose type predicate is not short.
* `validateEntity_expanded_iff`: when an entity and its expansion are reported on alike.
-/

namespace EntityGraph

/-- A violation by its kind and the identifier of its constraint. -/
def Violation.origin (v : Violation) : Violation.Kind × Option String :=
  (v.kind, v.constraint.map Constraint.id)

@[simp] theorem Violation.origin_of (con : Constraint) (e : Entity) (kind : Kind)
    (message : String) : (Violation.of con e kind message).origin = (kind, some con.id) := rfl

/-! ## Canonical forms of an entity -/

/-- The second slots are the first ones under canonical predicates, in the same order, and read by
a function. -/
def OrderedMap.Canonized {α : Type} (ns : Namespaces) (read : α → α)
    (slots slots' : OrderedMap String α) : Prop :=
  slots'.toList = slots.toList.map fun p => (ns.canonical p.1, read p.2)

/-- The second entity is the first one in canonical forms. -/
structure Entity.Canonized (ns : Namespaces) (e e' : Entity) : Prop where
  id : e'.id = ns.canonical e.id
  properties : e.properties.Canonized ns (fun slot => slot) e'.properties
  references : e.references.Canonized ns (Slot.map ns.canonical) e'.references

/-- The entity writes the type predicate short. -/
def Entity.AbbreviatesTypes (ns : Namespaces) (e : Entity) : Prop :=
  ∃ k ∈ e.references.keys, k ≠ Vocabulary.rdfType ∧ ns.canonical k = Vocabulary.rdfType

variable {ns : Namespaces}

namespace OrderedMap

variable {α : Type} {read : α → α} {slots slots' : OrderedMap String α}

/-- A table whose keys keep apart expands to its entries, each expanded. -/
theorem canonized_of_expands {readE : α → Except UnknownLabel α}
    (hread : ∀ a b, readE a = .ok b → b = read a) (hdist : (slots.keys.map ns.canonical).Nodup)
    (h : slots.Expands ns readE slots') : slots.Canonized ns read slots' := by
  obtain ⟨es, hes, rfl⟩ := h
  have heq : es = slots.toList.map fun p => (ns.canonical p.1, read p.2) := by
    generalize slots.toList = l at hes
    induction hes with
    | nil => rfl
    | @cons p p' _ _ hp _ ih =>
      have hhead : p' = (ns.canonical p.1, read p.2) :=
        Prod.ext (Namespaces.canonical_of_expand hp.1).symm (hread _ _ hp.2)
      rw [List.map_cons, ← ih, hhead]
  have hkeys : es.map Prod.fst = slots.keys.map ns.canonical := by
    rw [heq, keys, List.map_map, List.map_map]
    rfl
  rw [← hkeys] at hdist
  unfold Canonized
  rw [toList_ofList_of_nodup hdist, heq]

theorem Canonized.keys_eq (h : slots.Canonized ns read slots') :
    slots'.keys = slots.keys.map ns.canonical := by
  unfold keys
  rw [h, List.map_map, List.map_map]
  rfl

/-- **At each predicate there is what was there before**, read by the function. -/
theorem getSame?_canonized (hfull : ns.FullExpansions)
    (hdist : (slots.keys.map ns.canonical).Nodup) (h : slots.Canonized ns read slots')
    (predicate : String) :
    slots'.getSame? ns predicate = (slots.getSame? ns predicate).map read := by
  have hdist' : (slots'.keys.map ns.canonical).Nodup := by
    rw [h.keys_eq, List.map_map]
    rwa [show ns.canonical ∘ ns.canonical = ns.canonical from
      funext (Namespaces.canonical_canonical hfull)]
  have hsame : ∀ p : String × α, ns.same (ns.canonical p.1) predicate = ns.same p.1 predicate := by
    intro p
    rw [Bool.eq_iff_iff, Namespaces.same_iff, Namespaces.same_iff,
      Namespaces.canonical_canonical hfull]
  have hlist : (slots'.getSame? ns predicate).toList =
      ((slots.getSame? ns predicate).map read).toList := by
    rw [Option.toList_map, ← filter_same_eq hdist', ← filter_same_eq hdist, h, List.filter_map,
      List.map_map, List.map_map]
    simp only [Function.comp_def, hsame]
  cases hx : slots'.getSame? ns predicate <;>
    cases hy : (slots.getSame? ns predicate).map read <;> simp_all

end OrderedMap

/-- Identifiers that expand, expand to their canonical forms. -/
theorem Namespaces.eq_map_canonical {as us : List String}
    (h : List.Forall₂ (fun a u => ns.expand a = .ok u) as us) : us = as.map ns.canonical := by
  induction h with
  | nil => rfl
  | cons hu _ ih => rw [List.map_cons, canonical_of_expand hu, ih]

theorem Slot.eq_map_of_mapE {slot slot' : Slot String} (h : slot.mapE ns.expand = .ok slot') :
    slot' = slot.map ns.canonical := by
  cases slot with
  | one a =>
    obtain ⟨u, hu, rfl⟩ := map_eq_ok_iff.mp h
    exact congrArg Slot.one (Namespaces.canonical_of_expand hu).symm
  | many as =>
    obtain ⟨us, hus, rfl⟩ := map_eq_ok_iff.mp h
    exact congrArg Slot.many (Namespaces.eq_map_canonical (mapM_eq_ok_iff.mp hus))

namespace Entity

variable {e e' : Entity}

/-- **An expanded entity holds the canonical forms**, in the same order, if its predicates keep
apart. -/
theorem canonized_of_expand (hdist : e.DistinctPredicates ns) (h : e.expand ns = ⟨e', none⟩) :
    e.Canonized ns e' := by
  obtain ⟨hid, hproperties, hreferences, -⟩ := expand_eq_iff.mp h
  exact ⟨(Namespaces.canonical_of_expand hid).symm,
    OrderedMap.canonized_of_expands (fun _ _ hab => (Except.ok.inj hab).symm) hdist.1 hproperties,
    OrderedMap.canonized_of_expands (fun _ _ => Slot.eq_map_of_mapE) hdist.2 hreferences⟩

/-- Where the type predicate is not short, the types are what there is at it in any spelling. -/
theorem types_eq_targetsAt (h : ¬ e.AbbreviatesTypes ns) :
    e.types = e.targetsAt ns Vocabulary.rdfType := by
  have hget : e.references.getSame? ns Vocabulary.rdfType =
      e.references.get? Vocabulary.rdfType := by
    unfold OrderedMap.getSame?
    cases hexact : e.references.get? Vocabulary.rdfType with
    | some slot => rfl
    | none =>
      rw [Option.none_or, Option.map_eq_none_iff, List.find?_eq_none]
      intro p hp hsame
      rw [Namespaces.same_iff, canonical_rdfType] at hsame
      have hkey : p.1 ∈ e.references.keys := List.mem_map_of_mem hp
      have heq : p.1 = Vocabulary.rdfType := by
        by_contra hne
        exact h ⟨p.1, hkey, hne, hsame⟩
      rw [heq] at hkey
      obtain ⟨slot, hslot⟩ := OrderedMap.mem_keys_iff.mp hkey
      rw [hexact] at hslot
      cases hslot
  unfold types referenceValues reference? targetsAt
  rw [hget]
  cases e.references.get? Vocabulary.rdfType <;> rfl

/-- An entity that writes the type predicate short has no types. -/
theorem types_of_abbreviates (hdist : e.DistinctPredicates ns) (h : e.AbbreviatesTypes ns) :
    e.types = [] := by
  obtain ⟨k, hk, hne, hcanon⟩ := h
  unfold types referenceValues reference?
  cases hexact : e.references.get? Vocabulary.rdfType with
  | none => rfl
  | some slot =>
    have hkey : Vocabulary.rdfType ∈ e.references.keys :=
      OrderedMap.mem_keys_iff.mpr ⟨slot, hexact⟩
    exact absurd (List.inj_on_of_nodup_map hdist.2 hk hkey
      (hcanon.trans (canonical_rdfType ns).symm)) hne

namespace Canonized

variable (hfull : ns.FullExpansions) (hdist : e.DistinctPredicates ns) (h : e.Canonized ns e')

include hfull h

/-- Canonical forms write the type predicate in full. -/
theorem not_abbreviatesTypes : ¬ e'.AbbreviatesTypes ns := by
  rintro ⟨k, hk, hne, hcanon⟩
  rw [h.references.keys_eq] at hk
  obtain ⟨k₀, -, rfl⟩ := List.mem_map.mp hk
  rw [Namespaces.canonical_canonical hfull] at hcanon
  exact hne hcanon

include hdist

theorem propertyCountAt_eq (predicate : String) :
    e'.propertyCountAt ns predicate = e.propertyCountAt ns predicate := by
  unfold propertyCountAt
  rw [OrderedMap.getSame?_canonized hfull hdist.1 h.properties, Option.map_map]
  rfl

theorem targetsAt_eq (predicate : String) :
    e'.targetsAt ns predicate = (e.targetsAt ns predicate).map ns.canonical := by
  unfold targetsAt
  rw [OrderedMap.getSame?_canonized hfull hdist.2 h.references]
  cases e.references.getSame? ns predicate with
  | none => rfl
  | some slot => exact Slot.toList_map ns.canonical slot

theorem types_eq (hshort : ¬ e.AbbreviatesTypes ns) : e'.types = e.types.map ns.canonical := by
  rw [types_eq_targetsAt (h.not_abbreviatesTypes hfull), types_eq_targetsAt hshort,
    h.targetsAt_eq hfull hdist]

end Canonized

end Entity

/-! ## Canonical forms in a schema -/

namespace Schema

variable {c : Collection}

/-- The class of an identifier is that of its canonical form. -/
theorem entityClass?_canonical (hfull : c.namespaces.FullExpansions) (id : String) :
    (ofCollection c).entityClass? (c.namespaces.canonical id) =
      (ofCollection c).entityClass? id := by
  have hcanon : ∀ a, (ofCollection c).entityClass? a =
      (ofCollection c).classTable.get? (c.namespaces.canonical a) := by
    intro a
    unfold entityClass?
    cases hraw : (ofCollection c).classTable.get? a with
    | none => rfl
    | some cls =>
      have hid := canonical_id_of_classTable hraw
      have ha : c.namespaces.canonical a = a := by
        rw [← hid, Namespaces.canonical_canonical hfull]
      rw [ha, hraw, Option.some_or]
  rw [hcanon, hcanon, Namespaces.canonical_canonical hfull]

/-- **The canonical form of a type has the constraints of the type.** -/
theorem entriesFor_canonical (hfull : c.namespaces.FullExpansions)
    (table : OrderedMap String (List Constraint)) (id : String) (inherited : Bool) :
    (ofCollection c).entriesFor table (c.namespaces.canonical id) inherited =
      (ofCollection c).entriesFor table id inherited := by
  have hentries : (ofCollection c).entriesAt table (c.namespaces.canonical id) =
      (ofCollection c).entriesAt table id :=
    entriesAt_congr (s := ofCollection c)
      (Namespaces.same_iff.mpr (Namespaces.canonical_canonical hfull id)) table
  unfold entriesFor hierarchy
  simp only [entityClass?_canonical hfull, hentries, List.flatMap_cons]
  cases (ofCollection c).entityClass? id with
  | none => simp
  | some cls => rfl

theorem declaresProperty_canonical (hfull : c.namespaces.FullExpansions) (p : String) :
    (ofCollection c).declaresProperty (c.namespaces.canonical p) =
      (ofCollection c).declaresProperty p := by
  unfold declaresProperty
  simp only [show (ofCollection c).namespaces = c.namespaces from rfl,
    Namespaces.canonical_canonical hfull]

theorem declaresReference_canonical (hfull : c.namespaces.FullExpansions) {p : String}
    (hp : c.namespaces.canonical p = Vocabulary.rdfType → p = Vocabulary.rdfType) :
    (ofCollection c).declaresReference (c.namespaces.canonical p) =
      (ofCollection c).declaresReference p := by
  have htype : (c.namespaces.canonical p == Vocabulary.rdfType) = (p == Vocabulary.rdfType) := by
    rw [Bool.eq_iff_iff, beq_iff_eq, beq_iff_eq]
    exact ⟨hp, fun heq => by rw [heq, canonical_rdfType]⟩
  unfold declaresReference
  simp only [show (ofCollection c).namespaces = c.namespaces from rfl,
    Namespaces.canonical_canonical hfull, htype]

end Schema

/-! ## Checks of canonical forms -/

theorem map_origin_occurrences (o : Violation.Occurrence) (con : Constraint) (e e' : Entity)
    (p : String) (bounds : Cardinality) (count : Nat) :
    (Violation.occurrences o con e p bounds count).map Violation.origin =
      (Violation.occurrences o con e' p bounds count).map Violation.origin := by
  unfold Violation.occurrences
  simp only [List.map_append, apply_ite (List.map Violation.origin), List.map_singleton,
    List.map_nil, Violation.origin_of]

theorem Alike.of_map_eq {ε α δ : Type} {view : α → δ} {vs vs' : List α}
    (h : vs.map view = vs'.map view) :
    Alike view (.ok vs : Except ε (List α)) (.ok vs') :=
  .inr ⟨vs, vs', rfl, rfl, h⟩

namespace Run

variable {r : Run (Except ValidationError)} {con : Constraint} {e e' : Entity}

section

variable (hfull : r.schema.namespaces.FullExpansions)

include hfull

theorem stored?_canonical (id : String) :
    r.stored? (r.schema.namespaces.canonical id) = r.stored? id := by
  unfold stored?
  rw [Namespaces.canonical_canonical hfull]

theorem referrers_canonical (id predicate : String) (limit : Option Nat) :
    r.referrers (r.schema.namespaces.canonical id) predicate limit =
      r.referrers id predicate limit := by
  unfold referrers
  rw [Namespaces.canonical_canonical hfull]

theorem checkTarget_canonical (target : String) :
    Alike Violation.origin (r.checkTarget con e target)
      (r.checkTarget con e' (r.schema.namespaces.canonical target)) := by
  unfold checkTarget
  rw [stored?_canonical hfull]
  refine .bind r.proceed fun _ _ => .bind (r.stored? target) fun found _ => ?_
  cases found with
  | none => exact .of_map_eq rfl
  | some stored =>
    simp only
    split
    · exact .of_map_eq rfl
    · cases con.referencedEntityClass? with
      | none => exact .of_map_eq rfl
      | some expected =>
        simp only
        split <;> exact .of_map_eq rfl

end

variable (hfull : r.schema.namespaces.FullExpansions)
  (hdist : e.DistinctPredicates r.schema.namespaces)
  (h : e.Canonized r.schema.namespaces e')

include hfull h

theorem checkInverse_canonized :
    Alike Violation.origin (r.checkInverse con e) (r.checkInverse con e') := by
  unfold checkInverse
  rw [h.id]
  simp only [referrers_canonical hfull]
  refine .bind (lift .schema con.referenceClass) fun p _ =>
    .bind (lift .schema con.inverseCardinality) fun bounds _ => ?_
  split
  · exact .refl _ _
  · refine .bind (lift .schema con.entityClass) fun owner _ => .bind r.proceed fun _ _ =>
      .bind (r.referrers e.id p none) fun stream _ =>
      .bind (r.countReferrers owner bounds stream 0) fun count _ => .of_map_eq ?_
    simp only [List.map_append, apply_ite (List.map Violation.origin), List.map_singleton,
      List.map_nil, Violation.origin_of]

include hdist

theorem checkProperty_canonized :
    Alike Violation.origin (r.checkProperty con e) (r.checkProperty con e') := by
  refine .bind (lift .schema con.propertyClass) fun p _ =>
    .bind (lift .schema con.cardinality) fun bounds _ => .of_map_eq ?_
  rw [h.propertyCountAt_eq hfull hdist]
  exact map_origin_occurrences _ _ _ _ _ _ _

theorem checkReference_canonized :
    Alike Violation.origin (r.checkReference con e) (r.checkReference con e') := by
  refine .bind (lift .schema con.referenceClass) fun p _ =>
    .bind (lift .schema con.cardinality) fun bounds _ => ?_
  simp only [h.targetsAt_eq hfull hdist, List.length_map, gather_map]
  have hcounted (count : Nat) : Alike Violation.origin
      (.ok (Violation.occurrences .ofReference con e p bounds count) : Except ValidationError _)
      (.ok (Violation.occurrences .ofReference con e' p bounds count)) :=
    .of_map_eq (map_origin_occurrences _ _ _ _ _ _ _)
  split
  · exact (hcounted _).append (gather_alike fun target _ => checkTarget_canonical hfull target)
  · exact hcounted _

variable (hshort : ¬ e.AbbreviatesTypes r.schema.namespaces)

include hshort

theorem checkAbstract_canonized :
    Alike Violation.origin (r.checkAbstract con e) (r.checkAbstract con e') := by
  have hany (cls : String) : (e'.types.any fun type => r.schema.namespaces.same type cls) =
      e.types.any fun type => r.schema.namespaces.same type cls := by
    rw [h.types_eq hfull hdist hshort, List.any_map]
    refine congrArg e.types.any (funext fun type => ?_)
    rw [Function.comp_apply, Bool.eq_iff_iff, Namespaces.same_iff, Namespaces.same_iff,
      Namespaces.canonical_canonical hfull]
  unfold checkAbstract
  refine .bind (lift .schema con.entityClass) fun cls _ => ?_
  rw [hany]
  split <;> exact .of_map_eq rfl

/-- One constraint of an entity without rules. -/
theorem checkConstraint_canonized (hrules : r.rules.entries = []) :
    Alike Violation.origin (r.checkConstraint e con) (r.checkConstraint e' con) := by
  unfold checkConstraint
  cases con.kind with
  | property => exact checkProperty_canonized hfull hdist h
  | reference => exact checkReference_canonized hfull hdist h
  | isAbstract => exact checkAbstract_canonized hfull hdist h hshort
  | application =>
    have hnone : r.rules.find? r.schema.namespaces con = none := by
      unfold RuleRegistry.find?
      rw [hrules]
      rfl
    unfold checkRule
    rw [hnone]
    exact .of_map_eq rfl

variable {c : Collection} (hschema : r.schema = .ofCollection c)

include hschema

theorem checkType_canonized (hrules : r.rules.entries = []) (type : String) :
    Alike Violation.origin (r.checkType e type)
      (r.checkType e' (r.schema.namespaces.canonical type)) := by
  have hentries (table : OrderedMap String (List Constraint)) :
      r.schema.entriesFor table (r.schema.namespaces.canonical type) true =
        r.schema.entriesFor table type true := by
    rw [hschema] at hfull ⊢
    exact Schema.entriesFor_canonical hfull table type true
  have hown : Alike Violation.origin
      (lift .schema (r.schema.constraintsFor type true) >>= gather (r.checkConstraint e))
      (lift .schema (r.schema.constraintsFor (r.schema.namespaces.canonical type) true) >>=
        gather (r.checkConstraint e')) := by
    unfold Schema.constraintsFor
    rw [hentries]
    exact .bind _ fun cs _ =>
      gather_alike fun con _ => checkConstraint_canonized hfull hdist h hshort hrules
  have hinverse : Alike Violation.origin
      (lift .schema (r.schema.inverseConstraintsFor type true) >>= gather (r.checkInverse · e))
      (lift .schema (r.schema.inverseConstraintsFor (r.schema.namespaces.canonical type) true) >>=
        gather (r.checkInverse · e')) := by
    unfold Schema.inverseConstraintsFor
    rw [hentries]
    exact .bind _ fun cs _ => gather_alike fun con _ => checkInverse_canonized hfull h
  cases hrelated : r.settings.related with
  | false => rwa [checkType_of_not_related hrelated, checkType_of_not_related hrelated]
  | true =>
    rw [checkType_of_related hrelated, checkType_of_related hrelated]
    exact hown.append hinverse

omit hdist in
theorem map_origin_undeclared :
    (Violation.undeclared r.schema e).map Violation.origin =
      (Violation.undeclared r.schema e').map Violation.origin := by
  have hproperty (p : String) : r.schema.declaresProperty (r.schema.namespaces.canonical p) =
      r.schema.declaresProperty p := by
    rw [hschema] at hfull ⊢
    exact Schema.declaresProperty_canonical hfull p
  have hreference : ∀ p ∈ e.references.keys,
      r.schema.declaresReference (r.schema.namespaces.canonical p) =
        r.schema.declaresReference p := by
    intro p hp
    have hwritten : r.schema.namespaces.canonical p = Vocabulary.rdfType →
        p = Vocabulary.rdfType := fun hcanon => by
      by_contra hne
      exact hshort ⟨p, hp, hne, hcanon⟩
    rw [hschema] at hfull hwritten ⊢
    exact Schema.declaresReference_canonical hfull hwritten
  unfold Violation.undeclared
  rw [h.properties.keys_eq, h.references.keys_eq, List.filter_map, List.filter_map]
  simp only [List.map_append, List.map_map, Function.comp_def, hproperty]
  congr 2
  exact List.filter_congr fun p hp => by rw [hreference p hp]

/-- **An entity whose type predicate is not short is reported on as its expansion is.** -/
theorem checkEntity_canonized (hrules : r.rules.entries = []) :
    Alike Violation.origin (r.checkEntity e) (r.checkEntity e') := by
  have htypes := h.types_eq hfull hdist hshort
  by_cases hnil : e.types = []
  · rw [hnil] at htypes
    rw [checkEntity_of_types_nil hnil, checkEntity_of_types_nil htypes]
    exact .refl _ _
  · have hnil' : e'.types ≠ [] := by simpa [htypes] using hnil
    unfold checkEntity
    rw [if_neg (mt List.isEmpty_iff.mp hnil), if_neg (mt List.isEmpty_iff.mp hnil'), htypes,
      gather_map]
    have hundeclared : Alike Violation.origin
        (.ok (if r.settings.strict then Violation.undeclared r.schema e else []) :
          Except ValidationError _)
        (.ok (if r.settings.strict then Violation.undeclared r.schema e' else [])) := by
      split
      · exact .of_map_eq (map_origin_undeclared hfull h hshort hschema)
      · exact .of_map_eq rfl
    exact hundeclared.append (gather_alike fun type _ =>
      checkType_canonized hfull hdist h hshort hschema hrules type)

end Run

/-! ## Validations -/

namespace Validator

variable {c : Collection} {v : Validator (Except ValidationError)} {e e' : Entity}

/-- **An entity is reported on as its expansion is, unless it writes the type predicate short.** It
has no types then, and so the two agree only if the run does not start, or if there is nothing to
report of the expansion either. The schema is that of any collection whose expansions are full
URIs, settings and data provider are arbitrary, and there are no rules. -/
theorem validateEntity_expanded_iff (hfull : c.namespaces.FullExpansions)
    (hrules : v.rules.entries = []) (hdist : e.DistinctPredicates c.namespaces)
    (hexp : e.expand c.namespaces = ⟨e', none⟩) :
    Alike Violation.origin (v.validateEntity (.ofCollection c) e)
        (v.validateEntity (.ofCollection c) e') ↔
      (e.AbbreviatesTypes c.namespaces → ∀ r, v.start (.ofCollection c) = .ok r →
        v.validateEntity (.ofCollection c) e' = .ok []) := by
  cases hstart : v.start (.ofCollection c) with
  | error err =>
    have hfail (e : Entity) : v.validateEntity (.ofCollection c) e = .error err :=
      validateEntities_of_start_error v _ hstart [e]
    rw [hfail, hfail]
    exact iff_of_true (.inl ⟨err, err, rfl, rfl⟩) fun _ r hr => nomatch hr
  | ok r =>
    obtain ⟨hschema, -, -, hregistry, hproceed⟩ := started_of_start hstart
    have hcheck (e : Entity) : v.validateEntity (.ofCollection c) e = r.checkEntity e := by
      rw [validateEntity_of_start v _ hstart]
      unfold step
      rw [hproceed, ok_bind]
    rw [hcheck, hcheck]
    by_cases hshort : e.AbbreviatesTypes c.namespaces
    · rw [Run.checkEntity_of_types_nil (Entity.types_of_abbreviates hdist hshort)]
      constructor
      · rintro (⟨err, _, herr, -⟩ | ⟨_, ws, hvs, hws, hview⟩) _ _ _
        · cases herr
        · cases hvs
          rw [hws, List.map_eq_nil_iff.mp hview.symm]
      · intro h
        rw [h hshort r rfl]
        exact .refl _ _
    · have hns : r.schema.namespaces = c.namespaces := by rw [hschema]; rfl
      exact iff_of_true (Run.checkEntity_canonized (hns ▸ hfull) (hns ▸ hdist)
        (hns ▸ Entity.canonized_of_expand hdist hexp) (hns ▸ hshort) hschema (hregistry ▸ hrules))
        fun habbreviated => absurd habbreviated hshort

/-- A villager has one name at most and lives in a village. -/
def villagers : SchemaBuilder :=
  let b := SchemaBuilder.empty.bind "ex" "urn:ex:"
  let (named, b) := b.startConstraint .property "ex:Villager"
  let b := b.addConstraint ((named.setName Vocabulary.propertyClass "ex:name").setBound
    Vocabulary.maxCard 1)
  let (home, b) := b.startConstraint .reference "ex:Villager"
  b.addConstraint ((home.setName Vocabulary.referenceClass "ex:home").setName
    Vocabulary.referencedEntityClass "ex:Village")

/-- A villager with two names, a home that nobody knows and an age that nobody asked for. -/
def miller : Entity :=
  ((((Entity.ofType "ex:miller" "ex:Villager").setReference "ex:home" (.one "ex:mill")).setProperty
    "ex:name" (.many [.string "Tom", .string "Tim"])).setProperty "ex:age" (.one (.int 40)))

/-- A strict validator that asks an empty store. -/
def inspector : Validator (Except ValidationError) where
  settings := { strict := true, related := true }
  provider? := some Store.empty.provider
  signals := .quiet

/-- What is found of the miller, all whose identifiers but the type predicate are short, is found of
the expansion. -/
theorem validateEntity_expanded_iff_miller :
    ∃ c e', villagers.build = .ok (.ofCollection c) ∧ c.namespaces.FullExpansions ∧
      inspector.rules.entries = [] ∧ miller.DistinctPredicates c.namespaces ∧
      miller.expand c.namespaces = ⟨e', none⟩ ∧ e'.id = "urn:ex:miller" ∧
      ¬ miller.AbbreviatesTypes c.namespaces ∧
      (inspector.validateEntity (.ofCollection c) miller).toOption.map (·.map Violation.origin) =
        some [(.undeclaredProperty, none),
          (.maxPropertyOccurrenceExceeded, some "urn:ex:Villager-constraint-0"),
          (.referenceNotFound, some "urn:ex:Villager-constraint-1")] ∧
      Alike Violation.origin (inspector.validateEntity (.ofCollection c) miller)
        (inspector.validateEntity (.ofCollection c) e') := by
  have hfacts : ∃ s ∈ villagers.build.toOption,
      (inspector.validateEntity s miller).toOption.map (·.map Violation.origin) =
        some [(.undeclaredProperty, none),
          (.maxPropertyOccurrenceExceeded, some "urn:ex:Villager-constraint-0"),
          (.referenceNotFound, some "urn:ex:Villager-constraint-1")] ∧
      (miller.properties.keys.map s.namespaces.canonical).Nodup ∧
      (miller.references.keys.map s.namespaces.canonical).Nodup ∧
      (miller.expand s.namespaces).error? = none ∧
      (miller.expand s.namespaces).value.id = "urn:ex:miller" ∧
      ¬ ∃ k ∈ miller.references.keys, k ≠ Vocabulary.rdfType ∧
        s.namespaces.canonical k = Vocabulary.rdfType := by
    decide +kernel
  obtain ⟨s, hmem, hfound, hproperties, hreferences, herr, hid, hshort⟩ := hfacts
  have hbuild : villagers.build = .ok s := eq_ok_of_mem_toOption hmem
  have hs := SchemaBuilder.fromExpanded_of_build hbuild (by decide +kernel)
  obtain ⟨-, c₀, c, -, rfl⟩ := SchemaBuilder.build_eq_ok hbuild
  have hdist : miller.DistinctPredicates c.namespaces := ⟨hproperties, hreferences⟩
  have hexp : miller.expand c.namespaces = ⟨(miller.expand c.namespaces).value, none⟩ := by
    rw [← herr]
    rfl
  exact ⟨c, _, hbuild, hs.expansions, rfl, hdist, hexp, hid, hshort, hfound,
    (validateEntity_expanded_iff hs.expansions rfl hdist hexp).mpr fun h => absurd h hshort⟩

/-- A person has a name. -/
def persons : SchemaBuilder :=
  let (named, b) := SchemaBuilder.empty.startConstraint .property "urn:Person"
  b.addConstraint ((named.setName Vocabulary.propertyClass "urn:name").setBound
    Vocabulary.minCard 1)

/-- A person without name, who writes the type predicate short. -/
def anonymous : Entity :=
  ({ id := "urn:anna" } : Entity).setReference "rdf:type" (.one "urn:Person")

/-- Not every entity is reported on as its expansion is: a person who writes the type predicate
short gets away without a name. -/
theorem not_forall_validateEntity_expanded :
    ¬ ∀ (c : Collection) (v : Validator (Except ValidationError)) (e e' : Entity),
      c.namespaces.FullExpansions → v.rules.entries = [] → e.DistinctPredicates c.namespaces →
      e.expand c.namespaces = ⟨e', none⟩ →
      Alike Violation.origin (v.validateEntity (.ofCollection c) e)
        (v.validateEntity (.ofCollection c) e') := by
  intro h
  have hfacts : ∃ s ∈ persons.build.toOption,
      plain.validateEntity s anonymous = .ok [] ∧
      (plain.validateEntity s (anonymous.expand s.namespaces).value).toOption.map
        (·.map Violation.origin) =
          some [(.minPropertyOccurrenceNotMet, some "urn:Person-constraint-0")] ∧
      (anonymous.properties.keys.map s.namespaces.canonical).Nodup ∧
      (anonymous.references.keys.map s.namespaces.canonical).Nodup ∧
      (anonymous.expand s.namespaces).error? = none := by
    decide +kernel
  obtain ⟨s, hmem, hnothing, hfound, hproperties, hreferences, herr⟩ := hfacts
  have hbuild : persons.build = .ok s := eq_ok_of_mem_toOption hmem
  have hs := SchemaBuilder.fromExpanded_of_build hbuild (by decide +kernel)
  obtain ⟨-, c₀, c, -, rfl⟩ := SchemaBuilder.build_eq_ok hbuild
  have halike := h c plain anonymous (anonymous.expand c.namespaces).value hs.expansions rfl
    ⟨hproperties, hreferences⟩ (by rw [← herr]; rfl)
  rw [alike_iff_toOption, hnothing] at halike
  have := halike.trans hfound
  simp [Except.toOption] at this

end Validator

end EntityGraph
