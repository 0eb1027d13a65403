import EntityGraph.Proofs.Footprint
import EntityGraph.Proofs.Occurrence
import EntityGraph.Proofs.Shuffling
import Mathlib.Data.Multiset.AddSub

/-!
# Validating entities that are the same

Entities with the same entries in another order are validated alike: the same error, or the same
findings. Only the undeclared predicates are reported in the order in which they stand, and so the
findings are compared as multisets.

A check finds a predicate under the spelling of the constraint, or else under the first one that
denotes the same. With two such spellings the order would decide, and so it is asked of an entity
that it is clear to the schema: each predicate that a constraint names stands there in the very
spelling, or in one other at most.

Results:
* `OrderedMap.getSame?_eq_of_get?`: what is found at a clear predicate.
* `Entity.clear_of_distinct`, `OrderedMap.clear_of_canonical`: what makes an entity clear.
* `Run.checkConstraint_same`, `Run.checkEntity_same`: checks of entities that are the same.
* `Validator.validateEntities_interchanged`: validations of them.
* `Validator.validateDataset_same`, `Validator.validateStore_same`: the store under schemas that are
  the same.
-/

namespace EntityGraph

/-! ## Clear predicates -/

/-- A predicate stands in a table in its very spelling, or in one other at most. -/
def OrderedMap.Clear {α : Type} (ns : Namespaces) (slots : OrderedMap String α)
    (predicate : String) : Prop :=
  predicate ∈ slots.keys ∨ ∀ k ∈ slots.keys, ∀ k' ∈ slots.keys,
    ns.same k predicate = true → ns.same k' predicate = true → k = k'

/-- Each predicate that a constraint of the schema is about is clear in the entity. -/
structure Entity.Clear (s : Schema) (e : Entity) : Prop where
  property : ∀ c ∈ s.constraints, c.kind = .property → ∀ p, c.propertyClass = .ok p →
    e.properties.Clear s.namespaces p
  reference : ∀ c ∈ s.constraints, c.kind = .reference → ∀ p, c.referenceClass = .ok p →
    e.references.Clear s.namespaces p

namespace OrderedMap

variable {α : Type} {ns : Namespaces} {slots slots' : OrderedMap String α} {predicate : String}

/-- In other spellings than its own, a clear predicate is found where a key denotes it. -/
theorem getSame?_eq_some_iff_of_clear (hnone : slots.get? predicate = none)
    (h : slots.Clear ns predicate) {a : α} :
    slots.getSame? ns predicate = some a ↔
      ∃ k, slots.get? k = some a ∧ ns.same k predicate = true := by
  have huniq := h.resolve_left fun hmem => by
    obtain ⟨b, hb⟩ := mem_keys_iff.mp hmem
    rw [hnone] at hb
    cases hb
  unfold getSame?
  rw [hnone, Option.none_or, Option.map_eq_some_iff]
  constructor
  · rintro ⟨⟨k, b⟩, hfind, rfl⟩
    exact ⟨k, mem_toList_iff.mp (List.mem_of_find?_eq_some hfind), by
      simpa using List.find?_some hfind⟩
  · rintro ⟨k, hget, hsame⟩
    have hmem : (k, a) ∈ slots.toList := mem_toList_iff.mpr hget
    cases hfind : slots.toList.find? fun b => ns.same b.1 predicate with
    | none => exact absurd hsame (List.find?_eq_none.mp hfind (k, a) hmem)
    | some b =>
      obtain ⟨k', b⟩ := b
      have hmem' : (k', b) ∈ slots.toList := List.mem_of_find?_eq_some hfind
      have hsame' : ns.same k' predicate = true := by simpa using List.find?_some hfind
      obtain rfl : k = k' := huniq k (List.mem_map_of_mem hmem) k' (List.mem_map_of_mem hmem')
        hsame hsame'
      rw [mem_toList_iff.mp hmem'] at hget
      exact ⟨_, rfl, Option.some.inj hget⟩

theorem Clear.congr (hget : ∀ k, slots.get? k = slots'.get? k) (h : slots.Clear ns predicate) :
    slots'.Clear ns predicate := by
  have hkeys : ∀ k, k ∈ slots'.keys ↔ k ∈ slots.keys := fun k => by
    rw [mem_keys_iff, mem_keys_iff, hget]
  unfold Clear
  simp only [hkeys]
  exact h

/-- **What is found at a clear predicate** does not depend on the order of the table. -/
theorem getSame?_eq_of_get? (hget : ∀ k, slots.get? k = slots'.get? k)
    (h : slots.Clear ns predicate) :
    slots.getSame? ns predicate = slots'.getSame? ns predicate := by
  cases hexact : slots.get? predicate with
  | some a =>
    have hexact' := hexact
    rw [hget] at hexact'
    unfold getSame?
    rw [hexact, hexact', Option.some_or, Option.some_or]
  | none =>
    have hexact' := hexact
    rw [hget] at hexact'
    ext a
    rw [getSame?_eq_some_iff_of_clear hexact h,
      getSame?_eq_some_iff_of_clear hexact' (h.congr hget)]
    simp only [hget]

/-- Where no two keys denote the same, every predicate is clear. -/
theorem clear_of_nodup (h : (slots.keys.map ns.canonical).Nodup) (predicate : String) :
    slots.Clear ns predicate :=
  .inr fun _ hk _ hk' hsame hsame' => List.inj_on_of_nodup_map h hk hk'
    ((Namespaces.same_iff.mp hsame).trans (Namespaces.same_iff.mp hsame').symm)

/-- A predicate in canonical form is clear where the keys are expansions to full URIs, from whatever
table. -/
theorem clear_of_canonical {ns' : Namespaces} (hfull : ns'.FullExpansions)
    (hkeys : ∀ k ∈ slots.keys, ∃ a, ns'.expand a = .ok k)
    (hcanon : ns.canonical predicate = predicate) : slots.Clear ns predicate := by
  have hself : ∀ k ∈ slots.keys, isFullUri k = true ∨ Text.cut? ':' k = none := fun k hk => by
    obtain ⟨a, ha⟩ := hkeys k hk
    exact (Namespaces.expand_eq_ok hfull ha).imp_right And.left
  by_cases hmem : predicate ∈ slots.keys
  · exact .inl hmem
  · refine .inr fun k hk k' hk' hsame hsame' => ?_
    rw [Namespaces.same_iff, hcanon] at hsame hsame'
    -- a key that is a full URI is canonical, and so would be the predicate
    have hbare : ∀ k ∈ slots.keys, ns.canonical k = predicate →
        isFullUri k = false ∧ Text.cut? ':' k = none := fun k hk hsame => by
      have hnot : isFullUri k = false := by
        by_contra hnot
        rw [Bool.not_eq_false] at hnot
        rw [Namespaces.canonical_of_expand (Namespaces.expand_of_isFullUri hnot)] at hsame
        exact hmem (hsame ▸ hk)
      exact ⟨hnot, (hself k hk).resolve_left (by simp [hnot])⟩
    obtain ⟨hnot, hcut⟩ := hbare k hk hsame
    obtain ⟨hnot', hcut'⟩ := hbare k' hk' hsame'
    have heq := hsame.trans hsame'.symm
    unfold Namespaces.canonical Namespaces.expand at heq
    simp only [hnot, hnot', hcut, hcut', Bool.false_eq_true, if_false] at heq
    cases hlabel : ns.expansion? Namespaces.bareLabel with
    | none => simpa [hlabel] using heq
    | some expansion => simpa [hlabel] using heq

end OrderedMap

namespace Entity

variable {s : Schema} {e e' : Entity}

/-- An entity whose predicates keep apart is clear. -/
theorem clear_of_distinct (h : e.DistinctPredicates s.namespaces) : e.Clear s :=
  ⟨fun _ _ _ p _ => OrderedMap.clear_of_nodup h.1 p,
    fun _ _ _ p _ => OrderedMap.clear_of_nodup h.2 p⟩

theorem Same.reordered (h : e.Same e') : e.Reordered e' where
  id := h.id
  property? := h.property?
  reference? p _ := h.reference? p
  types := by
    rw [h.reference?]
    exact (Reordered.refl e').types
  deleted := h.deleted

end Entity

theorem Schema.Same.refl (s : Schema) : s.Same s where
  collection := ⟨fun _ => rfl, rfl, List.forall₂_same.mpr fun e _ => .refl e, rfl⟩
  classes := List.forall₂_same.mpr fun c _ => Entity.Same.refl c.entity
  constraints := List.forall₂_same.mpr fun c _ => .refl c
  classTable := List.forall₂_same.mpr fun entry _ => ⟨rfl, Entity.Same.refl entry.2.entity⟩
  byClass := List.forall₂_same.mpr fun _ _ => ⟨rfl, List.forall₂_same.mpr fun c _ => .refl c⟩
  byTarget := List.forall₂_same.mpr fun _ _ => ⟨rfl, List.forall₂_same.mpr fun c _ => .refl c⟩
  declaredProperties := rfl
  declaredReferences := rfl

/-! ## Rules -/

/-- A rule that takes equal maps for equal, those of its context and those of the entity. -/
def Rule.Unordered {m : Type → Type} (rule : Rule m) : Prop :=
  ∀ ctx ctx' : RuleContext m, ctx.Same ctx' → ∀ e e' : Entity, e.Same e' → rule ctx e = rule ctx' e'

/-- Every registered rule takes equal maps for equal. -/
def RuleRegistry.Unordered {m : Type → Type} (rules : RuleRegistry m) : Prop :=
  ∀ entry ∈ rules.entries, Rule.Unordered entry.2

/-! ## Tallies -/

/-- What a run reports, without regard to the order: the multiset of its findings, or its error. -/
def tallied (run : Except ValidationError (List Violation)) :
    Except ValidationError (Multiset Finding) :=
  run.map fun vs => vs.map Violation.finding

section

variable {x x' y y' : Except ValidationError (List Violation)}

theorem tallied_of_reported (h : reported x = reported y) : tallied x = tallied y := by
  have hcoe : ∀ z : Except ValidationError (List Violation),
      tallied z = (reported z).map fun fs => (fs : Multiset Finding) := fun z => by
    cases z <;> rfl
  rw [hcoe, hcoe, h]

theorem tallied_of_perm {vs ws : List Violation}
    (h : (vs.map Violation.finding).Perm (ws.map Violation.finding)) :
    tallied (.ok vs) = tallied (.ok ws) :=
  congrArg Except.ok (Multiset.coe_eq_coe.mpr h)

theorem tallied_bind {α : Type} (a : Except ValidationError α)
    {f g : α → Except ValidationError (List Violation)}
    (h : ∀ b, a = .ok b → tallied (f b) = tallied (g b)) :
    tallied (a >>= f) = tallied (a >>= g) := by
  cases a with
  | error err => rfl
  | ok b => exact h b rfl

theorem tallied_append (hx : tallied x = tallied x') (hy : tallied y = tallied y') :
    tallied (do return (← x) ++ (← y)) = tallied (do return (← x') ++ (← y')) := by
  have hsum : ∀ x y : Except ValidationError (List Violation),
      tallied (do return (← x) ++ (← y)) = (do return (← tallied x) + (← tallied y)) := by
    intro x y
    cases x with
    | error err => rfl
    | ok vs =>
      cases y with
      | error err => rfl
      | ok ws => simp [tallied, Except.map]
  rw [hsum, hsum, hx, hy]

/-- Parts that are tallied alike are so when they are gathered. -/
theorem tallied_gather {α β : Type} {R : α → β → Prop}
    {f : α → Except ValidationError (List Violation)}
    {g : β → Except ValidationError (List Violation)} {l : List α} {l' : List β}
    (h : List.Forall₂ R l l') (hfg : ∀ a b, R a b → tallied (f a) = tallied (g b)) :
    tallied (gather f l) = tallied (gather g l') := by
  induction h with
  | nil => rfl
  | cons hab _ ih =>
    rw [gather_cons, gather_cons]
    exact tallied_append (hfg _ _ hab) ih

theorem tallied_gather_congr {α : Type} {f g : α → Except ValidationError (List Violation)}
    {l : List α} (h : ∀ a ∈ l, tallied (f a) = tallied (g a)) :
    tallied (gather f l) = tallied (gather g l) :=
  tallied_gather (R := fun a b => a ∈ l ∧ a = b) (List.forall₂_same.mpr fun _ ha => ⟨ha, rfl⟩)
    fun a _ hab => hab.2 ▸ h a hab.1

end

/-! ## Checks -/

namespace Run

variable {r : Run (Except ValidationError)} {c : Constraint} {e e' : Entity} (h : e.Same e')

include h

theorem checkProperty_same
    (hclear : ∀ p, c.propertyClass = .ok p → e.properties.Clear r.schema.namespaces p) :
    reported (r.checkProperty c e) = reported (r.checkProperty c e') := by
  unfold checkProperty
  cases hp : c.propertyClass with
  | error err => rfl
  | ok p =>
    have hcount : e.propertyCountAt r.schema.namespaces p =
        e'.propertyCountAt r.schema.namespaces p := by
      unfold Entity.propertyCountAt
      rw [OrderedMap.getSame?_eq_of_get? h.property? (hclear p hp)]
    simp only [lift_ok, ok_bind, hcount]
    exact reported_bind _ fun bounds =>
      congrArg Except.ok (map_finding_occurrences_of_id h.id _ _ _ _ _)

theorem checkReference_same
    (hclear : ∀ p, c.referenceClass = .ok p → e.references.Clear r.schema.namespaces p) :
    reported (r.checkReference c e) = reported (r.checkReference c e') := by
  refine checkReference_of_targets h.id fun p hp => ?_
  unfold Entity.targetsAt
  rw [OrderedMap.getSame?_eq_of_get? h.reference? (hclear p hp)]

theorem checkRule_same (hrules : r.rules.Unordered) :
    reported (r.checkRule c e) = reported (r.checkRule c e') := by
  unfold checkRule
  cases hrule : r.rules.find? r.schema.namespaces c with
  | none => rfl
  | some rule =>
    obtain ⟨entry, hentry, rfl⟩ := Option.map_eq_some_iff.mp hrule
    have hcontext : (⟨r.schema, c, r.settings, r.provider?⟩ : RuleContext _).Same
        ⟨r.schema, c, r.settings, r.provider?⟩ := ⟨.refl _, .refl c, rfl, rfl⟩
    simp only [hrules entry (List.mem_of_find?_eq_some hentry) _ _ hcontext e e' h]
    refine reported_bind _ fun answer => ?_
    cases answer with
    | none => rfl
    | some message => exact congrArg (fun f => Except.ok [f]) (finding_of_id h.id _ _ _)

/-- **One constraint against entities that are the same.** -/
theorem checkConstraint_same (hrules : r.rules.Unordered) (hclear : e.Clear r.schema)
    (hc : c ∈ r.schema.constraints) :
    reported (r.checkConstraint e c) = reported (r.checkConstraint e' c) := by
  unfold checkConstraint
  cases hkind : c.kind with
  | property => exact checkProperty_same h (hclear.property c hc hkind)
  | reference => exact checkReference_same h (hclear.reference c hc hkind)
  | isAbstract => exact checkAbstract_of_types h.id (.of_eq h.types_eq) c
  | application => exact checkRule_same h hrules

variable {col : Collection} (hschema : r.schema = .ofCollection col)

include hschema

theorem checkType_same (hrules : r.rules.Unordered) (hclear : e.Clear r.schema) {type : String}
    (htype : type ∈ e.types) :
    tallied (r.checkType e type) = tallied (r.checkType e' type) := by
  have hown : tallied (lift .schema (r.schema.constraintsFor type true) >>=
        gather (r.checkConstraint e)) =
      tallied (lift .schema (r.schema.constraintsFor type true) >>=
        gather (r.checkConstraint e')) := by
    refine tallied_bind _ fun cs hcs => tallied_gather_congr fun c hc => ?_
    have hlooks : r.schema.LooksUp e.types c :=
      ⟨type, htype, cs, hc, .inl (lift_eq_ok_iff.mp hcs)⟩
    refine tallied_of_reported (checkConstraint_same h hrules hclear ?_)
    rw [hschema] at hlooks ⊢
    exact Schema.mem_constraints_of_looksUp hlooks
  have hinverse : tallied (lift .schema (r.schema.inverseConstraintsFor type true) >>=
        gather (r.checkInverse · e)) =
      tallied (lift .schema (r.schema.inverseConstraintsFor type true) >>=
        gather (r.checkInverse · e')) :=
    tallied_bind _ fun cs _ => tallied_gather_congr fun c _ =>
      tallied_of_reported (checkInverse_of_id h.id c)
  cases hrelated : r.settings.related with
  | false => rwa [checkType_of_not_related hrelated, checkType_of_not_related hrelated]
  | true =>
    rw [checkType_of_related hrelated, checkType_of_related hrelated]
    exact tallied_append hown hinverse

/-- **Entities that are the same are checked alike**, up to the order of what is undeclared. -/
theorem checkEntity_same (hrules : r.rules.Unordered) (hclear : e.Clear r.schema) :
    tallied (r.checkEntity e) = tallied (r.checkEntity e') := by
  have hundeclared : tallied (.ok (if r.settings.strict then Violation.undeclared r.schema e
        else [])) =
      tallied (.ok (if r.settings.strict then Violation.undeclared r.schema e' else [])) := by
    split
    · exact tallied_of_perm (undeclared_perm_of_keys r.schema h.id
        (OrderedMap.keys_perm h.reordered.rel_properties)
        (OrderedMap.keys_perm h.reordered.rel_references))
    · rfl
  unfold checkEntity
  rw [← h.types_eq]
  split
  · rfl
  · exact tallied_append hundeclared (tallied_gather_congr fun type htype =>
      checkType_same h hschema hrules hclear htype)

end Run

/-! ## Validations -/

namespace Validator

variable {v : Validator (Except ValidationError)} {col : Collection}

/-- **Entities that are the same are validated alike**: the same error, or the same multiset of
findings. Settings and data provider are arbitrary, the schema is that of any collection, rules take
equal maps for equal, and the entities are clear to the schema. -/
theorem validateEntities_interchanged (hrules : v.rules.Unordered) {es es' : List Entity}
    (h : List.Forall₂ Entity.Same es es') (hclear : ∀ e ∈ es, e.Clear (.ofCollection col)) :
    tallied (v.validateEntities (.ofCollection col) es) =
      tallied (v.validateEntities (.ofCollection col) es') := by
  refine tallied_bind (v.start _) fun r hr => ?_
  obtain ⟨hschema, -, -, hregistry, -⟩ := started_of_start hr
  have hboth : List.Forall₂ (fun e e' => e ∈ es ∧ e.Same e') es es' :=
    (List.forall₂_and_left _ _).mpr ⟨fun _ he => he, h⟩
  refine tallied_gather hboth fun e e' he => tallied_bind r.proceed fun _ _ => ?_
  exact Run.checkEntity_same he.2 hschema (hregistry ▸ hrules) (hschema ▸ hclear e he.1)

end Validator

/-! ## The store under schemas that are the same -/

namespace Run

variable {r : Run (Except ValidationError)} {s : Schema}

theorem checkAbstractClass_withSchema (h : r.schema.Kindred s) {c c' : Constraint}
    (hc : c.Same c') :
    reported (r.checkAbstractClass c) = reported ((r.withSchema s).checkAbstractClass c') := by
  unfold checkAbstractClass
  rw [hc.entityClass_eq]
  refine reported_bind _ fun cls => reported_bind r.proceed fun _ => ?_
  rw [referrers_withSchema h]
  refine reported_bind _ fun stream => ?_
  cases stream.head? with
  | none => rfl
  | some arrival =>
    refine reported_bind _ fun found => congrArg (fun f => Except.ok [f]) ?_
    simp only [Violation.finding, Option.map_some, hc.id_eq, schema_withSchema, h.canonical_eq]

/-- **The store reports the same.** -/
theorem checkStore_withSchema (h : r.schema.Same s) :
    reported r.checkStore = reported (r.withSchema s).checkStore := by
  have habstract : List.Forall₂ Constraint.Same r.schema.abstractConstraints
      s.abstractConstraints :=
    List.rel_filter (fun c c' hc => by simp only [hc.kind]) h.constraints
  exact reported_gather habstract fun c c' hc => checkAbstractClass_withSchema h.kindred hc

end Run

namespace Validator

variable {v : Validator (Except ValidationError)} {s s' : Schema}

/-- What is run after a run has started over schemas that are the same. -/
theorem reported_start_bind (h : s.Same s')
    {f : Run (Except ValidationError) → Except ValidationError (List Violation)}
    (hf : ∀ r, v.Started s r → r.schema.Same s' →
      reported (f r) = reported (f (r.withSchema s'))) :
    reported (v.start s >>= f) = reported (v.start s' >>= f) := by
  rw [start_withSchema v s s']
  cases hstart : v.start s with
  | error err => rfl
  | ok r =>
    have hr := started_of_start hstart
    exact hf r hr (hr.schema ▸ h)

theorem validateStore_same (h : s.Same s') :
    reported (v.validateStore s) = reported (v.validateStore s') :=
  reported_start_bind h fun r _ hr =>
    reported_bind r.provider fun _ => Run.checkStore_withSchema hr

theorem validateDataset_same (hrules : v.rules.Extensional) (h : s.Same s') (d : String) :
    reported (v.validateDataset s d) = reported (v.validateDataset s' d) := by
  refine reported_start_bind h fun r hstarted hr => ?_
  refine reported_bind r.provider fun p => reported_bind _ fun answer =>
    reported_bind _ fun stream => ?_
  rw [reported_append, reported_append, Run.checkStore_withSchema hr]
  refine congrArg (· >>= _) (reported_gather_congr stream fun arrival =>
    reported_bind _ fun e => reported_bind r.proceed fun _ => ?_)
  exact Run.checkEntity_withSchema (hstarted.rules ▸ hrules) hr e

end Validator

end EntityGraph
