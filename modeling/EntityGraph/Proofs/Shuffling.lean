import EntityGraph.Proofs.Footprint
import EntityGraph.Proofs.OpenWorld
import EntityGraph.Proofs.Reordering

/-!
# Validation in another order

A validation goes through types, constraints and targets one after another, and stops at the first
failure. In another order it meets the same parts: it fails if and only if some part does, though
perhaps with the error of another part, and otherwise finds the same in another order. So neither
the order in which a schema is declared nor the order in which an entity is written decides what is
found.

Results:
* `gather_shuffled`: parts in another order find the same.
* `checkConstraint_shuffled`: one constraint against an entity that is written in another order.
* `checkEntity_shuffled`: all constraints, in another order too.
* `Validator.validateEntity_reordered`: the content of a validation does not depend on the order.
-/

namespace EntityGraph

/-! ## Shuffled outcomes -/

/-- Two computations both fail, or report the same up to the order. -/
def Shuffled (x y : Except ValidationError (List Violation)) : Prop :=
  (∃ err err', x = .error err ∧ y = .error err') ∨
    ∃ vs ws, x = .ok vs ∧ y = .ok ws ∧
      (vs.map Violation.finding).Perm (ws.map Violation.finding)

section

variable {x y z x' y' : Except ValidationError (List Violation)}

theorem shuffled_of_perm {vs ws : List Violation}
    (h : (vs.map Violation.finding).Perm (ws.map Violation.finding)) :
    Shuffled (.ok vs) (.ok ws) :=
  Or.inr ⟨vs, ws, rfl, rfl, h⟩

theorem shuffled_of_reported (h : reported x = reported y) : Shuffled x y := by
  cases x with
  | error err =>
    cases y with
    | error err' => exact Or.inl ⟨err, err', rfl, rfl⟩
    | ok ws => cases h
  | ok vs =>
    cases y with
    | error err' => cases h
    | ok ws =>
      have hfindings : vs.map Violation.finding = ws.map Violation.finding := Except.ok.inj h
      exact shuffled_of_perm (.of_eq hfindings)

theorem Shuffled.trans (h : Shuffled x y) (h' : Shuffled y z) : Shuffled x z := by
  rcases h with ⟨err, err', rfl, rfl⟩ | ⟨vs, ws, rfl, rfl, hperm⟩
  · rcases h' with ⟨_, err'', -, rfl⟩ | ⟨_, _, hok, -⟩
    · exact Or.inl ⟨err, err'', rfl, rfl⟩
    · cases hok
  · rcases h' with ⟨_, _, herr, -⟩ | ⟨_, us, hok, rfl, hperm'⟩
    · cases herr
    · obtain rfl := Except.ok.inj hok
      exact shuffled_of_perm (hperm.trans hperm')

theorem Shuffled.error_iff (h : Shuffled x y) :
    (∃ err, x = .error err) ↔ ∃ err, y = .error err := by
  rcases h with ⟨err, err', rfl, rfl⟩ | ⟨vs, ws, rfl, rfl, -⟩ <;> simp

theorem Shuffled.perm {vs ws : List Violation} (h : Shuffled (.ok vs) (.ok ws)) :
    (vs.map Violation.finding).Perm (ws.map Violation.finding) := by
  rcases h with ⟨_, _, herr, -⟩ | ⟨_, _, hx, hy, hperm⟩
  · cases herr
  · obtain rfl := Except.ok.inj hx
    obtain rfl := Except.ok.inj hy
    exact hperm

theorem Shuffled.bind {α : Type} (a : Except ValidationError α)
    {f g : α → Except ValidationError (List Violation)} (h : ∀ b, Shuffled (f b) (g b)) :
    Shuffled (a >>= f) (a >>= g) := by
  cases a with
  | error err => exact Or.inl ⟨err, err, rfl, rfl⟩
  | ok b => exact h b

/-- What follows results that are related is shuffled if it is for related values. -/
theorem shuffled_lift_bind {α : Type} {R : α → α → Prop} {a b : Except SchemaError α}
    (h : SameResult R a b) {f g : α → Except ValidationError (List Violation)}
    (hfg : ∀ u w, R u w → Shuffled (f u) (g w)) :
    Shuffled (lift .schema a >>= f) (lift .schema b >>= g) := by
  cases h with
  | error err => exact Or.inl ⟨.schema err, .schema err, rfl, rfl⟩
  | ok hab => exact hfg _ _ hab

theorem Shuffled.append (h : Shuffled x y) (h' : Shuffled x' y') :
    Shuffled (do return (← x) ++ (← x')) (do return (← y) ++ (← y')) := by
  rcases h with ⟨err, err', rfl, rfl⟩ | ⟨vs, ws, rfl, rfl, hperm⟩
  · exact Or.inl ⟨err, err', rfl, rfl⟩
  · rcases h' with ⟨err, err', rfl, rfl⟩ | ⟨vs', ws', rfl, rfl, hperm'⟩
    · exact Or.inl ⟨err, err', rfl, rfl⟩
    · refine Or.inr ⟨vs ++ vs', ws ++ ws', rfl, rfl, ?_⟩
      rw [List.map_append, List.map_append]
      exact hperm.append hperm'

/-- **Parts in another order find the same.** Which of several failures is met first may change. -/
theorem gather_shuffled {α : Type} {f g : α → Except ValidationError (List Violation)}
    {l l' : List α} (hl : l.Perm l') (h : ∀ a ∈ l, Shuffled (f a) (g a)) :
    Shuffled (gather f l) (gather g l') := by
  have herr : (∃ err, gather f l = .error err) ↔ ∃ err, gather g l' = .error err := by
    rw [exists_gather_eq_error_iff, exists_gather_eq_error_iff]
    refine exists_congr fun a => ?_
    rw [hl.mem_iff]
    exact and_congr_right fun ha => (h a (hl.mem_iff.mpr ha)).error_iff
  rcases error_or_ok (gather f l) with hx | ⟨vs, hx⟩
  · obtain ⟨err', hy⟩ := herr.mp hx
    obtain ⟨err, hx⟩ := hx
    exact Or.inl ⟨err, err', hx, hy⟩
  · rcases error_or_ok (gather g l') with hy | ⟨ws, hy⟩
    · obtain ⟨err, hx'⟩ := herr.mpr hy
      rw [hx] at hx'
      cases hx'
    · refine Or.inr ⟨vs, ws, hx, hy, ?_⟩
      obtain ⟨found, hfound, rfl⟩ := gather_eq_ok_iff.mp hx
      obtain ⟨found', hfound', rfl⟩ := gather_eq_ok_iff.mp hy
      rw [List.map_flatMap, List.map_flatMap]
      refine hl.flatMap fun a ha => ?_
      have hpart := h a ha
      rw [hfound a ha, hfound' a (hl.mem_iff.mp ha)] at hpart
      exact hpart.perm

end

/-! ## Rules -/

/-- Two contexts of a rule whose schemas are declared in two orders. -/
structure RuleContext.Reordered {m : Type → Type} (ctx ctx' : RuleContext m) : Prop where
  schema : ctx.schema.Reordered ctx'.schema
  constraint : ctx.constraint = ctx'.constraint
  settings : ctx.settings = ctx'.settings
  provider? : ctx.provider? = ctx'.provider?

/-- A rule that ignores order: of an entity in another order and in the context of a schema in
another order, it says the same, or it fails on both. -/
def Rule.OrderBlind (rule : Rule (Except ValidationError)) : Prop :=
  ∀ ctx ctx' : RuleContext (Except ValidationError), ctx.Reordered ctx' →
    ∀ e e' : Entity, e.DistinctPredicates ctx.schema.namespaces → e.Reordered e' →
      (rule ctx e).toOption = (rule ctx' e').toOption

/-- Every registered rule ignores order. -/
def RuleRegistry.OrderBlind (rules : RuleRegistry (Except ValidationError)) : Prop :=
  ∀ entry ∈ rules.entries, Rule.OrderBlind entry.2

/-! ## Checks -/

theorem Schema.Reordered.kindred {s s' : Schema} (h : s.Reordered s') : s.Kindred s' where
  namespaces label := by rw [h.namespaces_eq]
  isSubclassOf_eq := h.isSubclassOf_eq

/-- What is undeclared in an entity is told by its predicates. -/
theorem undeclared_perm_of_keys (s : Schema) {e e' : Entity} (hid : e.id = e'.id)
    (hproperties : e.properties.keys.Perm e'.properties.keys)
    (hreferences : e.references.keys.Perm e'.references.keys) :
    ((Violation.undeclared s e).map Violation.finding).Perm
      ((Violation.undeclared s e').map Violation.finding) := by
  unfold Violation.undeclared
  simp only [List.map_append, List.map_map]
  refine List.Perm.append ?_ ?_
  · refine ((hproperties.filter _).map _).trans (.of_eq ?_)
    refine List.map_congr_left fun p _ => ?_
    simp only [Function.comp, Violation.finding, hid, Option.map_some]
  · refine ((hreferences.filter _).map _).trans (.of_eq ?_)
    refine List.map_congr_left fun p _ => ?_
    simp only [Function.comp, Violation.finding, hid, Option.map_some]

/-- What is undeclared in an entity is so in either order. -/
theorem undeclared_perm {s s' : Schema} {e e' : Entity} (h : s.Reordered s')
    (he : e.Reordered e') :
    ((Violation.undeclared s e).map Violation.finding).Perm
      ((Violation.undeclared s' e').map Violation.finding) := by
  have hschema : Violation.undeclared s e = Violation.undeclared s' e := by
    unfold Violation.undeclared
    simp only [h.declaresProperty_eq, h.declaresReference_eq]
  rw [hschema]
  exact undeclared_perm_of_keys s' he.id (OrderedMap.keys_perm he.rel_properties)
    (OrderedMap.keys_perm he.rel_references)

section

variable {r : Run (Except ValidationError)} {s : Schema} {c : Constraint} {e e' : Entity}

/-- A reference is checked by the identifier and the targets, in any order. -/
theorem checkReference_shuffled (h : e.id = e'.id)
    (htargets : ∀ p, (e.targetsAt r.schema.namespaces p).Perm
      (e'.targetsAt r.schema.namespaces p)) (c : Constraint) :
    Shuffled (r.checkReference c e) (r.checkReference c e') := by
  unfold Run.checkReference
  refine .bind _ fun p => .bind _ fun bounds => ?_
  have hcounted : Shuffled
      (.ok (Violation.occurrences .ofReference c e p bounds
        (e.targetsAt r.schema.namespaces p).length))
      (.ok (Violation.occurrences .ofReference c e' p bounds
        (e'.targetsAt r.schema.namespaces p).length)) := by
    rw [(htargets p).length_eq]
    exact shuffled_of_perm (.of_eq (map_finding_occurrences_of_id h _ _ _ _ _))
  split
  · exact hcounted.append (gather_shuffled (htargets p) fun target _ =>
      shuffled_of_reported (Run.checkTarget_of_id h c target))
  · exact hcounted

/-- An abstract class is checked by the identifier and the types, in any order. -/
theorem checkAbstract_of_types (h : e.id = e'.id) (htypes : e.types.Perm e'.types)
    (c : Constraint) : reported (r.checkAbstract c e) = reported (r.checkAbstract c e') := by
  unfold Run.checkAbstract
  refine reported_bind _ fun cls => ?_
  rw [htypes.any_eq]
  split
  · rw [reported_pure, reported_pure, h, List.map_singleton, List.map_singleton, finding_of_id h]
  · rfl

theorem checkRule_shuffled (hrules : r.rules.OrderBlind) (h : r.schema.Reordered s)
    (hdist : e.DistinctPredicates r.schema.namespaces) (he : e.Reordered e') (c : Constraint) :
    Shuffled (r.checkRule c e) ((r.withSchema s).checkRule c e') := by
  have hfind : (r.withSchema s).rules.find? (r.withSchema s).schema.namespaces c =
      r.rules.find? r.schema.namespaces c := by
    rw [Run.schema_withSchema, h.namespaces_eq]
    rfl
  unfold Run.checkRule
  rw [hfind]
  cases hrule : r.rules.find? r.schema.namespaces c with
  | none => exact shuffled_of_reported rfl
  | some rule =>
    obtain ⟨entry, hentry, rfl⟩ := Option.map_eq_some_iff.mp hrule
    have hanswer := hrules entry (List.mem_of_find?_eq_some hentry)
      ⟨r.schema, c, r.settings, r.provider?⟩ ⟨s, c, r.settings, r.provider?⟩ ⟨h, rfl, rfl, rfl⟩
      e e' hdist he
    show Shuffled (entry.2 ⟨r.schema, c, r.settings, r.provider?⟩ e >>= _)
      (entry.2 ⟨s, c, r.settings, r.provider?⟩ e' >>= _)
    cases hx : entry.2 ⟨r.schema, c, r.settings, r.provider?⟩ e with
    | error err =>
      cases hy : entry.2 ⟨s, c, r.settings, r.provider?⟩ e' with
      | error err' => exact Or.inl ⟨err, err', rfl, rfl⟩
      | ok answer => rw [hx, hy] at hanswer; cases hanswer
    | ok answer =>
      cases hy : entry.2 ⟨s, c, r.settings, r.provider?⟩ e' with
      | error err' => rw [hx, hy] at hanswer; cases hanswer
      | ok answer' =>
        rw [hx, hy] at hanswer
        obtain rfl := Option.some.inj hanswer
        cases answer with
        | none => exact shuffled_of_reported rfl
        | some message =>
          exact shuffled_of_perm (.of_eq (congrArg (· :: []) (finding_of_id he.id _ _ _)))

/-- **One constraint against an entity that is written in another order.** -/
theorem checkConstraint_shuffled (hrules : r.rules.OrderBlind) (h : r.schema.Reordered s)
    (hdist : e.DistinctPredicates r.schema.namespaces) (he : e.Reordered e') (c : Constraint) :
    Shuffled (r.checkConstraint e c) ((r.withSchema s).checkConstraint e' c) := by
  have hdist' : e.DistinctPredicates (r.withSchema s).schema.namespaces := by
    rw [Run.schema_withSchema, h.namespaces_eq]
    exact hdist
  unfold Run.checkConstraint
  cases c.kind with
  | property =>
    have hschema := Run.checkProperty_withSchema h.kindred (.refl c) e
    have hentity := Run.checkProperty_of_count he.id (he.propertyCountAt_eq hdist') c
    exact shuffled_of_reported (hschema.trans hentity)
  | reference =>
    have hschema := Run.checkReference_withSchema h.kindred (.refl c) e
    exact (shuffled_of_reported hschema).trans
      (checkReference_shuffled he.id (he.targetsAt_perm hdist') c)
  | isAbstract =>
    have hschema := Run.checkAbstract_withSchema h.kindred (.refl c) e
    have hentity := checkAbstract_of_types (r := r.withSchema s) he.id he.types_perm c
    exact shuffled_of_reported (hschema.trans hentity)
  | application => exact checkRule_shuffled hrules h hdist he c

/-- The referrers are the same, and counted in the order of the store. -/
theorem checkInverse_shuffled (h : r.schema.Reordered s) (he : e.Reordered e') (c : Constraint) :
    Shuffled (r.checkInverse c e) ((r.withSchema s).checkInverse c e') := by
  have hschema := Run.checkInverse_withSchema h.kindred (.refl c) e
  have hentity := Run.checkInverse_of_id (r := r.withSchema s) he.id c
  exact shuffled_of_reported (hschema.trans hentity)

theorem checkType_shuffled (hrules : r.rules.OrderBlind) (h : r.schema.Reordered s)
    (hdist : e.DistinctPredicates r.schema.namespaces) (he : e.Reordered e') (type : String) :
    Shuffled (r.checkType e type) ((r.withSchema s).checkType e' type) := by
  have hown := shuffled_lift_bind (h.constraintsFor type true) fun cs cs' hcs =>
    gather_shuffled hcs fun c _ => checkConstraint_shuffled hrules h hdist he c
  cases hrelated : r.settings.related with
  | false =>
    have hrelated' : (r.withSchema s).settings.related = false := hrelated
    rw [Run.checkType_of_not_related hrelated, Run.checkType_of_not_related hrelated']
    exact hown
  | true =>
    have hrelated' : (r.withSchema s).settings.related = true := hrelated
    rw [Run.checkType_of_related hrelated, Run.checkType_of_related hrelated']
    refine hown.append (shuffled_lift_bind (h.inverseConstraintsFor type true) fun ds ds' hds => ?_)
    exact gather_shuffled hds fun c _ => checkInverse_shuffled h he c

/-- **An entity against a schema, both in another order.** -/
theorem checkEntity_shuffled (hrules : r.rules.OrderBlind) (h : r.schema.Reordered s)
    (hdist : e.DistinctPredicates r.schema.namespaces) (he : e.Reordered e') :
    Shuffled (r.checkEntity e) ((r.withSchema s).checkEntity e') := by
  unfold Run.checkEntity
  rw [he.types_perm.isEmpty_eq, Run.settings_withSchema, Run.schema_withSchema]
  split
  · exact shuffled_of_reported rfl
  · have hundeclared : Shuffled
        (.ok (if r.settings.strict then Violation.undeclared r.schema e else []))
        (.ok (if r.settings.strict then Violation.undeclared s e' else [])) := by
      split
      · exact shuffled_of_perm (undeclared_perm h he)
      · exact shuffled_of_perm (.refl _)
    exact hundeclared.append (gather_shuffled he.types_perm fun type _ =>
      checkType_shuffled hrules h hdist he type)

end

/-! ## Validations -/

namespace Validator

variable {v : Validator (Except ValidationError)} {s s' : Schema}

/-- A run over another schema starts as the first one does. -/
theorem start_withSchema (v : Validator (Except ValidationError)) (s s' : Schema) :
    v.start s' = (v.start s).map (·.withSchema s') := by
  unfold start
  cases v.signals.now with
  | error err => rfl
  | ok started =>
    simp only [ok_bind]
    split
    · rfl
    · let r : Run (Except ValidationError) :=
        ⟨s, v.settings, v.provider?, v.rules, v.signals, started⟩
      have hmap : (do r.proceed; return r.withSchema s' : Except ValidationError (Run _)) =
          Except.map (·.withSchema s') (do r.proceed; return r) := by
        cases r.proceed <;> rfl
      exact hmap

/-- A validation of an entity in another order, against a schema in another order. -/
theorem validateEntity_shuffled (hrules : v.rules.OrderBlind) (h : s.Reordered s') {e e' : Entity}
    (hdist : e.DistinctPredicates s.namespaces) (he : e.Reordered e') :
    Shuffled (v.validateEntity s e) (v.validateEntity s' e') := by
  have hstart' := start_withSchema v s s'
  cases hstart : v.start s with
  | error err =>
    rw [hstart] at hstart'
    have hx : v.validateEntity s e = .error err := validateEntities_of_start_error v s hstart [e]
    have hy : v.validateEntity s' e' = .error err :=
      validateEntities_of_start_error v s' hstart' [e']
    exact Or.inl ⟨err, err, hx, hy⟩
  | ok r =>
    rw [hstart] at hstart'
    obtain ⟨hschema, -, -, hregistry, -⟩ := started_of_start hstart
    rw [validateEntity_of_start v s hstart, validateEntity_of_start v s' hstart']
    refine .bind r.proceed fun _ => ?_
    exact checkEntity_shuffled (hregistry ▸ hrules) (hschema.symm ▸ h) (hschema.symm ▸ hdist) he

/-- **The content of a validation does not depend on the order of declaration.** The entities of the
schema may stand in any order, and so may the types, the properties and the references of the entity
under validation. Settings and data provider are arbitrary, rules ignore order. What is reported is
the same up to its order; a validation that fails still fails, perhaps with another error. -/
theorem validateEntity_reordered {c₀ c c' : Collection} (hexp : c₀.expanded = .ok c)
    (hfull : c.namespaces.FullExpansions) (hc : c.Reordered c') {e e' : Entity}
    (hdist : e.DistinctPredicates c.namespaces) (he : e.Reordered e')
    (hrules : v.rules.OrderBlind) :
    (∀ vs, v.validateEntity (.ofCollection c) e = .ok vs →
      ∃ ws, v.validateEntity (.ofCollection c') e' = .ok ws ∧
        (vs.map Violation.finding).Perm (ws.map Violation.finding)) ∧
    ((∃ err, v.validateEntity (.ofCollection c) e = .error err) →
      ∃ err, v.validateEntity (.ofCollection c') e' = .error err) := by
  have h : (Schema.ofCollection c).Reordered (.ofCollection c') :=
    ⟨⟨hfull, c₀, c, hexp, rfl⟩, hc, rfl⟩
  have hshuffled := validateEntity_shuffled hrules h hdist he
  refine ⟨fun vs hvs => ?_, hshuffled.error_iff.mp⟩
  rw [hvs] at hshuffled
  rcases hshuffled with ⟨err, _, herr, -⟩ | ⟨_, ws, hok, hws, hperm⟩
  · cases herr
  · obtain rfl := Except.ok.inj hok
    exact ⟨ws, hws, hperm⟩

/-- A rule that asks for a single type. -/
def single : Rule (Except ValidationError) := fun _ e =>
  .ok (if 1 < e.types.length then some (e.id ++ " has several types") else none)

/-- The rule counts the types, whatever their order. -/
theorem orderBlind_single : single.OrderBlind := by
  intro ctx ctx' _ e e' _ he
  unfold single
  rw [he.types_perm.length_eq, he.id]

/-- A strict validator that knows the rule. -/
def auditor : Validator (Except ValidationError) where
  settings := { strict := true }
  rules := .register .empty "urn:single" single
  signals := .quiet

/-- A person has one name at most, and a single type. -/
def auditedPersons : SchemaBuilder :=
  let (named, b) := SchemaBuilder.empty.startConstraint .property "urn:Person"
  let b := b.addConstraint ((named.setName Vocabulary.propertyClass "urn:name").setBound
    Vocabulary.maxCard 1)
  let (rule, b) := b.startConstraint .application "urn:Person"
  b.addConstraint (rule.setName Vocabulary.rule "urn:single")

/-- A person and agent with two names, and with a spouse that nothing declares. -/
def abe : Entity :=
  let typed := ({ id := "urn:abe" } : Entity).setReference Vocabulary.rdfType
    (.many ["urn:Person", "urn:Agent"])
  let named := typed.setProperty "urn:name" (.many [.string "Abe", .string "Abraham"])
  (named.setProperty "urn:age" (.one (.int 83))).setReference "urn:spouse" (.one "urn:mona")

/-- The same, everything written in the opposite order. -/
def backwardsAbe : Entity :=
  let spouse := ({ id := "urn:abe" } : Entity).setReference "urn:spouse" (.one "urn:mona")
  let typed := spouse.setReference Vocabulary.rdfType (.many ["urn:Agent", "urn:Person"])
  (typed.setProperty "urn:age" (.one (.int 83))).setProperty "urn:name"
    (.many [.string "Abe", .string "Abraham"])

theorem abe_reordered : abe.Reordered backwardsAbe := by
  have hperm : ["urn:Person", "urn:Agent"].Perm ["urn:Agent", "urn:Person"] := .swap _ _ _
  have htypes : abe.Reordered (abe.setReference Vocabulary.rdfType
      (.many ["urn:Agent", "urn:Person"])) := .of_types rfl hperm
  exact htypes.trans (.of_perm (by decide +kernel) (by decide +kernel))

/-- The collection with its entities in the opposite order. -/
def backwards (c : Collection) : Collection :=
  { c with entities := c.entities.reverse, index := Collection.positions c.entities.reverse }

/-- What the two constraints find comes in the opposite order. -/
theorem validateEntity_reordered_abe :
    ∃ c₀ c, Collection.expanded c₀ = .ok c ∧ c.namespaces.FullExpansions ∧
    c.Reordered (backwards c) ∧ abe.DistinctPredicates c.namespaces ∧
    abe.Reordered backwardsAbe ∧ auditor.rules.OrderBlind ∧
    ∃ vs ws, auditor.validateEntity (.ofCollection c) abe = .ok vs ∧
      auditor.validateEntity (.ofCollection (backwards c)) backwardsAbe = .ok ws ∧
      vs.map Violation.kind = [.undeclaredProperty, .undeclaredReference,
        .maxPropertyOccurrenceExceeded, .applicationRuleViolation] ∧
      ws.map Violation.kind = [.undeclaredProperty, .undeclaredReference,
        .applicationRuleViolation, .maxPropertyOccurrenceExceeded] ∧
      (vs.map Violation.finding).Perm (ws.map Violation.finding) := by
  have hfacts : ∃ s ∈ auditedPersons.build.toOption,
      (auditor.validateEntity s abe).toOption.map (·.map Violation.kind) =
        some [.undeclaredProperty, .undeclaredReference, .maxPropertyOccurrenceExceeded,
          .applicationRuleViolation] ∧
      (auditor.validateEntity (.ofCollection (backwards s.collection)) backwardsAbe).toOption.map
        (·.map Violation.kind) =
        some [.undeclaredProperty, .undeclaredReference, .applicationRuleViolation,
          .maxPropertyOccurrenceExceeded] := by
    decide +kernel
  obtain ⟨s, hmem, habe, hbackwards⟩ := hfacts
  have hbuild : auditedPersons.build = .ok s := eq_ok_of_mem_toOption hmem
  obtain ⟨hnamespaces, c₀, c, hexp, rfl⟩ := SchemaBuilder.build_eq_ok hbuild
  have hs := SchemaBuilder.fromExpanded_of_build hbuild (by decide +kernel)
  have hc : c.Reordered (backwards c) := ⟨rfl, rfl, (List.reverse_perm _).symm, rfl⟩
  have hdist : abe.DistinctPredicates c.namespaces := by
    show abe.DistinctPredicates (Schema.ofCollection c).namespaces
    rw [hnamespaces]
    unfold Entity.DistinctPredicates
    decide +kernel
  have hrules : auditor.rules.OrderBlind := by
    intro entry hentry
    obtain rfl := List.mem_singleton.mp hentry
    exact orderBlind_single
  obtain ⟨vs, hvs, hkinds⟩ := exists_ok_of_toOption_map habe
  obtain ⟨ws, hws, hkinds'⟩ := exists_ok_of_toOption_map hbackwards
  obtain ⟨ws', hws', hperm⟩ :=
    (validateEntity_reordered hexp hs.expansions hc hdist abe_reordered hrules).1 vs hvs
  obtain rfl := Except.ok.inj (hws.symm.trans hws')
  exact ⟨c₀, c, hexp, hs.expansions, hc, hdist, abe_reordered, hrules, vs, ws, hvs, hws, hkinds,
    hkinds', hperm⟩

end Validator

end EntityGraph
