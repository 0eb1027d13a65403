import EntityGraph.Proofs.Lineage
import EntityGraph.Proofs.Occurrence

/-!
# Open-world validation

What validating one entity means when undeclared predicates are let pass, related entities are
not looked at and no rules are registered. The outcome is described without the look-ups: by the
lines of the declared types, by the constraints whose class denotes a level of one, and by the
integers these constraints declare.

Results:
* `checkConstraint_settles`: what holding an entity against one constraint gives.
* `checkType_settles`: the same for all constraints of one type.
* `validateEntity_openWorld`: a validation fails exactly if the declared types are obstructed,
  and otherwise reports what the constraints of their levels expect, in order.
-/

namespace EntityGraph

namespace Constraint

/-- The predicate that a property or a reference constraint names. -/
def predicate? (c : Constraint) : Option String :=
  match c.kind with
  | .property => (c.entity.firstReference? Vocabulary.propertyClass).or
      (c.entity.firstString? Vocabulary.propertyClass)
  | .reference => c.entity.firstReference? Vocabulary.referenceClass
  | _ => none

/-- A property or reference constraint that cannot be evaluated: it names no predicate, or the
bounds it declares are no bounds. -/
def Malformed (c : Constraint) : Prop :=
  (c.kind = .property ∨ c.kind = .reference) ∧
    (c.predicate? = none ∨ c.BadBounds Vocabulary.minCard Vocabulary.maxCard)

/-- What a count breaks of the bounds that a constraint declares. -/
def broken (c : Constraint) (e : Entity) (tooFew tooMany : Violation.Kind) (count : Nat) :
    List (Violation.Kind × Option Constraint × Option Entity) :=
  (if (count : Int) < c.leastAt Vocabulary.minCard then [(tooFew, some c, some e)] else []) ++
  (if c.greatestAt Vocabulary.maxCard ≠ -1 ∧ c.greatestAt Vocabulary.maxCard < (count : Int) then
    [(tooMany, some c, some e)] else [])

/-- What an entity breaks of a constraint: the bounds on a property or a reference, by all that
the entity has at the predicate in any spelling, or that a class is not declared directly. -/
def expected (ns : Namespaces) (e : Entity) (c : Constraint) :
    List (Violation.Kind × Option Constraint × Option Entity) :=
  match c.kind with
  | .property => c.predicate?.elim [] fun p =>
      c.broken e .minPropertyOccurrenceNotMet .maxPropertyOccurrenceExceeded
        (e.properties.total ns p)
  | .reference => c.predicate?.elim [] fun p =>
      c.broken e .minReferenceOccurrenceNotMet .maxReferenceOccurrenceExceeded
        (e.references.total ns p)
  | .isAbstract =>
    if ∃ type ∈ e.types, ∃ cls ∈ c.entityClass?, ns.same type cls = true then
      [(.abstractEntityClassViolation, some c, some e)]
    else []
  | .application => []

end Constraint

/-- The declared types of an entity are obstructed: one is a class without line, or takes a
malformed constraint on one of its levels. -/
def Schema.Obstructed (s : Schema) (types : List String) : Prop :=
  ∃ type ∈ types,
    (∃ cls, s.Declares type cls ∧ ∀ ancestors, ¬ s.Lineage cls ancestors) ∨
    ∃ levels, s.Levels type levels ∧ ∃ level ∈ levels, ∃ c ∈ s.constraintsAt level, c.Malformed

/-- The validator lets undeclared predicates pass, does not look at related entities, has no
rules, and nothing stops its runs. -/
structure Validator.OpenWorld (v : Validator (Except ValidationError)) : Prop where
  strict : v.settings.strict = false
  related : v.settings.related = false
  timeout : v.settings.timeoutMs = none
  rules : v.rules.entries = []
  signals : v.signals = .quiet

/-! ## One constraint -/

section Constraints

variable {r : Run (Except ValidationError)} {e : Entity} {c : Constraint}

theorem substance_occurrences (o : Violation.Occurrence) (p : String) (b : Cardinality) (n : Nat) :
    (Violation.occurrences o c e p b n).map Violation.substance =
      (if b.isBelow n then [(o.tooFew, some c, some e)] else []) ++
      (if b.isAbove n then [(o.tooMany, some c, some e)] else []) := by
  unfold Violation.occurrences
  cases b.isBelow n <;> cases b.isAbove n <;> rfl

/-- Holding a count against declared bounds settles as the declared integers say. -/
theorem bounded_settles (o : Violation.Occurrence) (p : String) (n : Nat) :
    Settles (do
        let b ← lift ValidationError.schema c.cardinality
        return Violation.occurrences o c e p b n : Except ValidationError (List Violation))
      Violation.substance (c.BadBounds Vocabulary.minCard Vocabulary.maxCard)
      (c.broken e o.tooFew o.tooMany n) := by
  unfold Constraint.cardinality
  rcases c.bounds_cases Vocabulary.minCard Vocabulary.maxCard with
    ⟨hbad, err, herr⟩ | ⟨hgood, b, hb, hbelow, habove⟩
  · rw [herr]
    exact Or.inl ⟨hbad, _, rfl⟩
  · rw [hb]
    refine Or.inr ⟨hgood, _, rfl, ?_⟩
    rw [substance_occurrences, hbelow, habove]
    simp only [Constraint.broken, decide_eq_true_eq]

theorem malformed_iff (hk : c.kind = .property ∨ c.kind = .reference) :
    c.Malformed ↔
      c.predicate? = none ∨ c.BadBounds Vocabulary.minCard Vocabulary.maxCard :=
  and_iff_right hk

theorem not_malformed (hk : ¬ (c.kind = .property ∨ c.kind = .reference)) : ¬ c.Malformed :=
  fun h => hk h.1

theorem checkProperty_settles (he : e.DistinctPredicates r.schema.namespaces)
    (hk : c.kind = .property) : Settles (r.checkProperty c e) Violation.substance c.Malformed
      (c.expected r.schema.namespaces e) := by
  have hpred : c.predicate? = c.name? Vocabulary.propertyClass := by
    unfold Constraint.predicate?
    rw [hk]
    rfl
  unfold Run.checkProperty Constraint.propertyClass Constraint.expected
  rw [malformed_iff (Or.inl hk), hk, hpred]
  cases c.name? Vocabulary.propertyClass with
  | none => exact Or.inl ⟨Or.inl rfl, _, rfl⟩
  | some p =>
    simp only [lift_ok, ok_bind, Entity.propertyCountAt_eq he, reduceCtorEq, false_or,
      Option.elim_some]
    exact bounded_settles .ofProperty p _

theorem checkReference_settles (hrelated : r.settings.related = false)
    (he : e.DistinctPredicates r.schema.namespaces) (hk : c.kind = .reference) :
    Settles (r.checkReference c e) Violation.substance c.Malformed
      (c.expected r.schema.namespaces e) := by
  have hpred : c.predicate? = c.entity.firstReference? Vocabulary.referenceClass := by
    unfold Constraint.predicate?
    rw [hk]
  unfold Run.checkReference Constraint.referenceClass Constraint.expected
  rw [malformed_iff (Or.inr hk), hk, hpred, hrelated]
  cases c.entity.firstReference? Vocabulary.referenceClass with
  | none => exact Or.inl ⟨Or.inl rfl, _, rfl⟩
  | some p =>
    simp only [lift_ok, ok_bind, Entity.length_targetsAt_eq he, reduceCtorEq, false_or,
      Option.elim_some, Bool.false_eq_true, if_false]
    exact bounded_settles .ofReference p _

theorem checkAbstract_settles (hk : c.kind = .isAbstract) (hcls : c.entityClass?.isSome = true) :
    Settles (r.checkAbstract c e) Violation.substance c.Malformed
      (c.expected r.schema.namespaces e) := by
  obtain ⟨cls, hcls⟩ := Option.isSome_iff_exists.mp hcls
  unfold Run.checkAbstract Constraint.entityClass Constraint.expected
  simp only [hk, hcls, lift_ok, ok_bind, Option.mem_some_iff, exists_eq_left', List.any_eq_true]
  refine Or.inr ⟨not_malformed (by simp [hk]), ?_⟩
  split
  · exact ⟨_, rfl, rfl⟩
  · exact ⟨_, rfl, rfl⟩

/-- **What holding an entity against one constraint gives.** -/
theorem checkConstraint_settles (hrelated : r.settings.related = false)
    (hrules : r.rules.entries = []) (he : e.DistinctPredicates r.schema.namespaces)
    (hcls : c.entityClass?.isSome = true) :
    Settles (r.checkConstraint e c) Violation.substance c.Malformed
      (c.expected r.schema.namespaces e) := by
  unfold Run.checkConstraint
  cases hk : c.kind with
  | property => exact checkProperty_settles he hk
  | reference => exact checkReference_settles hrelated he hk
  | isAbstract => exact checkAbstract_settles hk hcls
  | application =>
    have hnone : r.rules.find? r.schema.namespaces c = none := by
      unfold RuleRegistry.find?
      rw [hrules]
      rfl
    refine Or.inr ⟨not_malformed (by simp [hk]), [], ?_, ?_⟩
    · unfold Run.checkRule
      rw [hnone]
      rfl
    · unfold Constraint.expected
      rw [hk]
      rfl

end Constraints

/-! ## One type -/

/-- A type has levels unless it denotes a class without line. -/
theorem levels_or_broken (s : Schema) (type : String) :
    (∃ levels, s.Levels type levels) ∨
      ∃ cls, s.Declares type cls ∧ ∀ ancestors, ¬ s.Lineage cls ancestors := by
  by_cases hd : ∃ cls, s.Declares type cls
  · obtain ⟨cls, hd⟩ := hd
    by_cases hl : ∃ ancestors, s.Lineage cls ancestors
    · obtain ⟨ancestors, hl⟩ := hl
      exact Or.inl ⟨_, Or.inl ⟨cls, ancestors, hd, hl, rfl⟩⟩
    · exact Or.inr ⟨cls, hd, fun ancestors h => hl ⟨ancestors, h⟩⟩
  · exact Or.inl ⟨[type], Or.inr ⟨fun cls h => hd ⟨cls, h⟩, rfl⟩⟩

namespace Schema.FromExpanded

variable {s : Schema}

/-- A class without line gives its types no levels. -/
theorem not_levels_of_broken (hs : s.FromExpanded) {type : String} {cls : EntityClass}
    (hd : s.Declares type cls) (hbroken : ∀ ancestors, ¬ s.Lineage cls ancestors)
    (levels : List String) : ¬ s.Levels type levels := by
  rintro (⟨cls', ancestors, hd', hl, -⟩ | ⟨hnone, -⟩)
  · obtain rfl := hs.declares_unique hd hd'
    exact hbroken ancestors hl
  · exact hnone cls hd

theorem levels_unique (hs : s.FromExpanded) {type : String} {levels levels' : List String}
    (h : s.Levels type levels) (h' : s.Levels type levels') : levels = levels' := by
  rcases h with ⟨cls, as, hd, hl, rfl⟩ | ⟨hnone, rfl⟩
  · rcases h' with ⟨cls', as', hd', hl', rfl⟩ | ⟨hnone, -⟩
    · obtain rfl := hs.declares_unique hd hd'
      rw [hs.lineage_unique hl hl']
    · exact absurd hd (hnone cls)
  · rcases h' with ⟨cls', _, hd', _⟩ | ⟨-, rfl⟩
    · exact absurd hd' (hnone cls')
    · rfl

theorem mem_constraintsAt {level : String} {c : Constraint} (h : c ∈ s.constraintsAt level) :
    c.entityClass?.isSome = true := by
  have := (List.mem_filter.mp h).2
  cases hcls : c.entityClass? with
  | none => rw [hcls] at this; cases this
  | some cls => rfl

end Schema.FromExpanded

section Types

variable {r : Run (Except ValidationError)} {e : Entity}

/-- A type without levels stops the check. -/
theorem checkType_of_broken (hs : r.schema.FromExpanded) {type : String}
    (h : ∀ levels, ¬ r.schema.Levels type levels) : ∃ err, r.checkType e type = .error err := by
  rcases error_or_ok (r.schema.constraintsFor type true) with ⟨err, herr⟩ | ⟨cs, hcs⟩
  · refine ⟨.schema err, ?_⟩
    unfold Run.checkType
    rw [herr]
    rfl
  · obtain ⟨levels, hlevels, -⟩ := hs.constraintsFor_eq_ok_iff.mp hcs
    exact absurd hlevels (h levels)

/-- **What holding an entity against the constraints of one type gives.** -/
theorem checkType_settles (hs : r.schema.FromExpanded) (hrelated : r.settings.related = false)
    (hrules : r.rules.entries = []) (he : e.DistinctPredicates r.schema.namespaces)
    {type : String} {levels : List String} (hl : r.schema.Levels type levels) :
    Settles (r.checkType e type) Violation.substance
      (∃ level ∈ levels, ∃ c ∈ r.schema.constraintsAt level, c.Malformed)
      (levels.flatMap fun level =>
        (r.schema.constraintsAt level).flatMap (Constraint.expected r.schema.namespaces e)) := by
  have hcheck : r.checkType e type =
      gather (gather (r.checkConstraint e)) (levels.map r.schema.constraintsAt) := by
    unfold Run.checkType
    rw [hs.constraintsFor_eq_ok_iff.mpr ⟨levels, hl, rfl⟩, lift_ok, ok_bind, hrelated,
      gather_flatten, ← List.flatMap_def]
    cases gather (r.checkConstraint e) (levels.flatMap r.schema.constraintsAt) <;> rfl
  rw [hcheck, gather_map]
  refine gather_settles fun level _ => gather_settles fun c hc => ?_
  exact checkConstraint_settles hrelated hrules he (Schema.FromExpanded.mem_constraintsAt hc)

end Types

/-! ## One entity -/

section Entities

variable {s : Schema} {e : Entity} {v : Validator (Except ValidationError)}

/-- An open-world validation of one entity holds it against its types, one after another. -/
theorem Validator.OpenWorld.validateEntity_eq (hv : v.OpenWorld) (s : Schema) (e : Entity) :
    v.validateEntity s e =
      gather (Run.checkType ⟨s, v.settings, v.provider?, v.rules, v.signals, 0⟩ e) e.types := by
  set r : Run (Except ValidationError) := ⟨s, v.settings, v.provider?, v.rules, v.signals, 0⟩
  have htimeout : r.settings.timeoutMs = none := hv.timeout
  have hproceed : r.proceed = .ok () :=
    Run.proceed_of_quiet hv.signals (by rw [htimeout]; simp)
  have hstart : v.start s = .ok r := by
    unfold start
    rw [show v.signals.now = .ok 0 by rw [hv.signals]; rfl, hv.related]
    simp only [ok_bind, Bool.false_and, Bool.false_eq_true, if_false]
    rw [show Run.proceed ⟨s, v.settings, v.provider?, v.rules, v.signals, 0⟩ = .ok () from hproceed]
    rfl
  have hstep : step r e = r.checkEntity e := by
    unfold step
    rw [hproceed]
    rfl
  rw [validateEntity_of_start v s hstart, hstep]
  unfold Run.checkEntity
  rw [show r.settings.strict = false from hv.strict]
  cases htypes : e.types with
  | nil => rfl
  | cons type types =>
    simp only [List.isEmpty_cons, Bool.false_eq_true, if_false, List.nil_append]
    cases gather (r.checkType e) (type :: types) <;> rfl

/-- What holding an entity against all its types gives, by any function that knows the levels of
the types that have some. -/
theorem Validator.OpenWorld.settles (hv : v.OpenWorld) (hs : s.FromExpanded)
    (he : e.DistinctPredicates s.namespaces) {levels : String → List String}
    (hlevels : ∀ type ls, s.Levels type ls → levels type = ls) :
    Settles (v.validateEntity s e) Violation.substance (s.Obstructed e.types)
      (e.types.flatMap fun type => (levels type).flatMap fun level =>
        (s.constraintsAt level).flatMap (Constraint.expected s.namespaces e)) := by
  rw [hv.validateEntity_eq s e]
  refine gather_settles fun type _ => ?_
  rcases levels_or_broken s type with ⟨ls, hls⟩ | ⟨cls, hd, hbroken⟩
  · rw [hlevels type ls hls]
    rcases checkType_settles (r := ⟨s, v.settings, v.provider?, v.rules, v.signals, 0⟩) hs
      hv.related hv.rules he hls with ⟨hbad, herr⟩ | ⟨hgood, hout⟩
    · exact Or.inl ⟨Or.inr ⟨ls, hls, hbad⟩, herr⟩
    · refine Or.inr ⟨?_, hout⟩
      rintro (⟨cls, hd, hbroken⟩ | ⟨ls', hls', hbad⟩)
      · exact hs.not_levels_of_broken hd hbroken ls hls
      · exact hgood (hs.levels_unique hls' hls ▸ hbad)
  · exact Or.inl ⟨Or.inl ⟨cls, hd, hbroken⟩,
      checkType_of_broken hs (hs.not_levels_of_broken hd hbroken)⟩

/-- **Open-world validation, exactly.** It fails if and only if the declared types are obstructed,
whatever the values of the entity. Otherwise it reports, for each declared type in order, for each
of its levels from the type itself up, and for each constraint of the level in order of
declaration, what the entity breaks of it. -/
theorem validateEntity_openWorld (hs : s.FromExpanded) (he : e.DistinctPredicates s.namespaces)
    (hv : v.OpenWorld) :
    ((∃ err, v.validateEntity s e = .error err) ↔ s.Obstructed e.types) ∧
    (¬ s.Obstructed e.types →
      ∃ levels : String → List String, (∀ type ∈ e.types, s.Levels type (levels type)) ∧
        ∃ vs, v.validateEntity s e = .ok vs ∧
          vs.map Violation.substance = e.types.flatMap fun type =>
            (levels type).flatMap fun level =>
              (s.constraintsAt level).flatMap (Constraint.expected s.namespaces e)) := by
  classical
  -- The levels of a type, and none for a class without line.
  let levels : String → List String := fun type =>
    if h : ∃ levels, s.Levels type levels then h.choose else []
  have hlevels : ∀ type ls, s.Levels type ls → levels type = ls := fun type ls h => by
    have hex : ∃ levels, s.Levels type levels := ⟨ls, h⟩
    simp only [levels, dif_pos hex]
    exact hs.levels_unique hex.choose_spec h
  rcases hv.settles hs he hlevels with ⟨hbad, err, herr⟩ | ⟨hgood, vs, hvs, hview⟩
  · exact ⟨⟨fun _ => hbad, fun _ => ⟨err, herr⟩⟩, fun h => absurd hbad h⟩
  · refine ⟨⟨fun ⟨err, herr⟩ => ?_, fun h => absurd h hgood⟩, fun _ => ⟨levels, ?_, vs, hvs, hview⟩⟩
    · rw [hvs] at herr
      cases herr
    · intro type htype
      rcases levels_or_broken s type with ⟨ls, hls⟩ | hbroken
      · rw [hlevels type ls hls]
        exact hls
      · exact absurd ⟨type, htype, Or.inl hbroken⟩ hgood

/-- An abstract class of agents with exactly one name, and persons below it. -/
def clanBuilder : SchemaBuilder :=
  let b := SchemaBuilder.empty.bind "ex" "http://example.org/"
  let b := b.addClass (ClassDraft.named "ex:Agent").makeAbstract
  let b := b.addClass ((ClassDraft.named "ex:Person").addParent "ex:Agent")
  let (named, b) := b.startConstraint .property "ex:Agent"
  b.addConstraint (((named.setName Vocabulary.propertyClass "ex:name").setBound
    Vocabulary.minCard 1).setBound Vocabulary.maxCard 1)

/-- A person with two names, written at the full URI of the predicate. -/
def homer : Entity :=
  (({ id := "ex:homer" } : Entity).setReference Vocabulary.rdfType (.one "ex:Person")).setProperty
    "http://example.org/name" (.many [.string "Homer", .string "Max"])

/-- The schema of the clan is built, and the person breaks one bound of it. -/
theorem clan_built : ∃ clan, clanBuilder.build = .ok clan ∧
    (Validator.plain.validateEntity clan homer).toOption.map (·.map Violation.kind) =
      some [.maxPropertyOccurrenceExceeded] := by
  have hrun : clanBuilder.build.toOption.map (fun clan =>
      (Validator.plain.validateEntity clan homer).toOption.map (·.map Violation.kind)) =
        some (some [.maxPropertyOccurrenceExceeded]) := by decide +kernel
  exact exists_ok_of_toOption_map hrun

/-- The person breaks what its class inherits, although the predicate and the type are written in
other spellings than in the schema. -/
theorem validateEntity_openWorld_homer :
    ∃ clan, clanBuilder.build = .ok clan ∧ clan.FromExpanded ∧
    homer.DistinctPredicates clan.namespaces ∧ Validator.plain.OpenWorld ∧
    ¬ clan.Obstructed homer.types ∧
    ∃ levels : String → List String, (∀ type ∈ homer.types, clan.Levels type (levels type)) ∧
      ∃ vs, Validator.plain.validateEntity clan homer = .ok vs ∧
        vs.map Violation.kind = [.maxPropertyOccurrenceExceeded] ∧
        vs.map Violation.substance = homer.types.flatMap fun type =>
          (levels type).flatMap fun level =>
            (clan.constraintsAt level).flatMap (Constraint.expected clan.namespaces homer) := by
  obtain ⟨clan, hbuild, hkinds⟩ := clan_built
  have hs : clan.FromExpanded := SchemaBuilder.fromExpanded_of_build hbuild (by decide +kernel)
  have he : homer.DistinctPredicates clan.namespaces := by
    rw [(SchemaBuilder.build_eq_ok hbuild).1]
    unfold Entity.DistinctPredicates
    decide +kernel
  have hv : Validator.plain.OpenWorld := ⟨rfl, rfl, rfl, rfl, rfl⟩
  obtain ⟨herr, hok⟩ := validateEntity_openWorld hs he hv
  have hgood : ¬ clan.Obstructed homer.types := fun h => by
    obtain ⟨err, herr⟩ := herr.mpr h
    rw [herr] at hkinds
    cases hkinds
  obtain ⟨levels, hlevels, vs, hvs, hview⟩ := hok hgood
  rw [hvs] at hkinds
  exact ⟨clan, hbuild, hs, he, hv, hgood, levels, hlevels, vs, hvs, Option.some.inj hkinds, hview⟩

end Entities

end EntityGraph
