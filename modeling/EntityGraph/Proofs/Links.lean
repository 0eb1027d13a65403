import EntityGraph.Proofs.DatasetContext
import EntityGraph.Proofs.OpenWorld
import EntityGraph.Proofs.Reports

/-!
# References held against the store

The check of a reference follows each target to the store. What it says of a target is a verdict on
the target alone: by the records that datasets of the context hold under the canonical identifier,
there is none, or none of the class that the constraint expects, or all is well.

Results:
* `verdict_eq_notFound_iff`, `verdict_eq_mismatch_iff`: the verdicts by what the datasets hold.
* `checkReference_verdicts`: what holding an entity against a reference constraint gives.
* `checkReference_follows`: of a store, that is one verdict for each target, after the count.
-/

namespace EntityGraph

/-! ## Verdicts -/

/-- A dataset of the context holds a record under an identifier. The empty context has all
datasets. -/
def Store.HoldsIn (σ : Store) (context : List String) (id : String) (e : Entity) : Prop :=
  ∃ d, (context = [] ∨ d ∈ context) ∧ σ.record? d id = some e

/-- What following a reference finds wrong with the records of a target: there is none, or none of
the class that the constraint expects. -/
def Constraint.verdict (c : Constraint) (ns : Namespaces) (records : List Record) :
    Option Violation.Kind :=
  if records.isEmpty then some .referenceNotFound
  else c.referencedEntityClass?.bind fun expected =>
    if (Run.declaredTypes records).any fun type => ns.same type expected then none
    else some .referenceTypeMismatch

section Verdicts

variable {σ : Store} {context : List String} {c : Constraint} {ns : Namespaces} {id : String}

theorem inContext_iff {d : String} : inContext context d = true ↔ context = [] ∨ d ∈ context := by
  unfold inContext
  rw [Bool.or_eq_true, List.isEmpty_iff, decide_eq_true_eq]

theorem Store.Sound.holdsIn_iff (h : σ.Sound) {e : Entity} :
    σ.HoldsIn context id e ↔ ∃ x ∈ σ.recordsIn context id, x.entity = e := by
  constructor
  · rintro ⟨d, hcontext, hrec⟩
    exact ⟨⟨d, e⟩, h.mem_recordsIn_iff.mpr ⟨inContext_iff.mpr hcontext, hrec⟩, rfl⟩
  · rintro ⟨x, hx, rfl⟩
    obtain ⟨hcontext, hrec⟩ := h.mem_recordsIn_iff.mp hx
    exact ⟨x.dataset, inContext_iff.mp hcontext, hrec⟩

theorem Store.Sound.isEmpty_recordsIn_iff (h : σ.Sound) :
    (σ.recordsIn context id).isEmpty = true ↔ ¬ ∃ e, σ.HoldsIn context id e := by
  rw [List.isEmpty_iff, List.eq_nil_iff_forall_not_mem]
  simp only [h.holdsIn_iff]
  constructor
  · rintro hnone ⟨_, x, hx, -⟩
    exact hnone x hx
  · intro hnone x hx
    exact hnone ⟨x.entity, x, hx, rfl⟩

/-- A target is not found exactly if no dataset of the context holds a record of it. -/
theorem verdict_eq_notFound_iff (h : σ.Sound) :
    c.verdict ns (σ.recordsIn context id) = some .referenceNotFound ↔
      ¬ ∃ e, σ.HoldsIn context id e := by
  rw [← h.isEmpty_recordsIn_iff]
  unfold Constraint.verdict
  split
  · rename_i hempty
    exact iff_of_true rfl hempty
  · rename_i hne
    refine iff_of_false ?_ hne
    cases c.referencedEntityClass? with
    | none => simp
    | some expected =>
      rw [Option.bind_some]
      split <;> simp

/-- One of the declared types denotes a class exactly if some record held in the context declares a
type that does. -/
theorem Store.Sound.any_declaredTypes_iff (h : σ.Sound) {expected : String} :
    ((Run.declaredTypes (σ.recordsIn context id)).any fun type => ns.same type expected) = true ↔
      ∃ e, σ.HoldsIn context id e ∧ ∃ type ∈ e.types, ns.same type expected = true := by
  rw [List.any_eq_true]
  simp only [mem_declaredTypes, h.holdsIn_iff]
  constructor
  · rintro ⟨type, ⟨x, hx, htype⟩, hsame⟩
    exact ⟨x.entity, ⟨x, hx, rfl⟩, type, htype, hsame⟩
  · rintro ⟨_, ⟨x, hx, rfl⟩, type, htype, hsame⟩
    exact ⟨type, ⟨x, hx, htype⟩, hsame⟩

/-- A target has the wrong types exactly if the context has records of it, and none declares the
class that the constraint expects. -/
theorem verdict_eq_mismatch_iff (h : σ.Sound) :
    c.verdict ns (σ.recordsIn context id) = some .referenceTypeMismatch ↔
      (∃ e, σ.HoldsIn context id e) ∧ ∃ expected, c.referencedEntityClass? = some expected ∧
        ∀ e, σ.HoldsIn context id e → ∀ type ∈ e.types, ns.same type expected = false := by
  unfold Constraint.verdict
  by_cases hempty : (σ.recordsIn context id).isEmpty = true
  · rw [if_pos hempty]
    exact iff_of_false (by simp) fun hheld => h.isEmpty_recordsIn_iff.mp hempty hheld.1
  · rw [if_neg hempty, and_iff_right (not_not.mp (mt h.isEmpty_recordsIn_iff.mpr hempty))]
    cases c.referencedEntityClass? with
    | none => simp
    | some expected =>
      rw [Option.bind_some]
      constructor
      · intro hverdict
        split at hverdict
        · cases hverdict
        · rename_i hnone
          exact ⟨expected, rfl, fun e he type htype => Bool.eq_false_iff.mpr fun hsame =>
            hnone (h.any_declaredTypes_iff.mpr ⟨e, he, type, htype, hsame⟩)⟩
      · rintro ⟨_, hexpected, hall⟩
        obtain rfl := Option.some.inj hexpected
        refine if_neg fun hany => ?_
        obtain ⟨e, he, type, htype, hsame⟩ := h.any_declaredTypes_iff.mp hany
        rw [hall e he type htype] at hsame
        cases hsame

/-- There is no third verdict. -/
theorem verdict_cases {records : List Record} {k : Violation.Kind}
    (h : c.verdict ns records = some k) : k = .referenceNotFound ∨ k = .referenceTypeMismatch := by
  unfold Constraint.verdict at h
  split at h
  · exact Or.inl (Option.some.inj h).symm
  · obtain ⟨expected, -, h⟩ := Option.bind_eq_some_iff.mp h
    split at h
    · cases h
    · exact Or.inr (Option.some.inj h).symm

/-- What is missed at a target is the verdict on it. -/
theorem missed_eq_verdict (e : Entity) (records : List Record) :
    c.missed e ns records = ((c.verdict ns records).map fun k => (k, some c, some e)).toList := by
  unfold Constraint.missed Constraint.verdict
  split
  · rfl
  · cases c.referencedEntityClass? with
    | none => rfl
    | some expected =>
      rw [Option.elim_some, Option.bind_some]
      split <;> rfl

end Verdicts

/-! ## One constraint -/

/-- Where no two references denote the same, the targets at a predicate are all that the entity has
there, in any spelling. -/
theorem Entity.targetsAt_eq {ns : Namespaces} {e : Entity}
    (h : (e.references.keys.map ns.canonical).Nodup) (predicate : String) :
    e.targetsAt ns predicate =
      (e.references.toList.filter fun b => ns.same b.1 predicate).flatMap fun b => b.2.toList := by
  have hslots := OrderedMap.filter_same_eq h predicate
  rw [← List.flatMap_map Prod.snd, hslots]
  unfold targetsAt
  cases e.references.getSame? ns predicate <;> simp

section Constraints

variable {r : Run (Except ValidationError)} {σ : Store} {c : Constraint}

/-- **What holding an entity against a reference constraint gives**: what the number of targets
breaks, and then the verdict on each target in order. -/
theorem checkReference_verdicts (hstore : r.provider? = some σ.provider)
    (hproceed : r.proceed = .ok ()) (hrelated : r.settings.related = true) {predicate : String}
    (hpredicate : c.referenceClass = .ok predicate)
    (hbounds : ¬ c.BadBounds Vocabulary.minCard Vocabulary.maxCard) (e : Entity) :
    ∃ found, r.checkReference c e = .ok found ∧
      found.map Violation.substance =
        c.broken e .minReferenceOccurrenceNotMet .maxReferenceOccurrenceExceeded
          (e.targetsAt r.schema.namespaces predicate).length ++
        (e.targetsAt r.schema.namespaces predicate).filterMap fun target =>
          (c.verdict r.schema.namespaces (σ.recordsIn r.settings.context
            (r.schema.namespaces.canonical target))).map fun k => (k, some c, some e) := by
  obtain ⟨hbad, -⟩ | ⟨-, bounds, hread, hbelow, habove⟩ :=
    c.bounds_cases Vocabulary.minCard Vocabulary.maxCard
  · exact absurd hbad hbounds
  have hread : c.cardinality = .ok bounds := hread
  set targets := e.targetsAt r.schema.namespaces predicate
  have htargets : Settles (gather (r.checkTarget c e) targets) Violation.substance _ _ :=
    gather_settles fun target _ => checkTarget_settles hstore hproceed target
  obtain ⟨⟨_, -, hfalse⟩, -⟩ | ⟨-, followed, hfollowed, hview⟩ := htargets
  · exact hfalse.elim
  refine ⟨Violation.occurrences .ofReference c e predicate bounds targets.length ++ followed,
    ?_, ?_⟩
  · unfold Run.checkReference
    simp only [hpredicate, hread, lift_ok, ok_bind]
    rw [if_pos hrelated, hfollowed]
    rfl
  · rw [List.map_append, hview, substance_occurrences, hbelow, habove,
      List.filterMap_eq_flatMap_toList]
    simp only [missed_eq_verdict, decide_eq_true_eq]
    rfl

end Constraints

/-- **References are held against what the datasets hold.** A validator asks a store within a
context, and a reference constraint names its predicate and declares bounds that fit together. Then
there is a verdict on each target, whatever else is referred to and by whom: it is not found exactly
if no dataset of the context holds a record of it, it has the wrong types exactly if there are
records of it and the constraint expects a class that none of them declares, and otherwise nothing
is wrong. Holding an entity against the constraint gives what the number of its targets breaks and
then what is wrong with each target, in the order of the slot; and a validation reports that as
often as the constraint is reached through the types of the entity. -/
theorem checkReference_follows {σ : Store} (hσ : σ.Reachable)
    {v : Validator (Except ValidationError)} {context : List String} {s : Schema}
    {r : Run (Except ValidationError)} (hstart : (v.asking σ context).start s = .ok r)
    {c : Constraint} {predicate : String} (hkind : c.kind = .reference)
    (hpredicate : c.referenceClass = .ok predicate)
    (hbounds : ¬ c.BadBounds Vocabulary.minCard Vocabulary.maxCard) :
    ∃ verdict : String → Option Violation.Kind,
      (∀ target, verdict target = some .referenceNotFound ↔
        ¬ ∃ found, σ.HoldsIn context (s.namespaces.canonical target) found) ∧
      (∀ target, verdict target = some .referenceTypeMismatch ↔
        (∃ found, σ.HoldsIn context (s.namespaces.canonical target) found) ∧
        ∃ expected, c.referencedEntityClass? = some expected ∧
          ∀ found, σ.HoldsIn context (s.namespaces.canonical target) found →
            ∀ type ∈ found.types, s.namespaces.same type expected = false) ∧
      (∀ target k, verdict target = some k →
        k = .referenceNotFound ∨ k = .referenceTypeMismatch) ∧
      ∀ e,
        ((e.references.keys.map s.namespaces.canonical).Nodup →
          e.targetsAt s.namespaces predicate = (e.references.toList.filter
            fun b => s.namespaces.same b.1 predicate).flatMap fun b => b.2.toList) ∧
        ∃ found, r.checkConstraint e c = .ok found ∧
          found.map Violation.substance =
            c.broken e .minReferenceOccurrenceNotMet .maxReferenceOccurrenceExceeded
              (e.targetsAt s.namespaces predicate).length ++
            (e.targetsAt s.namespaces predicate).filterMap
              (fun target => (verdict target).map fun k => (k, some c, some e)) ∧
          ∀ vs, (v.asking σ context).validateEntity s e = .ok vs →
            Violation.ownFor c vs =
              (List.replicate ((e.types.flatMap s.constraintsOf).count c) found).flatten := by
  obtain ⟨hschema, hsettings, hstore, -, hproceed⟩ := Validator.started_of_start hstart
  have hrelated : r.settings.related = true := congrArg Settings.related hsettings
  have hcontext : r.settings.context = context := congrArg Settings.context hsettings
  refine ⟨fun target => c.verdict s.namespaces
      (σ.recordsIn context (s.namespaces.canonical target)),
    fun target => verdict_eq_notFound_iff hσ.sound, fun target => verdict_eq_mismatch_iff hσ.sound,
    fun target k => verdict_cases, fun e => ⟨fun h => Entity.targetsAt_eq h predicate, ?_⟩⟩
  obtain ⟨found, hfound, hview⟩ :=
    checkReference_verdicts hstore hproceed hrelated hpredicate hbounds e
  rw [hschema, hcontext] at hview
  have hcheck : r.checkConstraint e c = .ok found := by
    unfold Run.checkConstraint
    rw [hkind]
    exact hfound
  refine ⟨found, hcheck, hview, fun vs hvs => ?_⟩
  obtain ⟨r', hstart', hentity⟩ := Validator.validateEntity_eq_ok_iff.mp hvs
  obtain rfl := Except.ok.inj (hstart.symm.trans hstart')
  rw [own_of_checkEntity hentity hcheck, hschema]

/-- A city that is a village in another dataset, a village, a city that has been taken out again,
and a city in a third dataset. -/
def atlas : Store :=
  let σ := Store.empty.put "a" (.ofType "urn:bath" "urn:City")
  let σ := σ.put "b" (.ofType "urn:bath" "urn:Village")
  let σ := σ.put "b" (.ofType "urn:rye" "urn:Village")
  let σ := σ.put "a" (.ofType "urn:ys" "urn:City")
  let σ := σ.put "a" { Entity.ofType "urn:ys" "urn:City" with deleted := true }
  σ.put "c" (.ofType "urn:york" "urn:City")

/-- A person at home in all of them, and twice in the city that is gone. -/
def wanderer : Entity :=
  (Entity.ofType "urn:i" "urn:Person").setReference "urn:home"
    (.many ["urn:ys", "urn:bath", "urn:rye", "urn:ys", "urn:york"])

/-- In two of the datasets only the first city will do. -/
theorem checkReference_follows_wanderer :
    atlas.Reachable ∧
    ∃ r c, (Validator.plain.asking atlas ["a", "b"]).start homes = .ok r ∧ c.kind = .reference ∧
      c.referenceClass = .ok "urn:home" ∧
      ¬ c.BadBounds Vocabulary.minCard Vocabulary.maxCard ∧
      ∃ (verdict : String → Option Violation.Kind) (found vs : List Violation),
        (∀ target, verdict target = some .referenceNotFound ↔
          ¬ ∃ e, atlas.HoldsIn ["a", "b"] (homes.namespaces.canonical target) e) ∧
        r.checkConstraint wanderer c = .ok found ∧
        found.map Violation.substance =
          c.broken wanderer .minReferenceOccurrenceNotMet .maxReferenceOccurrenceExceeded
            (wanderer.targetsAt homes.namespaces "urn:home").length ++
          (wanderer.targetsAt homes.namespaces "urn:home").filterMap
            (fun target => (verdict target).map fun k => (k, some c, some wanderer)) ∧
        (Validator.plain.asking atlas ["a", "b"]).validateEntity homes wanderer = .ok vs ∧
        vs.map Violation.kind = [.referenceNotFound, .referenceTypeMismatch, .referenceNotFound,
          .referenceNotFound] ∧
        Violation.ownFor c vs = (List.replicate 1 found).flatten := by
  have hfacts : (∃ vs ∈ ((Validator.plain.asking atlas ["a", "b"]).validateEntity homes
        wanderer).toOption, vs.map Violation.kind = [.referenceNotFound, .referenceTypeMismatch,
          .referenceNotFound, .referenceNotFound]) ∧
      ∃ c ∈ homes.constraints, c.kind = .reference ∧ c.referenceClass = .ok "urn:home" ∧
        c.leastAt Vocabulary.minCard = 0 ∧ c.greatestAt Vocabulary.maxCard = -1 ∧
        (wanderer.types.flatMap homes.constraintsOf).count c = 1 := by
    decide +kernel
  obtain ⟨⟨vs, hvs, hkinds⟩, c, -, hkind, hpredicate, hleast, hgreatest, hreached⟩ := hfacts
  have hreachable : atlas.Reachable := by
    unfold atlas
    exact (((((Store.Reachable.empty.put _ _).put _ _).put _ _).put _ _).put _ _).put _ _
  have hbounds : ¬ c.BadBounds Vocabulary.minCard Vocabulary.maxCard := by
    unfold Constraint.BadBounds
    omega
  have hstart : ∃ r, (Validator.plain.asking atlas ["a", "b"]).start homes = .ok r := ⟨_, rfl⟩
  obtain ⟨r, hstart⟩ := hstart
  obtain ⟨verdict, hnotFound, -, -, hall⟩ :=
    checkReference_follows hreachable hstart hkind hpredicate hbounds
  obtain ⟨-, found, hfound, hview, hreports⟩ := hall wanderer
  have hvs := eq_ok_of_mem_toOption hvs
  exact ⟨hreachable, r, c, hstart, hkind, hpredicate, hbounds, verdict, found, vs, hnotFound,
    hfound, hview, hvs, hkinds, hreached ▸ hreports vs hvs⟩

end EntityGraph
