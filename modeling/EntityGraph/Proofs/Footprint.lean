import EntityGraph.Proofs.Agreement
import EntityGraph.Proofs.Findings

/-!
# What a check reads of an entity

A check asks an entity for its identifier, for a count at a property, for the targets at a
reference or for its types. Two entities that answer the same are reported on alike, whatever else
they hold. What has been found says by its kind which kind of constraint it was found by.

Results:
* `checkProperty_of_count`, `checkTarget_of_id`, `checkInverse_of_id`: what each check reads.
* `checkReference_of_targets`: the same for references.
* `kind_of_mem_checkConstraint`: each kind of constraint has its own kinds of violations.
* `exists_of_checkType`, `exists_of_checkEntity`: what a check that completes is made of.
-/

namespace EntityGraph

section

variable {e e' : Entity}

theorem finding_of_id (h : e.id = e'.id) (c : Constraint) (kind : Violation.Kind)
    (message : String) :
    (Violation.of c e kind message).finding = (Violation.of c e' kind message).finding := by
  simp only [Violation.of, Violation.finding, Option.map_some, h]

theorem map_finding_occurrences_of_id (h : e.id = e'.id) (o : Violation.Occurrence)
    (c : Constraint) (p : String) (bounds : Cardinality) (count : Nat) :
    (Violation.occurrences o c e p bounds count).map Violation.finding =
      (Violation.occurrences o c e' p bounds count).map Violation.finding := by
  unfold Violation.occurrences
  rw [List.map_append, List.map_append, h]
  congr 1 <;> split <;> first | rfl | exact congrArg (· :: []) (finding_of_id h _ _ _)

end

/-! ## Single checks -/

namespace Run

variable {m : Type → Type} [Monad m] [LawfulMonad m] [MonadExceptOf ValidationError m] {r : Run m}
  {e e' : Entity}

/-- A property is checked by the identifier and the count. -/
theorem checkProperty_of_count (h : e.id = e'.id)
    (hcount : ∀ p, e.propertyCountAt r.schema.namespaces p =
      e'.propertyCountAt r.schema.namespaces p) (c : Constraint) :
    reported (r.checkProperty c e) = reported (r.checkProperty c e') := by
  unfold checkProperty
  refine reported_bind _ fun p => reported_bind _ fun bounds => ?_
  rw [reported_pure, reported_pure, hcount, map_finding_occurrences_of_id h]

/-- A target is checked by the identifier of the source. -/
theorem checkTarget_of_id (h : e.id = e'.id) (c : Constraint) (target : String) :
    reported (r.checkTarget c e target) = reported (r.checkTarget c e' target) := by
  unfold checkTarget
  simp only [h]
  refine reported_bind _ fun _ => reported_bind _ fun found => ?_
  cases found with
  | none => simp only [reported_pure, List.map_singleton, finding_of_id h]
  | some stored =>
    simp only
    split
    · simp only [reported_pure, List.map_singleton, finding_of_id h]
    · cases c.referencedEntityClass? with
      | none => rfl
      | some expected =>
        simp only
        split
        · rfl
        · simp only [reported_pure, List.map_singleton, finding_of_id h]

/-- The referrers are checked by the identifier of their target. -/
theorem checkInverse_of_id (h : e.id = e'.id) (c : Constraint) :
    reported (r.checkInverse c e) = reported (r.checkInverse c e') := by
  unfold checkInverse
  simp only [h]
  refine reported_bind _ fun p => reported_bind _ fun bounds => ?_
  split
  · rfl
  · refine reported_bind _ fun owner => reported_bind _ fun _ => reported_bind _ fun stream =>
      reported_bind _ fun count => ?_
    rw [reported_pure, reported_pure, List.map_append, List.map_append]
    congr 2 <;> split <;> first | rfl | exact congrArg (· :: []) (finding_of_id h _ _ _)

end Run

section

variable {r : Run (Except ValidationError)} {c : Constraint} {e e' : Entity}

/-- A reference is checked by the identifier and the targets. -/
theorem checkReference_of_targets (h : e.id = e'.id)
    (htargets : ∀ p, c.referenceClass = .ok p →
      e.targetsAt r.schema.namespaces p = e'.targetsAt r.schema.namespaces p) :
    reported (r.checkReference c e) = reported (r.checkReference c e') := by
  unfold Run.checkReference
  cases hp : c.referenceClass with
  | error err => rfl
  | ok p =>
    simp only [lift_ok, ok_bind, htargets p hp]
    refine reported_bind _ fun bounds => ?_
    split
    · rw [reported_prepend, reported_prepend, map_finding_occurrences_of_id h,
        reported_gather_congr _ (Run.checkTarget_of_id h c)]
    · rw [reported_pure, reported_pure, map_finding_occurrences_of_id h]

end

/-! ## Kinds -/

/-- The kinds of violations that a kind of constraint is there to find. -/
def Constraint.Kind.findable : Constraint.Kind → List Violation.Kind
  | .property => [.minPropertyOccurrenceNotMet, .maxPropertyOccurrenceExceeded]
  | .reference => [.minReferenceOccurrenceNotMet, .maxReferenceOccurrenceExceeded,
      .referenceNotFound, .referenceTypeMismatch]
  | .isAbstract => [.abstractEntityClassViolation]
  | .application => [.applicationRuleViolation]

section

variable {r : Run (Except ValidationError)} {c : Constraint} {e : Entity} {vs : List Violation}
  {v : Violation}

theorem kind_of_mem_occurrences {o : Violation.Occurrence} {p : String} {b : Cardinality} {n : Nat}
    (hv : v ∈ Violation.occurrences o c e p b n) : v.kind = o.tooFew ∨ v.kind = o.tooMany := by
  unfold Violation.occurrences at hv
  rcases List.mem_append.mp hv with hv | hv
  · split at hv
    · obtain rfl := List.mem_singleton.mp hv
      exact Or.inl rfl
    · cases hv
  · split at hv
    · obtain rfl := List.mem_singleton.mp hv
      exact Or.inr rfl
    · cases hv

theorem kind_of_mem_checkTarget {target : String} (h : r.checkTarget c e target = .ok vs)
    (hv : v ∈ vs) : v.kind = .referenceNotFound ∨ v.kind = .referenceTypeMismatch := by
  unfold Run.checkTarget at h
  obtain ⟨-, -, h⟩ := bind_eq_ok_iff.mp h
  obtain ⟨stored?, -, h⟩ := bind_eq_ok_iff.mp h
  cases stored? with
  | none =>
    cases h
    obtain rfl := List.mem_singleton.mp hv
    exact Or.inl rfl
  | some stored =>
    simp only at h
    split at h
    · cases h
      obtain rfl := List.mem_singleton.mp hv
      exact Or.inl rfl
    · split at h
      · cases h
        cases hv
      · split at h
        · cases h
          cases hv
        · cases h
          obtain rfl := List.mem_singleton.mp hv
          exact Or.inr rfl

theorem kind_of_mem_checkReference (h : r.checkReference c e = .ok vs) (hv : v ∈ vs) :
    v.kind ∈ Constraint.Kind.reference.findable := by
  have hcounted : ∀ {p b n}, v ∈ Violation.occurrences .ofReference c e p b n →
      v.kind ∈ Constraint.Kind.reference.findable := by
    intro p b n hv
    rcases kind_of_mem_occurrences hv with hk | hk <;> rw [hk] <;> decide
  unfold Run.checkReference at h
  obtain ⟨p, -, h⟩ := bind_eq_ok_iff.mp h
  obtain ⟨bounds, -, h⟩ := bind_eq_ok_iff.mp h
  simp only at h
  split at h
  · obtain ⟨found, hfound, h⟩ := bind_eq_ok_iff.mp h
    cases h
    rcases List.mem_append.mp hv with hv | hv
    · exact hcounted hv
    · obtain ⟨g, hg, rfl⟩ := gather_eq_ok_iff.mp hfound
      obtain ⟨target, htarget, hv⟩ := List.mem_flatMap.mp hv
      rcases kind_of_mem_checkTarget (hg target htarget) hv with hk | hk <;> rw [hk] <;> decide
  · cases h
    exact hcounted hv

theorem kind_of_mem_checkProperty (h : r.checkProperty c e = .ok vs) (hv : v ∈ vs) :
    v.kind ∈ Constraint.Kind.property.findable := by
  unfold Run.checkProperty at h
  obtain ⟨p, -, h⟩ := bind_eq_ok_iff.mp h
  obtain ⟨bounds, -, h⟩ := bind_eq_ok_iff.mp h
  cases h
  rcases kind_of_mem_occurrences hv with hk | hk <;> rw [hk] <;> decide

theorem kind_of_mem_checkAbstract (h : r.checkAbstract c e = .ok vs) (hv : v ∈ vs) :
    v.kind ∈ Constraint.Kind.isAbstract.findable := by
  unfold Run.checkAbstract at h
  obtain ⟨cls, -, h⟩ := bind_eq_ok_iff.mp h
  split at h
  · cases h
    obtain rfl := List.mem_singleton.mp hv
    exact List.mem_singleton.mpr rfl
  · cases h
    cases hv

theorem kind_of_mem_checkRule (h : r.checkRule c e = .ok vs) (hv : v ∈ vs) :
    v.kind ∈ Constraint.Kind.application.findable := by
  unfold Run.checkRule at h
  split at h
  · cases h
    cases hv
  · obtain ⟨message?, -, h⟩ := bind_eq_ok_iff.mp h
    cases message? with
    | none =>
      cases h
      cases hv
    | some message =>
      cases h
      obtain rfl := List.mem_singleton.mp hv
      exact List.mem_singleton.mpr rfl

/-- **Each kind of constraint has its own kinds of violations.** -/
theorem kind_of_mem_checkConstraint (h : r.checkConstraint e c = .ok vs) (hv : v ∈ vs) :
    v.kind ∈ c.kind.findable := by
  unfold Run.checkConstraint at h
  cases hk : c.kind with
  | property => rw [hk] at h; exact kind_of_mem_checkProperty h hv
  | reference => rw [hk] at h; exact kind_of_mem_checkReference h hv
  | isAbstract => rw [hk] at h; exact kind_of_mem_checkAbstract h hv
  | application => rw [hk] at h; exact kind_of_mem_checkRule h hv

/-- What is found about referrers is of an inverse kind. -/
theorem isInverse_of_mem_checkInverse (h : r.checkInverse c e = .ok vs) (hv : v ∈ vs) :
    v.kind.IsInverse := by
  unfold Run.checkInverse at h
  obtain ⟨p, -, h⟩ := bind_eq_ok_iff.mp h
  obtain ⟨bounds, -, h⟩ := bind_eq_ok_iff.mp h
  split at h
  · cases h
    cases hv
  · obtain ⟨owner, -, h⟩ := bind_eq_ok_iff.mp h
    obtain ⟨-, -, h⟩ := bind_eq_ok_iff.mp h
    obtain ⟨stream, -, h⟩ := bind_eq_ok_iff.mp h
    obtain ⟨count, -, h⟩ := bind_eq_ok_iff.mp h
    cases h
    rcases List.mem_append.mp hv with hv | hv
    · split at hv
      · obtain rfl := List.mem_singleton.mp hv
        exact Or.inl rfl
      · cases hv
    · split at hv
      · obtain rfl := List.mem_singleton.mp hv
        exact Or.inr rfl
      · cases hv

/-! ## Types and entities -/

/-- A check of a type that completes has looked the constraints up and held the entity against
each; all else that it found is about referrers. -/
theorem exists_of_checkType {type : String} (h : r.checkType e type = .ok vs) :
    ∃ cs own inverse, r.schema.constraintsFor type true = .ok cs ∧
      gather (r.checkConstraint e) cs = .ok own ∧ vs = own ++ inverse ∧
      ∀ v ∈ inverse, v.kind.IsInverse := by
  unfold Run.checkType at h
  obtain ⟨cs, hcs, h⟩ := bind_eq_ok_iff.mp h
  obtain ⟨own, hown, h⟩ := bind_eq_ok_iff.mp h
  refine ⟨cs, own, ?_⟩
  split at h
  · obtain ⟨ds, -, h⟩ := bind_eq_ok_iff.mp h
    obtain ⟨inverse, hinverse, h⟩ := bind_eq_ok_iff.mp h
    cases h
    refine ⟨inverse, lift_eq_ok_iff.mp hcs, hown, rfl, fun v hv => ?_⟩
    obtain ⟨g, hg, rfl⟩ := gather_eq_ok_iff.mp hinverse
    obtain ⟨c, hc, hv⟩ := List.mem_flatMap.mp hv
    exact isInverse_of_mem_checkInverse (hg c hc) hv
  · cases h
    exact ⟨[], lift_eq_ok_iff.mp hcs, hown, (List.append_nil _).symm, fun _ h => nomatch h⟩

/-- A check of an entity that completes has checked each of its types. -/
theorem exists_of_checkEntity (h : r.checkEntity e = .ok vs) :
    ∃ found : String → List Violation, (∀ type ∈ e.types, r.checkType e type = .ok (found type)) ∧
      vs = (if e.types ≠ [] ∧ r.settings.strict = true then Violation.undeclared r.schema e else [])
        ++ e.types.flatMap found := by
  unfold Run.checkEntity at h
  split at h
  · rename_i hnil
    cases h
    rw [List.isEmpty_iff] at hnil
    rw [hnil]
    exact ⟨fun _ => [], fun _ h => (nomatch h), rfl⟩
  · rename_i hne
    obtain ⟨out, hout, h⟩ := bind_eq_ok_iff.mp h
    obtain ⟨found, hfound, rfl⟩ := gather_eq_ok_iff.mp hout
    cases h
    refine ⟨found, hfound, ?_⟩
    rw [List.isEmpty_iff] at hne
    simp only [ne_eq, hne, not_false_eq_true, true_and]

end

end EntityGraph
