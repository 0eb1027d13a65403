import EntityGraph.Proofs.Outcome

/-!
# What findings name

A finding names the constraint that it was found by and the entity that was held against it. What
an entity itself breaks is told apart from what its referrers break by the kind.

Results:
* `ownOf_of_mem_checkConstraint`: what holding an entity against a constraint gives names both.
* `names_of_mem_checkEntity`: every finding about an entity names it and, if any, a constraint that
  applies to one of its types.
-/

namespace EntityGraph

/-- The kinds of violations that are about referrers. -/
def Violation.Kind.IsInverse (k : Violation.Kind) : Prop :=
  k = .minInverseReferenceOccurrenceNotMet ∨ k = .maxInverseReferenceOccurrenceExceeded

instance (k : Violation.Kind) : Decidable k.IsInverse := inferInstanceAs (Decidable (_ ∨ _))

/-- The violation names a constraint and an entity. -/
structure Violation.Names (v : Violation) (c : Constraint) (e : Entity) : Prop where
  constraint : v.constraint = some c
  entity : v.entity = some e

/-- The violation names a constraint and an entity, and is not about referrers. -/
structure Violation.OwnOf (v : Violation) (c : Constraint) (e : Entity) : Prop
    extends v.Names c e where
  kind : ¬ v.kind.IsInverse

section

variable {r : Run (Except ValidationError)} {c : Constraint} {e : Entity} {vs : List Violation}
  {v : Violation}

theorem Violation.ownOf_of {k : Kind} (h : ¬ k.IsInverse) (message : String) :
    (Violation.of c e k message).OwnOf c e :=
  ⟨⟨rfl, rfl⟩, h⟩

theorem ownOf_occurrences {o : Violation.Occurrence} (hfew : ¬ o.tooFew.IsInverse)
    (hmany : ¬ o.tooMany.IsInverse) {predicate : String} {b : Cardinality} {n : Nat}
    (hv : v ∈ Violation.occurrences o c e predicate b n) : v.OwnOf c e := by
  unfold Violation.occurrences at hv
  rcases List.mem_append.mp hv with hv | hv
  · split at hv
    · obtain rfl := List.mem_singleton.mp hv
      exact Violation.ownOf_of hfew _
    · cases hv
  · split at hv
    · obtain rfl := List.mem_singleton.mp hv
      exact Violation.ownOf_of hmany _
    · cases hv

theorem ownOf_of_mem_checkTarget {target : String} (h : r.checkTarget c e target = .ok vs)
    (hv : v ∈ vs) : v.OwnOf c e := by
  unfold Run.checkTarget at h
  obtain ⟨-, -, h⟩ := bind_eq_ok_iff.mp h
  obtain ⟨stored?, -, h⟩ := bind_eq_ok_iff.mp h
  cases stored? with
  | none =>
    cases h
    obtain rfl := List.mem_singleton.mp hv
    exact Violation.ownOf_of (by decide) _
  | some stored =>
    simp only at h
    split at h
    · cases h
      obtain rfl := List.mem_singleton.mp hv
      exact Violation.ownOf_of (by decide) _
    · split at h
      · cases h
        cases hv
      · split at h
        · cases h
          cases hv
        · cases h
          obtain rfl := List.mem_singleton.mp hv
          exact Violation.ownOf_of (by decide) _

theorem ownOf_of_mem_checkProperty (h : r.checkProperty c e = .ok vs) (hv : v ∈ vs) :
    v.OwnOf c e := by
  unfold Run.checkProperty at h
  obtain ⟨predicate, -, h⟩ := bind_eq_ok_iff.mp h
  obtain ⟨bounds, -, h⟩ := bind_eq_ok_iff.mp h
  cases h
  exact ownOf_occurrences (by decide) (by decide) hv

theorem ownOf_of_mem_checkReference (h : r.checkReference c e = .ok vs) (hv : v ∈ vs) :
    v.OwnOf c e := by
  have hcounted : ∀ {predicate b n}, v ∈ Violation.occurrences .ofReference c e predicate b n →
      v.OwnOf c e :=
    ownOf_occurrences (by decide) (by decide)
  unfold Run.checkReference at h
  obtain ⟨predicate, -, h⟩ := bind_eq_ok_iff.mp h
  obtain ⟨bounds, -, h⟩ := bind_eq_ok_iff.mp h
  simp only at h
  split at h
  · obtain ⟨found, hfound, h⟩ := bind_eq_ok_iff.mp h
    cases h
    rcases List.mem_append.mp hv with hv | hv
    · exact hcounted hv
    · obtain ⟨g, hg, rfl⟩ := gather_eq_ok_iff.mp hfound
      obtain ⟨target, htarget, hv⟩ := List.mem_flatMap.mp hv
      exact ownOf_of_mem_checkTarget (hg target htarget) hv
  · cases h
    exact hcounted hv

theorem ownOf_of_mem_checkAbstract (h : r.checkAbstract c e = .ok vs) (hv : v ∈ vs) :
    v.OwnOf c e := by
  unfold Run.checkAbstract at h
  obtain ⟨cls, -, h⟩ := bind_eq_ok_iff.mp h
  split at h
  · cases h
    obtain rfl := List.mem_singleton.mp hv
    exact Violation.ownOf_of (by decide) _
  · cases h
    cases hv

theorem ownOf_of_mem_checkRule (h : r.checkRule c e = .ok vs) (hv : v ∈ vs) : v.OwnOf c e := by
  unfold Run.checkRule at h
  split at h
  · cases h
    cases hv
  · obtain ⟨message?, -, h⟩ := bind_eq_ok_iff.mp h
    cases message? with
    | none =>
      cases h
      cases hv
    | some message =>
      cases h
      obtain rfl := List.mem_singleton.mp hv
      exact Violation.ownOf_of (by decide) _

/-- **What holding an entity against a constraint gives names both**, and is not about referrers. -/
theorem ownOf_of_mem_checkConstraint (h : r.checkConstraint e c = .ok vs) (hv : v ∈ vs) :
    v.OwnOf c e := by
  unfold Run.checkConstraint at h
  cases hk : c.kind with
  | property => rw [hk] at h; exact ownOf_of_mem_checkProperty h hv
  | reference => rw [hk] at h; exact ownOf_of_mem_checkReference h hv
  | isAbstract => rw [hk] at h; exact ownOf_of_mem_checkAbstract h hv
  | application => rw [hk] at h; exact ownOf_of_mem_checkRule h hv

/-- What holding the referrers of an entity against a constraint gives names both. -/
theorem names_of_mem_checkInverse (h : r.checkInverse c e = .ok vs) (hv : v ∈ vs) :
    v.Names c e := by
  unfold Run.checkInverse at h
  obtain ⟨predicate, -, h⟩ := bind_eq_ok_iff.mp h
  obtain ⟨bounds, -, h⟩ := bind_eq_ok_iff.mp h
  split at h
  · cases h
    cases hv
  · obtain ⟨owner, -, h⟩ := bind_eq_ok_iff.mp h
    obtain ⟨-, -, h⟩ := bind_eq_ok_iff.mp h
    obtain ⟨stream, -, h⟩ := bind_eq_ok_iff.mp h
    obtain ⟨count, -, h⟩ := bind_eq_ok_iff.mp h
    cases h
    rcases List.mem_append.mp hv with hv | hv
    · split at hv
      · obtain rfl := List.mem_singleton.mp hv
        exact ⟨rfl, rfl⟩
      · cases hv
    · split at hv
      · obtain rfl := List.mem_singleton.mp hv
        exact ⟨rfl, rfl⟩
      · cases hv

/-! ## Whole entities -/

/-- A constraint is looked up for one of the types, on its own side or on that of the referrers. -/
def Schema.LooksUp (s : Schema) (types : List String) (c : Constraint) : Prop :=
  ∃ type ∈ types, ∃ cs, c ∈ cs ∧
    (s.constraintsFor type true = .ok cs ∨ s.inverseConstraintsFor type true = .ok cs)

theorem names_of_mem_checkType {type : String} (h : r.checkType e type = .ok vs) (hv : v ∈ vs) :
    ∃ c cs, v.Names c e ∧ c ∈ cs ∧ (r.schema.constraintsFor type true = .ok cs ∨
      r.schema.inverseConstraintsFor type true = .ok cs) := by
  unfold Run.checkType at h
  obtain ⟨cs, hcs, h⟩ := bind_eq_ok_iff.mp h
  obtain ⟨own, hown, h⟩ := bind_eq_ok_iff.mp h
  have hnamed : v ∈ own → ∃ c cs, v.Names c e ∧ c ∈ cs ∧
      (r.schema.constraintsFor type true = .ok cs ∨
        r.schema.inverseConstraintsFor type true = .ok cs) := by
    intro hv
    obtain ⟨g, hg, rfl⟩ := gather_eq_ok_iff.mp hown
    obtain ⟨c, hc, hv⟩ := List.mem_flatMap.mp hv
    exact ⟨c, cs, (ownOf_of_mem_checkConstraint (hg c hc) hv).toNames, hc,
      Or.inl (lift_eq_ok_iff.mp hcs)⟩
  split at h
  · obtain ⟨inverse, hinverse, h⟩ := bind_eq_ok_iff.mp h
    obtain ⟨found, hfound, h⟩ := bind_eq_ok_iff.mp h
    cases h
    rcases List.mem_append.mp hv with hv | hv
    · exact hnamed hv
    · obtain ⟨g, hg, rfl⟩ := gather_eq_ok_iff.mp hfound
      obtain ⟨c, hc, hv⟩ := List.mem_flatMap.mp hv
      exact ⟨c, inverse, names_of_mem_checkInverse (hg c hc) hv, hc,
        Or.inr (lift_eq_ok_iff.mp hinverse)⟩
  · cases h
    exact hnamed hv

theorem names_of_mem_undeclared {s : Schema} (hv : v ∈ Violation.undeclared s e) :
    v.constraint = none ∧ v.entity = some e ∧ ¬ v.kind.IsInverse := by
  unfold Violation.undeclared at hv
  have hproperty : ¬ Violation.Kind.undeclaredProperty.IsInverse := by decide
  have hreference : ¬ Violation.Kind.undeclaredReference.IsInverse := by decide
  rcases List.mem_append.mp hv with hv | hv
  · obtain ⟨p, -, rfl⟩ := List.mem_map.mp hv
    exact ⟨rfl, rfl, hproperty⟩
  · obtain ⟨p, -, rfl⟩ := List.mem_map.mp hv
    exact ⟨rfl, rfl, hreference⟩

/-- **Every finding about an entity names it** and, unless it is about an undeclared predicate, a
constraint that is looked up for one of its types. -/
theorem names_of_mem_checkEntity (h : r.checkEntity e = .ok vs) (hv : v ∈ vs) :
    v.entity = some e ∧ ∀ c ∈ v.constraint, r.schema.LooksUp e.types c := by
  unfold Run.checkEntity at h
  split at h
  · cases h
    cases hv
  · obtain ⟨found, hfound, h⟩ := bind_eq_ok_iff.mp h
    cases h
    rcases List.mem_append.mp hv with hv | hv
    · split at hv
      · obtain ⟨hc, he, -⟩ := names_of_mem_undeclared hv
        refine ⟨he, fun c hmem => ?_⟩
        rw [hc] at hmem
        cases hmem
      · cases hv
    · obtain ⟨g, hg, rfl⟩ := gather_eq_ok_iff.mp hfound
      obtain ⟨type, htype, hv⟩ := List.mem_flatMap.mp hv
      obtain ⟨c, cs, hnames, hc, hcs⟩ := names_of_mem_checkType (hg type htype) hv
      refine ⟨hnames.entity, fun c' hmem => ?_⟩
      rw [hnames.constraint] at hmem
      obtain rfl := Option.some.inj hmem
      exact ⟨type, htype, cs, hc, hcs⟩

end

/-- The constraints looked up in the schema of a collection are constraints of the schema. -/
theorem Schema.mem_constraints_of_looksUp {col : Collection} {types : List String} {c : Constraint}
    (h : (ofCollection col).LooksUp types c) : c ∈ (ofCollection col).constraints := by
  have hgroup : ∀ (key : Constraint → Option String) {k : String},
      c ∈ ((OrderedMap.group key (ofCollection col).constraints).get? k).getD [] →
        c ∈ (ofCollection col).constraints := by
    intro key k hc
    rw [OrderedMap.getD_group] at hc
    exact (List.mem_filter.mp hc).1
  have hentries : ∀ {table : OrderedMap String (List Constraint)} {id : String} {cs},
      (∀ k, c ∈ (table.get? k).getD [] → c ∈ (ofCollection col).constraints) → c ∈ cs →
        (ofCollection col).entriesFor table id true = .ok cs →
          c ∈ (ofCollection col).constraints := by
    intro table id cs htable hc hcs
    unfold entriesFor at hcs
    split at hcs
    · cases hchain : (ofCollection col).hierarchy id with
      | error err =>
        rw [hchain] at hcs
        cases hcs
      | ok chain =>
        rw [hchain] at hcs
        cases hcs
        obtain ⟨level, -, hlevel⟩ := List.mem_flatMap.mp hc
        exact htable _ hlevel
    · cases hcs
      exact htable _ hc
  obtain ⟨type, -, cs, hc, hcs | hcs⟩ := h
  · exact hentries (fun _ => hgroup _) hc hcs
  · exact hentries (fun _ => hgroup _) hc hcs

end EntityGraph
