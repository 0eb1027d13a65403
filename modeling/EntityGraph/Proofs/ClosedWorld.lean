import EntityGraph.Proofs.Abbreviation

/-!
# Predicates of a closed world

Strict checks ask a schema which predicates it knows. The answer for a property depends on what the
predicate denotes and not on how it is spelled, neither in the question nor in the constraint. For a
reference this is so but for one predicate: the type predicate is always known by its URI, and by
its other spellings only if a reference constraint is about it.

Results:
* `Schema.declaresProperty_iff`, `Schema.declaresReference_iff`: which predicates a schema knows.
* `Schema.declared_iff_constrained`: the spelling of a predicate makes no difference, unless it is a
  spelling of the type predicate that the schema overlooks.
* `Schema.not_forall_declaresReference_canonical`: the schema without constraints overlooks
  `rdf:type`.
-/

namespace EntityGraph

/-- The predicate of a property constraint is its first target at `propertyClass`, or else the first
text there. -/
theorem Constraint.propertyClass_eq_ok_iff {c : Constraint} {q : String} :
    c.propertyClass = .ok q ↔
      c.entity.firstReference? Vocabulary.propertyClass = some q ∨
      c.entity.firstReference? Vocabulary.propertyClass = none ∧
        c.entity.firstString? Vocabulary.propertyClass = some q := by
  rw [← Option.or_eq_some_iff]
  unfold propertyClass name?
  cases (c.entity.firstReference? Vocabulary.propertyClass).or
    (c.entity.firstString? Vocabulary.propertyClass) <;> simp

theorem Constraint.referenceClass_eq_ok_iff {c : Constraint} {q : String} :
    c.referenceClass = .ok q ↔ c.entity.firstReference? Vocabulary.referenceClass = some q := by
  unfold referenceClass
  cases c.entity.firstReference? Vocabulary.referenceClass <;> simp

namespace Schema

variable {s : Schema} {p : String}

/-- Some property constraint is about what the predicate denotes: its predicate, a target or else a
text, is canonically the same. -/
def ConstrainsProperty (s : Schema) (p : String) : Prop :=
  ∃ c ∈ s.constraints, c.kind = .property ∧ ∃ q,
    (c.entity.firstReference? Vocabulary.propertyClass = some q ∨
      c.entity.firstReference? Vocabulary.propertyClass = none ∧
        c.entity.firstString? Vocabulary.propertyClass = some q) ∧
    s.namespaces.canonical q = s.namespaces.canonical p

/-- Some reference constraint is about what the predicate denotes. -/
def ConstrainsReference (s : Schema) (p : String) : Prop :=
  ∃ c ∈ s.constraints, c.kind = .reference ∧ ∃ q,
    c.entity.firstReference? Vocabulary.referenceClass = some q ∧
    s.namespaces.canonical q = s.namespaces.canonical p

/-- Another spelling of the type predicate than its URI, where no reference constraint is about
it. -/
def OverlooksType (s : Schema) (p : String) : Prop :=
  s.namespaces.canonical p = Vocabulary.rdfType ∧ p ≠ Vocabulary.rdfType ∧
    ¬ s.ConstrainsReference Vocabulary.rdfType

theorem constrainsReference_congr {p p' : String}
    (h : s.namespaces.canonical p = s.namespaces.canonical p') :
    s.ConstrainsReference p ↔ s.ConstrainsReference p' := by
  unfold ConstrainsReference
  rw [h]

/-- **A schema knows the properties that its constraints are about.** -/
theorem declaresProperty_iff (hs : s.FromExpanded) :
    s.declaresProperty p = true ↔ s.ConstrainsProperty p := by
  rw [declaresProperty_iff_exists hs.eq_ofCollection]
  simp only [Constraint.propertyClass_eq_ok_iff, ConstrainsProperty]

/-- **A schema knows the type predicate by its URI, and the references that its constraints are
about.** -/
theorem declaresReference_iff (hs : s.FromExpanded) :
    s.declaresReference p = true ↔ p = Vocabulary.rdfType ∨ s.ConstrainsReference p := by
  rw [declaresReference_iff_exists hs.eq_ofCollection]
  simp only [Constraint.referenceClass_eq_ok_iff, ConstrainsReference]

/-- A schema knows the references that it constrains and the spellings of the type predicate that it
does not overlook. -/
theorem declaresReference_iff_of_overlooks (hs : s.FromExpanded) :
    s.declaresReference p = true ↔
      (s.namespaces.canonical p = Vocabulary.rdfType ∨ s.ConstrainsReference p) ∧
        ¬ s.OverlooksType p := by
  rw [declaresReference_iff hs]
  constructor
  · rintro (rfl | hp)
    · exact ⟨.inl (canonical_rdfType _), fun h => h.2.1 rfl⟩
    · refine ⟨.inr hp, fun h => h.2.2 ?_⟩
      exact (constrainsReference_congr (h.1.trans (canonical_rdfType _).symm)).mp hp
  · rintro ⟨htype | hp, hknown⟩
    · rw [constrainsReference_congr (htype.trans (canonical_rdfType _).symm)]
      by_contra h
      exact hknown ⟨htype, not_or.mp h⟩
    · exact .inr hp

/-- The label `rdf` spells the type predicate. -/
theorem canonical_rdfType_of_expansion {ns : Namespaces}
    (h : ns.expansion? "rdf" = some Vocabulary.rdfNamespace) :
    ns.canonical "rdf:type" = Vocabulary.rdfType := by
  refine Namespaces.canonical_of_expand ?_
  have hfull : isFullUri "rdf:type" = false := by decide +kernel
  have hcut : Text.cut? ':' "rdf:type" = some ("rdf", "type") := by decide +kernel
  have happend : Vocabulary.rdfNamespace ++ "type" = Vocabulary.rdfType := by decide +kernel
  simp only [Namespaces.expand, hfull, hcut, h, happend, Bool.false_eq_true, if_false]

/-- **The spelling of a predicate makes no difference**, unless it is a spelling of the type
predicate that the schema overlooks. Where `rdf` is bound as usual there is one, exactly if no
reference constraint is about types. -/
theorem declared_iff_constrained (hs : s.FromExpanded)
    (hrdf : s.namespaces.expansion? "rdf" = some Vocabulary.rdfNamespace) :
    (∀ p, s.declaresProperty p = true ↔ s.ConstrainsProperty p) ∧
    (∀ p, s.declaresProperty (s.namespaces.canonical p) = s.declaresProperty p) ∧
    (∀ p, s.declaresReference p = true ↔
      (s.namespaces.canonical p = Vocabulary.rdfType ∨ s.ConstrainsReference p) ∧
        ¬ s.OverlooksType p) ∧
    (∀ p, s.declaresReference (s.namespaces.canonical p) = s.declaresReference p ↔
      ¬ s.OverlooksType p) ∧
    ((∃ p, s.OverlooksType p) ↔ ¬ s.ConstrainsReference Vocabulary.rdfType) := by
  have hcanonical (p : String) :
      s.namespaces.canonical (s.namespaces.canonical p) = s.namespaces.canonical p :=
    Namespaces.canonical_canonical hs.expansions p
  refine ⟨fun p => declaresProperty_iff hs, fun p => ?_,
    fun p => declaresReference_iff_of_overlooks hs, fun p => ?_, ?_, fun h => ?_⟩
  · obtain ⟨_, c, -, rfl⟩ := hs.source
    exact declaresProperty_canonical hs.expansions p
  · have hnever : ¬ s.OverlooksType (s.namespaces.canonical p) := fun h =>
      h.2.1 ((hcanonical p).symm.trans h.1)
    rw [Bool.eq_iff_iff, declaresReference_iff_of_overlooks hs,
      declaresReference_iff_of_overlooks hs, hcanonical, constrainsReference_congr (hcanonical p),
      and_iff_left hnever, iff_self_and]
    exact ⟨fun h hp => h (.inl hp.1) hp, fun h _ => h⟩
  · rintro ⟨p, hp⟩
    exact hp.2.2
  · exact ⟨"rdf:type", canonical_rdfType_of_expansion hrdf, by decide +kernel, h⟩

/-- A person has a name and a home. What is a name is said in a text and written short. -/
def residents : SchemaBuilder :=
  let b := SchemaBuilder.empty.bind "ex" "urn:ex:"
  let (named, b) := b.startConstraint .property "ex:Person"
  let b := b.addEntity (named.entity.setProperty Vocabulary.propertyClass
    (.one (.string "ex:name")))
  let (home, b) := b.startConstraint .reference "ex:Person"
  b.addConstraint (home.setName Vocabulary.referenceClass "ex:home")

/-- Names and homes are known by both spellings, the type predicate by its URI only. -/
theorem declared_iff_constrained_residents :
    ∃ s, residents.build = .ok s ∧ s.FromExpanded ∧
      s.namespaces.expansion? "rdf" = some Vocabulary.rdfNamespace ∧
      s.ConstrainsProperty "ex:name" ∧ s.ConstrainsProperty "urn:ex:name" ∧
      ¬ s.ConstrainsProperty "ex:home" ∧
      s.declaresReference "urn:ex:home" = s.declaresReference "ex:home" ∧
      s.declaresReference "ex:home" = true ∧ s.OverlooksType "rdf:type" ∧
      s.declaresReference "rdf:type" = false ∧ s.declaresReference Vocabulary.rdfType = true := by
  have hfacts : ∃ s ∈ residents.build.toOption,
      s.namespaces.expansion? "rdf" = some Vocabulary.rdfNamespace ∧
      s.namespaces.canonical "ex:name" = "urn:ex:name" ∧
      s.namespaces.canonical "ex:home" = "urn:ex:home" ∧
      s.namespaces.canonical "rdf:type" = Vocabulary.rdfType ∧
      s.declaresProperty "ex:name" = true ∧ s.declaresProperty "ex:home" = false ∧
      s.declaresReference "ex:home" = true ∧ s.declaresReference "rdf:type" = false := by
    decide +kernel
  obtain ⟨s, hmem, hrdf, hname, hhome, htype, hnamed, hnothing, hknown, hoverlooked⟩ := hfacts
  have hbuild : residents.build = .ok s := eq_ok_of_mem_toOption hmem
  have hs := SchemaBuilder.fromExpanded_of_build hbuild (by decide +kernel)
  obtain ⟨hproperty, hrespelled, hreference, hspelling, -⟩ := declared_iff_constrained hs hrdf
  have hoverlooks : s.OverlooksType "rdf:type" := by
    by_contra h
    have hknows := (hreference "rdf:type").mpr ⟨.inl htype, h⟩
    rw [hoverlooked] at hknows
    cases hknows
  refine ⟨s, hbuild, hs, hrdf, (hproperty _).mp hnamed, (hproperty _).mp ?_, fun h => ?_, ?_,
    hknown, hoverlooks, hoverlooked, ?_⟩
  · rw [← hname, hrespelled, hnamed]
  · rw [(hproperty _).mpr h] at hnothing
    cases hnothing
  · rw [← hhome]
    refine (hspelling _).mpr fun h => ?_
    have huri := h.1
    rw [hhome] at huri
    exact absurd huri (by decide +kernel)
  · exact (hreference _).mpr ⟨.inl (canonical_rdfType _), fun h => h.2.1 rfl⟩

/-- Not every schema knows the type predicate by all its spellings: one without constraints does not
know `rdf:type`. -/
theorem not_forall_declaresReference_canonical :
    ¬ ∀ s : Schema, s.FromExpanded →
      s.namespaces.expansion? "rdf" = some Vocabulary.rdfNamespace → ∀ p,
      (s.declaresReference p = true ↔
        s.namespaces.canonical p = Vocabulary.rdfType ∨ s.ConstrainsReference p) ∧
      s.declaresReference (s.namespaces.canonical p) = s.declaresReference p := by
  intro h
  have hfacts : ∃ s ∈ SchemaBuilder.empty.build.toOption,
      s.namespaces.expansion? "rdf" = some Vocabulary.rdfNamespace ∧
      s.namespaces.canonical "rdf:type" = Vocabulary.rdfType ∧
      s.declaresReference "rdf:type" = false := by
    decide +kernel
  obtain ⟨s, hmem, hrdf, htype, hoverlooked⟩ := hfacts
  have hbuild : SchemaBuilder.empty.build = .ok s := eq_ok_of_mem_toOption hmem
  have hs := SchemaBuilder.fromExpanded_of_build hbuild (by decide +kernel)
  have hknown := (h s hs hrdf "rdf:type").1.mpr (.inl htype)
  rw [hoverlooked] at hknown
  cases hknown

end Schema

end EntityGraph
