import EntityGraph.Proofs.Abstractness
import EntityGraph.Proofs.Referrers

/-!
# What is reported for one constraint

A validation holds an entity against the constraints of each of its types, and its referrers against
the constraints that have the type on the side of the targets. A finding names its constraint and
tells by its kind on which side it was found, and so what is reported for one constraint can be
picked out.

Results:
* `filter_gather`: of checks that name their constraints, what was found for one of them.
* `own_of_checkEntity`, `inverse_of_checkEntity`: on each side, what the check of the constraint
  gives is reported as often as the constraint is reached through the types.
-/

namespace EntityGraph

/-- The constraints of a type, if they can be looked up. -/
def Schema.constraintsOf (s : Schema) (type : String) : List Constraint :=
  (s.constraintsFor type true).toOption.getD []

/-- What is reported for a constraint on its own side. -/
def Violation.ownFor (c : Constraint) (vs : List Violation) : List Violation :=
  vs.filter fun v => decide (¬ v.kind.IsInverse ∧ v.constraint = some c)

/-- What is reported for a constraint on the side of the referrers. -/
def Violation.inverseFor (c : Constraint) (vs : List Violation) : List Violation :=
  vs.filter fun v => decide (v.kind.IsInverse ∧ v.constraint = some c)

section

variable {c : Constraint} {found : List Violation} {P : Violation → Prop} [DecidablePred P]

/-- **Of checks that name their constraints, what was found for one of them.** -/
theorem filter_gather {check : Constraint → Except ValidationError (List Violation)}
    {cs : List Constraint} {vs : List Violation} (h : gather check cs = .ok vs)
    (hnames : ∀ c' ∈ cs, ∀ ws, check c' = .ok ws → ∀ v ∈ ws, P v ∧ v.constraint = some c')
    (hfound : check c = .ok found) :
    vs.filter (fun v => decide (P v ∧ v.constraint = some c)) =
      (cs.filter (· = c)).flatMap fun _ => found := by
  obtain ⟨g, hg, rfl⟩ := gather_eq_ok_iff.mp h
  have hnamed : ∀ c' ∈ cs, ∀ v ∈ g c', P v ∧ v.constraint = some c' :=
    fun c' hc' => hnames c' hc' (g c') (hg c' hc')
  have htest : (cs.flatMap g).filter (fun v => decide (P v ∧ v.constraint = some c)) =
      (cs.flatMap g).filter fun v => v.constraint.any (· = c) := by
    refine List.filter_congr fun v hv => ?_
    obtain ⟨c', hc', hv⟩ := List.mem_flatMap.mp hv
    obtain ⟨hP, hname⟩ := hnamed c' hc' v hv
    rw [hname]
    simp [hP]
  rw [htest, filter_flatMap_of_names fun c' hc' v hv => (hnamed c' hc' v hv).2]
  refine List.flatMap_congr fun c' hc' => ?_
  obtain ⟨hmem, hsame⟩ := List.mem_filter.mp hc'
  obtain rfl := of_decide_eq_true hsame
  exact Except.ok.inj ((hg c' hmem).symm.trans hfound)

/-- What is found at each type as often as the constraint is listed there, is found at all types as
often as it is listed at all of them. -/
theorem filter_flatMap_types {types : List String} {parts : String → List Violation}
    {listed : String → List Constraint} {p : Violation → Bool}
    (h : ∀ type ∈ types, (parts type).filter p =
      ((listed type).filter (· = c)).flatMap fun _ => found) :
    (types.flatMap parts).filter p =
      (List.replicate ((types.flatMap listed).count c) found).flatten := by
  rw [List.filter_flatMap, List.flatMap_congr h, ← List.flatMap_assoc, ← List.filter_flatMap,
    List.filter_eq, List.flatMap_replicate]

end

section

variable {r : Run (Except ValidationError)} {c : Constraint} {e : Entity}
  {vs found : List Violation}

theorem own_of_checkType {type : String} (h : r.checkType e type = .ok vs)
    (hfound : r.checkConstraint e c = .ok found) :
    Violation.ownFor c vs =
      ((r.schema.constraintsOf type).filter (· = c)).flatMap fun _ => found := by
  obtain ⟨cs, own, inverse, hcs, hown, rfl, hinverse⟩ := exists_of_checkType h
  have hlisted : r.schema.constraintsOf type = cs := by
    unfold Schema.constraintsOf
    rw [hcs]
    rfl
  have hnone : Violation.ownFor c inverse = [] := by
    refine List.filter_eq_nil_iff.mpr fun v hv => ?_
    simp [hinverse v hv]
  unfold Violation.ownFor at hnone ⊢
  rw [List.filter_append, hnone, List.append_nil, hlisted]
  refine filter_gather hown (fun c' _ ws hws v hv => ?_) hfound
  have hof := ownOf_of_mem_checkConstraint hws hv
  exact ⟨hof.kind, hof.constraint⟩

theorem inverse_of_checkType (hrelated : r.settings.related = true) {type : String}
    (h : r.checkType e type = .ok vs) (hfound : r.checkInverse c e = .ok found) :
    Violation.inverseFor c vs =
      ((r.schema.inversesOf type).filter (· = c)).flatMap fun _ => found := by
  rw [checkType_related hrelated] at h
  obtain ⟨own, hown, h⟩ := bind_eq_ok_iff.mp h
  obtain ⟨inverse, hinverse, h⟩ := bind_eq_ok_iff.mp h
  obtain rfl := Except.ok.inj h
  obtain ⟨cs, hcs, hinverse⟩ := bind_eq_ok_iff.mp hinverse
  have hlisted : r.schema.inversesOf type = cs := by
    unfold Schema.inversesOf
    rw [lift_eq_ok_iff.mp hcs]
    rfl
  have hnone : Violation.inverseFor c own = [] := by
    refine List.filter_eq_nil_iff.mpr fun v hv => ?_
    simp [not_isInverse_of_mem_ownFindings hown hv]
  unfold Violation.inverseFor at hnone ⊢
  rw [List.filter_append, hnone, List.nil_append, hlisted]
  exact filter_gather hinverse
    (fun c' _ ws hws v hv => ⟨isInverse_of_mem_checkInverse hws hv,
      (names_of_mem_checkInverse hws hv).constraint⟩) hfound

/-- What is reported of undeclared predicates is reported for no constraint. -/
theorem filter_undeclared {P : Violation → Prop} [DecidablePred P] (s : Schema) :
    (Violation.undeclared s e).filter (fun v => decide (P v ∧ v.constraint = some c)) = [] := by
  refine List.filter_eq_nil_iff.mpr fun v hv => ?_
  simp [(names_of_mem_undeclared hv).1]

/-- **On its own side**, what the check of a constraint gives is reported as often as the constraint
is reached through the types of the entity. -/
theorem own_of_checkEntity (h : r.checkEntity e = .ok vs)
    (hfound : r.checkConstraint e c = .ok found) :
    Violation.ownFor c vs =
      (List.replicate ((e.types.flatMap r.schema.constraintsOf).count c) found).flatten := by
  obtain ⟨parts, hparts, rfl⟩ := exists_of_checkEntity h
  unfold Violation.ownFor
  rw [List.filter_append, apply_ite (List.filter _), filter_undeclared, List.filter_nil, ite_self,
    List.nil_append]
  exact filter_flatMap_types fun type htype => own_of_checkType (hparts type htype) hfound

/-- **On the side of the referrers**, what the check of a constraint gives is reported as often as
the constraint is reached through the types of the entity. -/
theorem inverse_of_checkEntity (hrelated : r.settings.related = true)
    (h : r.checkEntity e = .ok vs) (hfound : r.checkInverse c e = .ok found) :
    Violation.inverseFor c vs =
      (List.replicate ((e.types.flatMap r.schema.inversesOf).count c) found).flatten := by
  obtain ⟨parts, hparts, rfl⟩ := exists_of_checkEntity h
  unfold Violation.inverseFor
  rw [List.filter_append, apply_ite (List.filter _), filter_undeclared, List.filter_nil, ite_self,
    List.nil_append]
  exact filter_flatMap_types fun type htype =>
    inverse_of_checkType hrelated (hparts type htype) hfound

end

end EntityGraph
