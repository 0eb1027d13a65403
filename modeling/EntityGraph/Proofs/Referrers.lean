import EntityGraph.Proofs.Findings
import EntityGraph.Proofs.Targets

/-!
# Referrers

A reference constraint may bound how many entities refer to one. The check asks the store for the
referrers one after another, looks at the types that each declares within the context, and stops
as soon as the upper bound is passed. Here its outcome is read off the list of all referrers: each
votes that it counts, that it does not, or nothing, if the line of one of its types is broken.

Results:
* `countReferrers_settles`: stopping early decides the bounds as the count of all votes does.
* `checkInverse_settles`: what holding the referrers of an entity against one constraint gives.
* `checkEntity_alike_iff`: two validations that differ in what referrers vote for are alike exactly
  if the votes fall on the same side of every demand.
-/

namespace EntityGraph

/-! ## Votes -/

/-- Whether types make an instance of a class, decided by the first type that is not plainly of
another class; nothing if the line of that type is broken. -/
def Schema.instanceOf? (s : Schema) (cls : String) : List String → Option Bool
  | [] => some false
  | type :: types =>
    match s.isSubclassOf type cls with
    | .ok true => some true
    | .ok false => s.instanceOf? cls types
    | .error _ => none

/-- What a reference constraint demands of the referrers of an entity: how many there are through
a predicate, of those that are instances of its own class. -/
structure Demand where
  predicate : String
  bounds : Cardinality
  owner : String

/-- The demand of a constraint, unless any number of referrers will do. -/
def Constraint.demand? (c : Constraint) : Except SchemaError (Option Demand) := do
  let predicate ← c.referenceClass
  let bounds ← c.inverseCardinality
  if bounds = .any then return none
  return some ⟨predicate, bounds, ← c.entityClass⟩

/-- What a number of referrers leaves unmet of a demand. -/
def Constraint.unmet (c : Constraint) (e : Entity) (d : Demand) (count : Nat) :
    List (Violation.Kind × Option Constraint × Option Entity) :=
  (if d.bounds.isBelow count then
    [(.minInverseReferenceOccurrenceNotMet, some c, some e)]
  else []) ++
  (if d.bounds.isAbove count then
    [(.maxInverseReferenceOccurrenceExceeded, some c, some e)]
  else [])

namespace Store

/-- The types of a referrer that count: without a context those of the merged entity, and within
one those of the records under its canonical identifier. -/
def typesSeen (σ : Store) (ns : Namespaces) (context : List String) (referrer : Entity) :
    List String :=
  if context.isEmpty then referrer.types
  else Run.declaredTypes (σ.recordsIn context (ns.canonical referrer.id))

/-- The votes of all referrers on a demand. -/
def votes (σ : Store) (s : Schema) (context : List String) (e : Entity) (d : Demand) :
    List (Option Bool) :=
  (σ.hop (s.namespaces.canonical e.id) d.predicate true none).map fun referrer =>
    s.instanceOf? d.owner (σ.typesSeen s.namespaces context referrer)

end Store

namespace Cardinality

/-- Counting stalls at a vote for nothing, unless the upper bound is passed before. -/
def Stalls (b : Cardinality) (votes : List (Option Bool)) : Prop :=
  ∃ before after, votes = before ++ none :: after ∧ b.isAbove (before.count (some true)) = false

theorem count_filter (votes : List (Option Bool)) :
    (votes.filter (· != some false)).count (some true) = votes.count (some true) :=
  List.count_filter (by decide)

/-- Votes for another class do not make a count stall, and do not keep it from stalling. -/
theorem stalls_filter {b : Cardinality} {votes : List (Option Bool)} :
    b.Stalls (votes.filter (· != some false)) ↔ b.Stalls votes := by
  constructor
  · rintro ⟨before, after, hsplit, habove⟩
    obtain ⟨before', rest, rfl, rfl, hrest⟩ := List.filter_eq_append_iff.mp hsplit
    obtain ⟨skipped, rest', rfl, hskipped, -, rfl⟩ := List.filter_eq_cons_iff.mp hrest
    refine ⟨before' ++ skipped, rest', by rw [List.append_assoc], ?_⟩
    rw [← count_filter, List.filter_append, List.filter_eq_nil_iff.mpr hskipped, List.append_nil]
    exact habove
  · rintro ⟨before, after, rfl, habove⟩
    refine ⟨before.filter (· != some false), after.filter (· != some false), ?_, ?_⟩
    · rw [List.filter_append, List.filter_cons_of_pos (by decide)]
    · rw [count_filter]
      exact habove

theorem isAbove_iff {b : Cardinality} {n : Nat} : b.isAbove n = true ↔ ∃ m ∈ b.max, m < n := by
  cases h : b.max <;> simp [isAbove, h]

theorem isAbove_mono {b : Cardinality} {n m : Nat} (h : n ≤ m) (hn : b.isAbove n = true) :
    b.isAbove m = true := by
  obtain ⟨most, hmost, hlt⟩ := isAbove_iff.mp hn
  exact isAbove_iff.mpr ⟨most, hmost, by omega⟩

/-- A count above bounds that fit together is not below them. -/
theorem isBelow_of_isAbove {b : Cardinality} (hb : ∀ m ∈ b.max, b.min ≤ m) {n : Nat}
    (h : b.isAbove n = true) : b.isBelow n = false := by
  obtain ⟨most, hmost, hlt⟩ := isAbove_iff.mp h
  have := hb most hmost
  simp only [isBelow, decide_eq_false_iff_not]
  omega

theorem isAbove_zero (b : Cardinality) : b.isAbove 0 = false := by
  cases h : b.max <;> simp [isAbove, h]

/-- Declared bounds fit together. -/
theorem min_le_of_ofDeclared {constraint : String} {min max : Option Int} {b : Cardinality}
    (h : ofDeclared constraint min max = .ok b) : ∀ m ∈ b.max, b.min ≤ m :=
  (ofDeclared_eq_ok_iff.mp h).2.2

end Cardinality

/-! ## Counting -/

section Counting

variable {r : Run (Except ValidationError)}

/-- Asking the types one after another gives their vote. -/
theorem toOption_isInstance (r : Run (Except ValidationError)) (cls : String)
    (types : List String) :
    (r.isInstance cls types).toOption = r.schema.instanceOf? cls types := by
  induction types with
  | nil => rfl
  | cons type types ih =>
    unfold Run.isInstance Schema.instanceOf?
    cases r.schema.isSubclassOf type cls with
    | error err => rfl
    | ok b =>
      cases b with
      | true => rfl
      | false => exact ih

/-- Where nothing stops the run, a referrer counts as it votes. -/
theorem toOption_counts {σ : Store} (hstore : r.provider? = some σ.provider)
    (hproceed : r.proceed = .ok ()) (owner : String) (referrer : Entity) :
    (r.counts owner referrer).toOption =
      r.schema.instanceOf? owner
        (σ.typesSeen r.schema.namespaces r.settings.context referrer) := by
  unfold Run.counts Store.typesSeen
  by_cases hctx : r.settings.context.isEmpty = true
  · rw [if_pos hctx, if_pos hctx, toOption_isInstance]
  · rw [if_neg hctx, if_neg hctx, hproceed, ok_bind, stored?_of_store hstore, ok_bind]
    cases hstored : σ.stored? (r.schema.namespaces.canonical referrer.id) with
    | none =>
      unfold Store.recordsIn
      rw [Store.stored?_eq_none_iff.mp hstored]
      rfl
    | some stored =>
      rw [← Store.recordsIn_of_stored? hstored]
      exact toOption_isInstance r owner _

/-- A vote counts on by one or not at all. -/
theorem count_cons (v : Bool) (vs : List (Option Bool)) (count : Nat) :
    count + (some v :: vs).count (some true) =
      (if v then count + 1 else count) + vs.count (some true) := by
  cases v <;> simp; omega

/-- Counting on from `count` stalls at a vote for nothing, unless the upper bound is passed
before. -/
def Cardinality.StallsFrom (b : Cardinality) (count : Nat) (votes : List (Option Bool)) : Prop :=
  ∃ before after, votes = before ++ none :: after ∧
    b.isAbove (count + before.count (some true)) = false

theorem stallsFrom_zero {b : Cardinality} {votes : List (Option Bool)} :
    b.StallsFrom 0 votes ↔ b.Stalls votes := by
  unfold Cardinality.StallsFrom Cardinality.Stalls
  simp only [Nat.zero_add]

/-- Counting on from `count` stalls exactly if counting on from the next vote does. -/
theorem stallsFrom_cons {b : Cardinality} {v : Bool} {vs : List (Option Bool)} {count : Nat} :
    b.StallsFrom count (some v :: vs) ↔ b.StallsFrom (if v then count + 1 else count) vs := by
  constructor
  · rintro ⟨before, after, hsplit, habove⟩
    cases before with
    | nil => cases hsplit
    | cons w before =>
      obtain ⟨rfl, rfl⟩ := List.cons.inj hsplit
      exact ⟨before, after, rfl, by rw [← count_cons]; exact habove⟩
  · rintro ⟨before, after, rfl, habove⟩
    exact ⟨some v :: before, after, rfl, by rw [count_cons]; exact habove⟩

/-- Counting on from a count above the bounds never stalls. -/
theorem not_stallsFrom_of_isAbove {b : Cardinality} {count : Nat} (h : b.isAbove count = true)
    (votes : List (Option Bool)) : ¬ b.StallsFrom count votes := by
  rintro ⟨before, after, -, hnot⟩
  rw [Cardinality.isAbove_mono (Nat.le_add_right _ _) h] at hnot
  cases hnot

/-- Counting on from a count that the bounds let pass. -/
theorem countReferrers_from {owner : String} {b : Cardinality} (hb : ∀ m ∈ b.max, b.min ≤ m)
    {vote : Entity → Option Bool} (hvote : ∀ x, (r.counts owner x).toOption = vote x)
    (referrers : List Entity) {count : Nat} (hcount : b.isAbove count = false) :
    (b.StallsFrom count (referrers.map vote) ∧
      ∃ err, r.countReferrers owner b (referrers.map .ok) count = .error err) ∨
    (¬ b.StallsFrom count (referrers.map vote) ∧
      ∃ n, r.countReferrers owner b (referrers.map .ok) count = .ok n ∧
        b.isBelow n = b.isBelow (count + (referrers.map vote).count (some true)) ∧
        b.isAbove n = b.isAbove (count + (referrers.map vote).count (some true))) := by
  induction referrers generalizing count with
  | nil => exact Or.inr ⟨by simp [Cardinality.StallsFrom], count, rfl, rfl, rfl⟩
  | cons x xs ih =>
    simp only [List.map_cons]
    rw [← hvote x]
    unfold Run.countReferrers
    rw [lift_ok, ok_bind]
    cases hx : r.counts owner x with
    | error err => exact Or.inl ⟨⟨[], xs.map vote, rfl, hcount⟩, err, rfl⟩
    | ok v =>
      rw [ok_bind, show (Except.ok v : Except ValidationError Bool).toOption = some v from rfl,
        stallsFrom_cons, count_cons]
      set next := if v then count + 1 else count
      by_cases habove : b.isAbove next = true
      · rw [if_pos habove]
        have hall : ∀ n, b.isAbove (next + n) = true :=
          fun n => Cardinality.isAbove_mono (Nat.le_add_right next n) habove
        refine Or.inr ⟨not_stallsFrom_of_isAbove habove _, next, rfl, ?_, ?_⟩
        · rw [Cardinality.isBelow_of_isAbove hb habove, Cardinality.isBelow_of_isAbove hb (hall _)]
        · rw [habove, hall]
      · rw [if_neg habove]
        exact ih (Bool.eq_false_iff.mpr habove)

/-- **Stopping early decides the bounds as the count of all votes does.** The counting fails exactly
if it stalls. -/
theorem countReferrers_settles {owner : String} {b : Cardinality} (hb : ∀ m ∈ b.max, b.min ≤ m)
    {vote : Entity → Option Bool} (hvote : ∀ x, (r.counts owner x).toOption = vote x)
    (referrers : List Entity) :
    (b.Stalls (referrers.map vote) ∧
      ∃ err, r.countReferrers owner b (referrers.map .ok) 0 = .error err) ∨
    (¬ b.Stalls (referrers.map vote) ∧
      ∃ n, r.countReferrers owner b (referrers.map .ok) 0 = .ok n ∧
        b.isBelow n = b.isBelow ((referrers.map vote).count (some true)) ∧
        b.isAbove n = b.isAbove ((referrers.map vote).count (some true))) := by
  have h := countReferrers_from hb hvote referrers b.isAbove_zero
  rw [stallsFrom_zero, Nat.zero_add] at h
  exact h

end Counting

/-! ## One constraint -/

section Constraints

variable {r : Run (Except ValidationError)} {c : Constraint} {e : Entity}

/-- The findings of an inverse check by a count. -/
def Run.inverseFindings (c : Constraint) (e : Entity) (d : Demand) (count : Nat) : List Violation :=
  let through := " through " ++ d.predicate ++ " (" ++
    c.inverseReferenceClass?.getD d.predicate ++ ")"
  (if d.bounds.isBelow count then
    [.of c e .minInverseReferenceOccurrenceNotMet (e.id ++ " is referenced " ++ toString count ++
      " time(s)" ++ through ++ ", expected at least " ++ toString d.bounds.min)] else []) ++
  (if d.bounds.isAbove count then
    [.of c e .maxInverseReferenceOccurrenceExceeded (e.id ++ " is referenced more than " ++
      toString (d.bounds.max.getD count) ++ " time(s)" ++ through)] else [])

/-- An inverse check counts the referrers if its constraint has a demand. -/
theorem checkInverse_eq {σ : Store} (hstore : r.provider? = some σ.provider)
    (hproceed : r.proceed = .ok ()) (c : Constraint) (e : Entity) :
    r.checkInverse c e = (do
      match ← lift .schema c.demand? with
      | none => return []
      | some d => return Run.inverseFindings c e d (← r.countReferrers d.owner d.bounds
          ((σ.hop (r.schema.namespaces.canonical e.id) d.predicate true none).map .ok) 0)) := by
  have hreferrers : ∀ predicate, r.referrers e.id predicate none =
      .ok ((σ.hop (r.schema.namespaces.canonical e.id) predicate true none).map .ok) := by
    intro predicate
    unfold Run.referrers Run.provider
    rw [hstore]
    rfl
  unfold Run.checkInverse Constraint.demand?
  cases c.referenceClass with
  | error err => rfl
  | ok predicate =>
    cases c.inverseCardinality with
    | error err => rfl
    | ok bounds =>
      simp only [lift_ok, ok_bind]
      by_cases hany : bounds = .any
      · rw [if_pos hany, if_pos hany]
        rfl
      · rw [if_neg hany, if_neg hany]
        cases c.entityClass with
        | error err => rfl
        | ok owner =>
          simp only [lift_ok, ok_bind, hproceed, hreferrers]
          rfl

theorem bounds_of_demand? {d : Demand} (h : c.demand? = .ok (some d)) :
    ∀ m ∈ d.bounds.max, d.bounds.min ≤ m := by
  obtain ⟨predicate, -, h⟩ := bind_eq_ok_iff.mp h
  obtain ⟨bounds, hbounds, h⟩ := bind_eq_ok_iff.mp h
  split at h
  · cases h
  · obtain ⟨owner, -, h⟩ := bind_eq_ok_iff.mp h
    cases h
    exact Cardinality.min_le_of_ofDeclared hbounds

theorem substance_inverseFindings {d : Demand} {n m : Nat}
    (hbelow : d.bounds.isBelow n = d.bounds.isBelow m)
    (habove : d.bounds.isAbove n = d.bounds.isAbove m) :
    (Run.inverseFindings c e d n).map Violation.substance = c.unmet e d m := by
  unfold Run.inverseFindings Constraint.unmet
  rw [← hbelow, ← habove]
  cases d.bounds.isBelow n <;> cases d.bounds.isAbove n <;> rfl

/-- **What holding the referrers of an entity against one constraint gives.** It fails exactly if
the constraint cannot say what it demands or the count stalls. -/
theorem checkInverse_settles {σ : Store} (hstore : r.provider? = some σ.provider)
    (hproceed : r.proceed = .ok ()) (c : Constraint) (e : Entity) :
    Settles (r.checkInverse c e) Violation.substance
      ((∃ err, c.demand? = .error err) ∨
        ∃ d, c.demand? = .ok (some d) ∧ d.bounds.Stalls (σ.votes r.schema r.settings.context e d))
      (c.demand?.toOption.join.elim [] fun d =>
        c.unmet e d ((σ.votes r.schema r.settings.context e d).count (some true))) := by
  rw [checkInverse_eq hstore hproceed]
  rcases hd : c.demand? with err | demand?
  · exact Or.inl ⟨Or.inl ⟨err, rfl⟩, _, rfl⟩
  · rcases demand? with - | d
    · exact Or.inr ⟨by simp, [], rfl, rfl⟩
    · simp only [lift_ok, ok_bind]
      rcases countReferrers_settles (bounds_of_demand? hd)
          (toOption_counts hstore hproceed d.owner)
          (σ.hop (r.schema.namespaces.canonical e.id) d.predicate true none) with
        ⟨hstalls, err, herr⟩ | ⟨hnot, n, hn, hbelow, habove⟩
      · rw [herr]
        exact Or.inl ⟨Or.inr ⟨d, rfl, hstalls⟩, err, rfl⟩
      · rw [hn]
        refine Or.inr ⟨?_, _, rfl, substance_inverseFindings hbelow habove⟩
        rintro (⟨err, herr⟩ | ⟨d', hd', hstalls⟩)
        · cases herr
        · cases hd'
          exact hnot hstalls

end Constraints

/-! ## One entity -/

/-- The inverse constraints of a type, if they can be looked up. -/
def Schema.inversesOf (s : Schema) (type : String) : List Constraint :=
  (s.inverseConstraintsFor type true).toOption.getD []

/-- A constraint that applies to an entity demands something of its referrers. -/
def Schema.Demands (s : Schema) (e : Entity) (c : Constraint) (d : Demand) : Prop :=
  (∃ type ∈ e.types, c ∈ s.inversesOf type) ∧ c.demand? = .ok (some d)

/-- Some demand on an entity cannot be decided by the votes. -/
def Schema.Stalls (s : Schema) (e : Entity) (votes : Demand → List (Option Bool)) : Prop :=
  ∃ c d, s.Demands e c d ∧ d.bounds.Stalls (votes d)

/-- Two polls fall on the same side of every demand on an entity: each stalls at some demand, or
neither stalls and the votes that count are below or above the same bounds. -/
def Schema.SameSides (s : Schema) (e : Entity) (votes votes' : Demand → List (Option Bool)) :
    Prop :=
  (s.Stalls e votes ∧ s.Stalls e votes') ∨
  (¬ s.Stalls e votes ∧ ¬ s.Stalls e votes' ∧ ∀ c d, s.Demands e c d →
    d.bounds.isBelow ((votes d).count (some true)) =
      d.bounds.isBelow ((votes' d).count (some true)) ∧
    d.bounds.isAbove ((votes d).count (some true)) =
      d.bounds.isAbove ((votes' d).count (some true)))

/-- Votes for another class do not matter. -/
theorem Schema.sameSides_of_filter_eq {s : Schema} {e : Entity}
    {votes votes' : Demand → List (Option Bool)}
    (h : ∀ c d, s.Demands e c d →
      (votes d).filter (· != some false) = (votes' d).filter (· != some false)) :
    s.SameSides e votes votes' := by
  have hstalls : s.Stalls e votes ↔ s.Stalls e votes' := by
    refine exists_congr fun c => exists_congr fun d => and_congr_right fun hd => ?_
    rw [← Cardinality.stalls_filter, h c d hd, Cardinality.stalls_filter]
  by_cases hst : s.Stalls e votes
  · exact Or.inl ⟨hst, hstalls.mp hst⟩
  · refine Or.inr ⟨hst, fun h' => hst (hstalls.mpr h'), fun c d hd => ?_⟩
    rw [← Cardinality.count_filter (votes d), h c d hd, Cardinality.count_filter]
    exact ⟨rfl, rfl⟩

namespace Run

/-- What an entity itself breaks at one of its types, its referrers apart. -/
def ownFindings (r : Run (Except ValidationError)) (e : Entity) (type : String) :
    Except ValidationError (List Violation) := do
  gather (r.checkConstraint e) (← lift .schema (r.schema.constraintsFor type true))

/-- The check of an entity fails at one of its types, whatever its referrers are. -/
def Blocked (r : Run (Except ValidationError)) (e : Entity) : Prop :=
  ∃ type ∈ e.types, (∃ err, r.ownFindings e type = .error err) ∨
    (∃ err, r.schema.inverseConstraintsFor type true = .error err) ∨
    ∃ c ∈ r.schema.inversesOf type, ∃ err, c.demand? = .error err

end Run

section Entities

variable {r r' : Run (Except ValidationError)} {e : Entity}

theorem not_isInverse_of_mem_ownFindings {type : String} {vs : List Violation} {v : Violation}
    (h : r.ownFindings e type = .ok vs) (hv : v ∈ vs) : ¬ v.kind.IsInverse := by
  obtain ⟨cs, -, h⟩ := bind_eq_ok_iff.mp h
  obtain ⟨g, hg, rfl⟩ := gather_eq_ok_iff.mp h
  obtain ⟨c, hc, hv⟩ := List.mem_flatMap.mp hv
  exact (ownOf_of_mem_checkConstraint (hg c hc) hv).kind

/-- Where related entities are looked at, the check of a type has two parts. -/
theorem checkType_related (hrelated : r.settings.related = true) (type : String) :
    r.checkType e type = (do return (← r.ownFindings e type) ++ (← (do
      gather (r.checkInverse · e) (← lift .schema (r.schema.inverseConstraintsFor type true)) :
        Except ValidationError (List Violation)))) :=
  Run.checkType_of_related hrelated e type

/-- What the demands of one constraint give, by the votes. -/
def Constraint.unmetBy (c : Constraint) (e : Entity) (votes : Demand → List (Option Bool)) :
    List (Violation.Kind × Option Constraint × Option Entity) :=
  c.demand?.toOption.join.elim [] fun d => c.unmet e d ((votes d).count (some true))

theorem mem_unmet_iff {c : Constraint} {d : Demand} {n : Nat}
    {x : Violation.Kind × Option Constraint × Option Entity} :
    x ∈ c.unmet e d n ↔
      (d.bounds.isBelow n = true ∧
        x = (.minInverseReferenceOccurrenceNotMet, some c, some e)) ∨
      (d.bounds.isAbove n = true ∧
        x = (.maxInverseReferenceOccurrenceExceeded, some c, some e)) := by
  unfold Constraint.unmet
  cases d.bounds.isBelow n <;> cases d.bounds.isAbove n <;> simp

theorem unmetBy_of_demand? {c : Constraint} {d : Demand} (h : c.demand? = .ok (some d))
    (votes : Demand → List (Option Bool)) :
    c.unmetBy e votes = c.unmet e d ((votes d).count (some true)) := by
  unfold Constraint.unmetBy
  rw [h]
  rfl

/-- What a constraint leaves unmet is decided by the sides on which the votes fall. -/
theorem unmetBy_congr {c : Constraint} {votes votes' : Demand → List (Option Bool)}
    (h : ∀ d, c.demand? = .ok (some d) →
      d.bounds.isBelow ((votes d).count (some true)) =
        d.bounds.isBelow ((votes' d).count (some true)) ∧
      d.bounds.isAbove ((votes d).count (some true)) =
        d.bounds.isAbove ((votes' d).count (some true))) :
    c.unmetBy e votes = c.unmetBy e votes' := by
  cases hd : c.demand? with
  | error err =>
    unfold Constraint.unmetBy
    rw [hd]
    rfl
  | ok demand? =>
    cases demand? with
    | none =>
      unfold Constraint.unmetBy
      rw [hd]
      rfl
    | some d =>
      obtain ⟨hbelow, habove⟩ := h d hd
      rw [unmetBy_of_demand? hd, unmetBy_of_demand? hd]
      unfold Constraint.unmet
      rw [hbelow, habove]

/-- What a constraint leaves unmet names the constraint. -/
theorem constraint_of_mem_unmetBy {c : Constraint} {votes : Demand → List (Option Bool)}
    {x : Violation.Kind × Option Constraint × Option Entity} (h : x ∈ c.unmetBy e votes) :
    x.2.1 = some c := by
  unfold Constraint.unmetBy at h
  cases hd : c.demand?.toOption.join with
  | none =>
    rw [hd] at h
    cases h
  | some d =>
    rw [hd] at h
    rcases mem_unmet_iff.mp h with ⟨-, rfl⟩ | ⟨-, rfl⟩
    · rfl
    · rfl

theorem inverses_settle {σ : Store} (hstore : r.provider? = some σ.provider)
    (hproceed : r.proceed = .ok ()) (type : String) :
    Settles (do
        gather (r.checkInverse · e) (← lift .schema (r.schema.inverseConstraintsFor type true)))
      Violation.substance
      ((∃ err, r.schema.inverseConstraintsFor type true = .error err) ∨
        ∃ c ∈ r.schema.inversesOf type, (∃ err, c.demand? = .error err) ∨
          ∃ d, c.demand? = .ok (some d) ∧
            d.bounds.Stalls (σ.votes r.schema r.settings.context e d))
      ((r.schema.inversesOf type).flatMap
        (Constraint.unmetBy · e (σ.votes r.schema r.settings.context e))) := by
  unfold Schema.inversesOf
  cases r.schema.inverseConstraintsFor type true with
  | error err => exact Or.inl ⟨Or.inl ⟨err, rfl⟩, _, rfl⟩
  | ok cs =>
    simp only [reduceCtorEq, exists_false, false_or]
    exact gather_settles fun c _ => checkInverse_settles hstore hproceed c e

/-- What a validation gives by what the types give on their own and by the votes. -/
def Schema.gives (s : Schema) (strict : Bool) (e : Entity)
    (own : String → List (Violation.Kind × Option Constraint × Option Entity))
    (votes : Demand → List (Option Bool)) :
    List (Violation.Kind × Option Constraint × Option Entity) :=
  if e.types.isEmpty then []
  else (if strict then Violation.undeclared s e else []).map Violation.substance ++
    e.types.flatMap fun type => own type ++ (s.inversesOf type).flatMap (·.unmetBy e votes)

/-- A failure at a type is one that no referrer has a part in, or a count that stalls. -/
theorem blocked_or_stalls_iff {votes : Demand → List (Option Bool)} :
    (∃ type ∈ e.types, (∃ err, r.ownFindings e type = .error err) ∨
      (∃ err, r.schema.inverseConstraintsFor type true = .error err) ∨
        ∃ c ∈ r.schema.inversesOf type, (∃ err, c.demand? = .error err) ∨
          ∃ d, c.demand? = .ok (some d) ∧ d.bounds.Stalls (votes d)) ↔
      r.Blocked e ∨ r.schema.Stalls e votes := by
  constructor
  · rintro ⟨type, htype, herr | herr | ⟨c, hc, herr | ⟨d, hd, hst⟩⟩⟩
    · exact Or.inl ⟨type, htype, Or.inl herr⟩
    · exact Or.inl ⟨type, htype, Or.inr (Or.inl herr)⟩
    · exact Or.inl ⟨type, htype, Or.inr (Or.inr ⟨c, hc, herr⟩)⟩
    · exact Or.inr ⟨c, d, ⟨⟨type, htype, hc⟩, hd⟩, hst⟩
  · rintro (⟨type, htype, herr | herr | ⟨c, hc, herr⟩⟩ | ⟨c, d, ⟨⟨type, htype, hc⟩, hd⟩, hst⟩)
    · exact ⟨type, htype, Or.inl herr⟩
    · exact ⟨type, htype, Or.inr (Or.inl herr)⟩
    · exact ⟨type, htype, Or.inr (Or.inr ⟨c, hc, Or.inl herr⟩)⟩
    · exact ⟨type, htype, Or.inr (Or.inr ⟨c, hc, Or.inr ⟨d, hd, hst⟩⟩)⟩

/-- **What holding an entity and its referrers against the schema gives.** -/
theorem checkEntity_settles {σ : Store} (hrelated : r.settings.related = true)
    (hstore : r.provider? = some σ.provider) (hproceed : r.proceed = .ok ())
    {own : String → List (Violation.Kind × Option Constraint × Option Entity)}
    (hown : ∀ type ∈ e.types, Settles (r.ownFindings e type) Violation.substance
      (∃ err, r.ownFindings e type = .error err) (own type)) :
    Settles (r.checkEntity e) Violation.substance
      (r.Blocked e ∨ r.schema.Stalls e (σ.votes r.schema r.settings.context e))
      (r.schema.gives r.settings.strict e own (σ.votes r.schema r.settings.context e)) := by
  unfold Run.checkEntity Schema.gives
  by_cases hnil : e.types.isEmpty = true
  · rw [if_pos hnil, if_pos hnil]
    have htypes : ∀ type, type ∉ e.types := by
      rw [List.isEmpty_iff.mp hnil]
      exact fun type => List.not_mem_nil
    refine Or.inr ⟨?_, [], rfl, rfl⟩
    rintro (⟨type, htype, -⟩ | ⟨c, d, ⟨⟨type, htype, -⟩, -⟩, -⟩)
    · exact htypes type htype
    · exact htypes type htype
  · rw [if_neg hnil, if_neg hnil]
    have htypes : Settles (gather (r.checkType e) e.types) Violation.substance _ _ :=
      gather_settles fun type htype => by
        rw [checkType_related hrelated]
        exact (hown type htype).append (inverses_settle hstore hproceed type)
    have hundeclared : Settles (.ok (if r.settings.strict then Violation.undeclared r.schema e
        else []) : Except ValidationError (List Violation)) Violation.substance False _ :=
      Or.inr ⟨id, _, rfl, rfl⟩
    refine (hundeclared.append htypes).congr ?_
    rw [false_or]
    exact blocked_or_stalls_iff

end Entities

/-! ## Two runs -/

section TwoRuns

variable {r r' : Run (Except ValidationError)} {e : Entity}

theorem blocked_iff (hschema : r'.schema = r.schema)
    (hown : ∀ type ∈ e.types,
      Alike Violation.substance (r.ownFindings e type) (r'.ownFindings e type)) :
    r.Blocked e ↔ r'.Blocked e := by
  unfold Run.Blocked
  rw [hschema]
  refine exists_congr fun type => and_congr_right fun htype => ?_
  rw [(hown type htype).error_iff]

/-- What is given about the referrers for a demand is what the votes leave unmet of it. -/
theorem mem_gives_iff {s : Schema} {strict : Bool}
    {own : String → List (Violation.Kind × Option Constraint × Option Entity)}
    (hown : ∀ type ∈ e.types, ∀ x ∈ own type, ¬ x.1.IsInverse)
    {votes : Demand → List (Option Bool)} {c : Constraint} {d : Demand} (hd : s.Demands e c d)
    {k : Violation.Kind} (hk : k.IsInverse) :
    (k, some c, some e) ∈ s.gives strict e own votes ↔
      (k, some c, some e) ∈ c.unmet e d ((votes d).count (some true)) := by
  obtain ⟨⟨type, htype, hc⟩, hd⟩ := hd
  have hself : c.unmetBy e votes = c.unmet e d ((votes d).count (some true)) :=
    unmetBy_of_demand? hd votes
  unfold Schema.gives
  rw [if_neg (by rw [List.isEmpty_iff]; exact List.ne_nil_of_mem htype), List.mem_append,
    List.mem_flatMap]
  constructor
  · rintro (hmem | ⟨type', htype', hmem⟩)
    · obtain ⟨v, hv, heq⟩ := List.mem_map.mp hmem
      split at hv
      · obtain ⟨hnone, -, -⟩ := names_of_mem_undeclared hv
        rw [show v.constraint = some c from congrArg (·.2.1) heq] at hnone
        cases hnone
      · cases hv
    · rcases List.mem_append.mp hmem with hmem | hmem
      · exact absurd hk (hown type' htype' _ hmem)
      · obtain ⟨c', -, hmem⟩ := List.mem_flatMap.mp hmem
        obtain rfl := Option.some.inj (constraint_of_mem_unmetBy hmem)
        rwa [hself] at hmem
  · intro hmem
    refine Or.inr ⟨type, htype, List.mem_append.mpr (Or.inr (List.mem_flatMap.mpr ⟨c, hc, ?_⟩))⟩
    rwa [hself]

/-- The same is given by two polls exactly if they fall on the same side of every demand. -/
theorem gives_eq_iff {s : Schema} {strict : Bool}
    {own : String → List (Violation.Kind × Option Constraint × Option Entity)}
    (hown : ∀ type ∈ e.types, ∀ x ∈ own type, ¬ x.1.IsInverse)
    {votes votes' : Demand → List (Option Bool)} :
    s.gives strict e own votes = s.gives strict e own votes' ↔
      ∀ c d, s.Demands e c d →
        d.bounds.isBelow ((votes d).count (some true)) =
          d.bounds.isBelow ((votes' d).count (some true)) ∧
        d.bounds.isAbove ((votes d).count (some true)) =
          d.bounds.isAbove ((votes' d).count (some true)) := by
  constructor
  · intro heq c d hd
    have hmem : ∀ {k : Violation.Kind}, k.IsInverse →
        ((k, some c, some e) ∈ c.unmet e d ((votes d).count (some true)) ↔
          (k, some c, some e) ∈ c.unmet e d ((votes' d).count (some true))) := by
      intro k hk
      rw [← mem_gives_iff hown hd hk, ← mem_gives_iff hown hd hk, heq]
    have hbelow := hmem (k := .minInverseReferenceOccurrenceNotMet) (Or.inl rfl)
    have habove := hmem (k := .maxInverseReferenceOccurrenceExceeded) (Or.inr rfl)
    simp only [mem_unmet_iff, reduceCtorEq, Prod.mk.injEq, and_false, or_false,
      false_or, and_true] at hbelow habove
    exact ⟨Bool.eq_iff_iff.mpr hbelow, Bool.eq_iff_iff.mpr habove⟩
  · intro h
    have hunmet : ∀ type ∈ e.types, (s.inversesOf type).flatMap (·.unmetBy e votes) =
        (s.inversesOf type).flatMap (·.unmetBy e votes') := by
      intro type htype
      exact List.flatMap_congr fun c hc =>
        unmetBy_congr fun d hd => h c d ⟨⟨type, htype, hc⟩, hd⟩
    unfold Schema.gives
    split
    · rfl
    · exact congrArg _ (List.flatMap_congr fun type htype => by rw [hunmet type htype])

/-- **Two validations that differ in what referrers vote for are alike exactly if the votes fall on
the same side of every demand**, unless both are blocked anyway. -/
theorem checkEntity_alike_iff {σ σ' : Store} (hschema : r'.schema = r.schema)
    (hstrict : r'.settings.strict = r.settings.strict)
    (hrelated : r.settings.related = true) (hrelated' : r'.settings.related = true)
    (hstore : r.provider? = some σ.provider) (hstore' : r'.provider? = some σ'.provider)
    (hproceed : r.proceed = .ok ()) (hproceed' : r'.proceed = .ok ())
    (hown : ∀ type ∈ e.types,
      Alike Violation.substance (r.ownFindings e type) (r'.ownFindings e type)) :
    Alike Violation.substance (r.checkEntity e) (r'.checkEntity e) ↔
      r.Blocked e ∨ r.schema.SameSides e (σ.votes r.schema r.settings.context e)
        (σ'.votes r.schema r'.settings.context e) := by
  let own : String → List (Violation.Kind × Option Constraint × Option Entity) := fun type =>
    (r.ownFindings e type).toOption.elim [] (List.map Violation.substance)
  have hkinds : ∀ type ∈ e.types, ∀ x ∈ own type, ¬ x.1.IsInverse := by
    intro type _ x hx
    simp only [own] at hx
    cases hout : r.ownFindings e type with
    | error err => rw [hout] at hx; cases hx
    | ok vs =>
      rw [hout] at hx
      obtain ⟨v, hv, rfl⟩ := List.mem_map.mp hx
      exact not_isInverse_of_mem_ownFindings hout hv
  have hself : ∀ type ∈ e.types, Settles (r.ownFindings e type) Violation.substance
      (∃ err, r.ownFindings e type = .error err) (own type) :=
    fun type _ => settles_self (r.ownFindings e type) Violation.substance
  have hself' : ∀ type ∈ e.types, Settles (r'.ownFindings e type) Violation.substance
      (∃ err, r'.ownFindings e type = .error err) (own type) :=
    fun type htype => ((hown type htype).settles (hself type htype)).congr
      (hown type htype).error_iff
  have hsettles := checkEntity_settles hrelated hstore hproceed hself
  have hsettles' := checkEntity_settles hrelated' hstore' hproceed' hself'
  rw [hschema, hstrict] at hsettles'
  rw [alike_iff_of_settles hsettles hsettles', ← blocked_iff hschema hown, gives_eq_iff hkinds]
  unfold Schema.SameSides
  by_cases hb : r.Blocked e
  · simp [hb]
  · simp [hb]

end TwoRuns

end EntityGraph
