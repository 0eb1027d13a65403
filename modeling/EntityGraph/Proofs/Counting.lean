import EntityGraph.Proofs.DatasetContext
import EntityGraph.Proofs.Occurrence
import EntityGraph.Proofs.Reports

/-!
# Counting all referrers

The check of how many entities refer to one stops at the first referrer too many, and does not ask
at all if any number will do. Neither shows: where every referrer can be decided on, the findings
are those of a check that looks at all of them, in whatever order the data provider delivers them.

Results:
* `countReferrers_of_counts`: the count is the full one, or both are above the bounds.
* `checkInverse_eq_fully`: the check finds what a check without shortcuts finds.
* `checkInverse_counts_all`: of a store, that is what the number of distinct identifiers with a
  record that refers to the entity says, of those that count.
-/

namespace EntityGraph

/-! ## The referrers of a store -/

namespace Store

/-- A data provider that answers as the store does, but may deliver the referrers of an entity in an
order of its own. -/
structure AnsweredBy (σ : Store) (p : Provider (Except ValidationError)) : Prop where
  getEntity : ∀ id, p.getEntity id = .ok (.ok (σ.stored? id))
  hop : ∀ target predicate, ∃ arrivals : List Entity,
    p.hop target predicate true none = .ok (.ok (arrivals.map .ok)) ∧
      arrivals.Perm (σ.hop target predicate true none)

theorem answeredBy_provider (σ : Store) : σ.AnsweredBy σ.provider :=
  ⟨fun _ => rfl, fun target predicate => ⟨σ.hop target predicate true none, rfl, .refl _⟩⟩

/-- The store as a data provider that delivers the last entity first. -/
def backwards (σ : Store) : Provider (Except ValidationError) :=
  { σ.provider with
    hop source predicate inverse limit :=
      .ok (.ok ((σ.hop source predicate inverse limit).reverse.map .ok)) }

theorem answeredBy_backwards (σ : Store) : σ.AnsweredBy σ.backwards :=
  ⟨fun _ => rfl, fun target predicate =>
    ⟨(σ.hop target predicate true none).reverse, rfl, List.reverse_perm _⟩⟩

end Store

/-! ## Asking another provider -/

/-- The run that asks another data provider. -/
def Run.through (r : Run (Except ValidationError)) (p : Provider (Except ValidationError)) :
    Run (Except ValidationError) :=
  { r with provider? := some p }

/-- The validator that asks another data provider. -/
def Validator.through (v : Validator (Except ValidationError))
    (p : Provider (Except ValidationError)) : Validator (Except ValidationError) :=
  { v with provider? := some p }

section Providers

variable {σ : Store} {r : Run (Except ValidationError)} {p : Provider (Except ValidationError)}

theorem isInstance_through (cls : String) (types : List String) :
    (r.through p).isInstance cls types = r.isInstance cls types := by
  induction types with
  | nil => rfl
  | cons type types ih =>
    unfold Run.isInstance
    rw [ih]
    rfl

/-- Whether a referrer counts does not depend on who delivers it. -/
theorem counts_through (hstore : r.provider? = some σ.provider) (hp : σ.AnsweredBy p)
    (owner : String) (referrer : Entity) :
    (r.through p).counts owner referrer = r.counts owner referrer := by
  have hstored : ∀ id, (r.through p).stored? id = r.stored? id := by
    intro id
    unfold Run.stored? Run.provider Run.through
    simp only [hstore, pure_bind, hp.getEntity]
    rfl
  unfold Run.counts
  simp only [isInstance_through, hstored]
  rfl

/-- The run of a validator that asks another provider is its run asking that provider. -/
theorem start_through {v : Validator (Except ValidationError)} {s : Schema}
    {context : List String} (h : (v.asking σ context).start s = .ok r) :
    ((v.asking σ context).through p).start s = .ok (r.through p) := by
  have hstart : (v.asking σ context).start s = (do
      let started ← v.signals.now
      (v.askingRun s σ context started).proceed
      return v.askingRun s σ context started) := rfl
  have hthrough : ((v.asking σ context).through p).start s = (do
      let started ← v.signals.now
      (v.askingRun s σ context started).proceed
      return (v.askingRun s σ context started).through p) := rfl
  rw [hstart] at h
  obtain ⟨started, hnow, h⟩ := bind_eq_ok_iff.mp h
  obtain ⟨⟨⟩, hproceed, h⟩ := bind_eq_ok_iff.mp h
  obtain rfl := Except.ok.inj h
  rw [hthrough, hnow, ok_bind, hproceed]
  rfl

end Providers

/-! ## The count -/

namespace Run

variable {r : Run (Except ValidationError)} {c : Constraint} {e : Entity}

/-- The number of all referrers that count. -/
def countAll (r : Run (Except ValidationError)) (owner : String) :
    EntityStream → Except ValidationError Nat
  | [] => return 0
  | arrival :: rest => do
    let referrer ← lift .provider arrival
    let counted ← r.counts owner referrer
    return (if counted then 1 else 0) + (← r.countAll owner rest)

/-- Holds the number of all entities that refer to an entity against the bounds of a constraint,
whatever the bounds are. -/
def checkInverseFully (r : Run (Except ValidationError)) (c : Constraint) (e : Entity) :
    Except ValidationError (List Violation) := do
  let predicate ← lift .schema c.referenceClass
  let bounds ← lift .schema c.inverseCardinality
  let owner ← lift .schema c.entityClass
  r.proceed
  let count ← r.countAll owner (← r.referrers e.id predicate none)
  return inverseFindings c e ⟨predicate, bounds, owner⟩ count

theorem countAll_of_counts {owner : String} {decided : Entity → Bool} {referrers : List Entity}
    (h : ∀ x ∈ referrers, r.counts owner x = .ok (decided x)) :
    r.countAll owner (referrers.map .ok) = .ok (referrers.countP decided) := by
  induction referrers with
  | nil => rfl
  | cons x xs ih =>
    obtain ⟨hx, hxs⟩ := List.forall_mem_cons.mp h
    unfold countAll
    rw [List.map_cons]
    simp only [lift_ok, ok_bind, hx, ih hxs]
    rw [List.countP_cons, Nat.add_comm]
    rfl

/-- **The count is the full one, or both are above the bounds.** -/
theorem countReferrers_of_counts {owner : String} {decided : Entity → Bool}
    {referrers : List Entity} (h : ∀ x ∈ referrers, r.counts owner x = .ok (decided x))
    (bounds : Cardinality) (count : Nat) :
    ∃ n, r.countReferrers owner bounds (referrers.map .ok) count = .ok n ∧
      n ≤ count + referrers.countP decided ∧
      (n = count + referrers.countP decided ∨ bounds.isAbove n = true) := by
  induction referrers generalizing count with
  | nil => exact ⟨count, rfl, Nat.le_refl _, Or.inl rfl⟩
  | cons x xs ih =>
    obtain ⟨hx, hxs⟩ := List.forall_mem_cons.mp h
    have hnext : count + (x :: xs).countP decided =
        (if decided x then count + 1 else count) + xs.countP decided := by
      rw [List.countP_cons]
      split <;> omega
    rw [hnext, List.map_cons]
    unfold countReferrers
    rw [lift_ok, ok_bind, hx, ok_bind]
    set next := if decided x then count + 1 else count
    by_cases habove : bounds.isAbove next = true
    · -- The bounds are passed, and whoever comes after is not looked at.
      rw [if_pos habove]
      exact ⟨next, rfl, Nat.le_add_right _ _, Or.inr habove⟩
    · rw [if_neg habove]
      exact ih hxs next

/-- Any number of referrers will do for the bounds that bound nothing. -/
theorem inverseFindings_any (predicate owner : String) (n : Nat) :
    inverseFindings c e ⟨predicate, .any, owner⟩ n = [] := by
  simp [inverseFindings, Cardinality.any, Cardinality.isBelow, Cardinality.isAbove]

/-- Counts above bounds that fit together are reported alike. -/
theorem inverseFindings_of_isAbove {d : Demand} (hb : ∀ m ∈ d.bounds.max, d.bounds.min ≤ m)
    {n m : Nat} (hn : d.bounds.isAbove n = true) (hm : d.bounds.isAbove m = true) :
    inverseFindings c e d n = inverseFindings c e d m := by
  obtain ⟨most, hmost, -⟩ := Cardinality.isAbove_iff.mp hn
  unfold inverseFindings
  rw [Cardinality.isBelow_of_isAbove hb hn, Cardinality.isBelow_of_isAbove hb hm, hn, hm,
    Option.mem_def.mp hmost]
  rfl

/-- A count is not below bounds that fit together and above them. -/
theorem length_inverseFindings_le_one {d : Demand} (hb : ∀ m ∈ d.bounds.max, d.bounds.min ≤ m)
    (n : Nat) : (inverseFindings c e d n).length ≤ 1 := by
  unfold inverseFindings
  by_cases habove : d.bounds.isAbove n = true
  · rw [Cardinality.isBelow_of_isAbove hb habove, habove]
    exact Nat.le_refl _
  · rw [Bool.eq_false_iff.mpr habove]
    cases d.bounds.isBelow n with
    | true => exact Nat.le_refl _
    | false => exact Nat.zero_le _

/-- **The check finds what a check without shortcuts finds**: what the number of all referrers that
count leaves unmet. -/
theorem checkInverse_eq_fully {predicate owner : String} {bounds : Cardinality}
    (hpredicate : c.referenceClass = .ok predicate) (hbounds : c.inverseCardinality = .ok bounds)
    (howner : c.entityClass = .ok owner) (hproceed : r.proceed = .ok ())
    {arrivals : List Entity}
    (hreferrers : r.referrers e.id predicate none = .ok (arrivals.map .ok))
    {decided : Entity → Bool} (h : ∀ x ∈ arrivals, r.counts owner x = .ok (decided x)) :
    r.checkInverse c e =
        .ok (inverseFindings c e ⟨predicate, bounds, owner⟩ (arrivals.countP decided)) ∧
      r.checkInverseFully c e =
        .ok (inverseFindings c e ⟨predicate, bounds, owner⟩ (arrivals.countP decided)) := by
  constructor
  · unfold checkInverse
    simp only [hpredicate, hbounds, lift_ok, ok_bind]
    by_cases hany : bounds = .any
    · rw [if_pos hany, hany, inverseFindings_any]
      rfl
    · rw [if_neg hany]
      simp only [howner, lift_ok, ok_bind, hproceed, hreferrers]
      have hfit := Cardinality.min_le_of_ofDeclared hbounds
      obtain ⟨n, hn, hle, hcases⟩ := countReferrers_of_counts h bounds 0
      rw [Nat.zero_add] at hle hcases
      rw [hn, ok_bind]
      -- The text of a finding tells the count only if it is the full one.
      have hfound : inverseFindings c e ⟨predicate, bounds, owner⟩ n =
          inverseFindings c e ⟨predicate, bounds, owner⟩ (arrivals.countP decided) := by
        rcases hcases with rfl | habove
        · rfl
        · exact inverseFindings_of_isAbove hfit habove (Cardinality.isAbove_mono hle habove)
      rw [← hfound]
      rfl
  · unfold checkInverseFully
    simp only [hpredicate, hbounds, howner, lift_ok, ok_bind, hproceed, hreferrers,
      countAll_of_counts h]
    rfl

end Run

/-! ## The referrers that count -/

section Counted

variable {σ : Store} {r : Run (Except ValidationError)} {owner predicate target : String}

namespace Run

/-- Of each identifier that refers to a target it can be decided whether it counts. -/
def Decides (r : Run (Except ValidationError)) (σ : Store) (owner predicate target : String) :
    Prop :=
  ∀ id stored, σ.Refers id predicate target → σ.stored? id = some stored →
    ∃ b, r.counts owner stored.merged = .ok b

/-- Whether a referrer is found to count. -/
def deems (r : Run (Except ValidationError)) (owner : String) (referrer : Entity) : Bool :=
  decide ((r.counts owner referrer).toOption = some true)

/-- The identifiers that refer to a target and count, as the store lists them. -/
def counted (r : Run (Except ValidationError)) (σ : Store) (owner predicate target : String) :
    List String :=
  ((σ.hop target predicate true none).filter (r.deems owner)).map Entity.id

end Run

theorem Run.Decides.counts_eq (h : r.Decides σ owner predicate target) (hσ : σ.Reachable) :
    ∀ x ∈ σ.hop target predicate true none, r.counts owner x = .ok (r.deems owner x) := by
  intro x hx
  obtain ⟨id, stored, hid, hstored, rfl⟩ := hσ.mem_hop_iff.mp hx
  obtain ⟨b, hb⟩ := h id stored hid hstored
  simp only [Run.deems, hb, Except.toOption, Option.some.injEq, Bool.decide_eq_true]

theorem nodup_counted (hσ : σ.Reachable) (r : Run (Except ValidationError))
    (owner predicate target : String) : (r.counted σ owner predicate target).Nodup := by
  refine List.Nodup.sublist (List.filter_sublist.map Entity.id) ?_
  rw [hσ.map_id_hop]
  exact Store.nodup_neighbours _ _ _

/-- The identifiers that count are those that refer to the target and whose entity is accepted. -/
theorem Run.Decides.mem_counted_iff (h : r.Decides σ owner predicate target) (hσ : σ.Reachable)
    {id : String} : id ∈ r.counted σ owner predicate target ↔ σ.Refers id predicate target ∧
      ∃ stored, σ.stored? id = some stored ∧ r.counts owner stored.merged = .ok true := by
  unfold Run.counted
  rw [List.mem_map]
  simp only [List.mem_filter]
  constructor
  · rintro ⟨x, ⟨hx, hdeemed⟩, rfl⟩
    obtain ⟨id, stored, hid, hstored, rfl⟩ := hσ.mem_hop_iff.mp hx
    rw [StoredEntity.id_merged, Store.id_of_stored? hstored]
    exact ⟨hid, stored, hstored, by rw [h.counts_eq hσ _ hx, hdeemed]⟩
  · rintro ⟨hid, stored, hstored, htrue⟩
    have hx : stored.merged ∈ σ.hop target predicate true none :=
      hσ.mem_hop_iff.mpr ⟨id, stored, hid, hstored, rfl⟩
    have hdeemed : r.deems owner stored.merged = true :=
      Except.ok.inj ((h.counts_eq hσ _ hx).symm.trans htrue)
    exact ⟨stored.merged, ⟨hx, hdeemed⟩, Store.id_of_stored? hstored⟩

/-- Whoever delivers the referrers, as many of them count. -/
theorem countP_deems {arrivals : List Entity}
    (h : arrivals.Perm (σ.hop target predicate true none)) :
    arrivals.countP (r.deems owner) = (r.counted σ owner predicate target).length := by
  unfold Run.counted
  rw [h.countP_eq, List.countP_eq_length_filter, List.length_map]

end Counted

/-- **The bounds on referrers are held against the number of all that count.** A validator asks a
store, or any data provider that answers alike; a constraint names its predicate and its class and
declares bounds that fit together; and of each identifier that refers to an entity it can be decided
whether it counts. Then there is a list without repetition of all identifiers that refer to the
entity and count. One violation is found exactly if the list is shorter than the lower bound and
one exactly if it is longer than the upper one, and never both; and a validation reports, for that
constraint, what is found as often as the constraint is reached through the types of the entity. -/
theorem checkInverse_counts_all {σ : Store} (hσ : σ.Reachable)
    {v : Validator (Except ValidationError)} {context : List String} {s : Schema}
    {r : Run (Except ValidationError)} (hstart : (v.asking σ context).start s = .ok r)
    {c : Constraint} {e : Entity} {predicate owner : String}
    (hpredicate : c.referenceClass = .ok predicate) (howner : c.entityClass = .ok owner)
    (hbounds : ¬ c.BadBounds Vocabulary.inverseMinCard Vocabulary.inverseMaxCard)
    (hdecides : r.Decides σ owner predicate (s.namespaces.canonical e.id)) :
    ∃ (counted : List String) (found : List Violation),
      counted.Nodup ∧
      (∀ id, id ∈ counted ↔ σ.Refers id predicate (s.namespaces.canonical e.id) ∧
        ∃ stored, σ.stored? id = some stored ∧ r.counts owner stored.merged = .ok true) ∧
      found.map Violation.substance =
        (if (counted.length : Int) < c.leastAt Vocabulary.inverseMinCard then
          [(.minInverseReferenceOccurrenceNotMet, some c, some e)] else []) ++
        (if c.greatestAt Vocabulary.inverseMaxCard ≠ -1 ∧
            c.greatestAt Vocabulary.inverseMaxCard < (counted.length : Int) then
          [(.maxInverseReferenceOccurrenceExceeded, some c, some e)] else []) ∧
      found.length ≤ 1 ∧
      ∀ p, σ.AnsweredBy p →
        (r.through p).checkInverse c e = .ok found ∧
        (r.through p).checkInverseFully c e = .ok found ∧
        ∀ vs, ((v.asking σ context).through p).validateEntity s e = .ok vs →
          Violation.inverseFor c vs =
            (List.replicate ((e.types.flatMap s.inversesOf).count c) found).flatten := by
  obtain ⟨hschema, hsettings, hstore, -, hproceed⟩ := Validator.started_of_start hstart
  obtain ⟨hbad, -⟩ | ⟨-, bounds, hread, hbelow, habove⟩ :=
    c.bounds_cases Vocabulary.inverseMinCard Vocabulary.inverseMaxCard
  · exact absurd hbad hbounds
  have hfit := Cardinality.min_le_of_ofDeclared hread
  let target := s.namespaces.canonical e.id
  refine ⟨r.counted σ owner predicate target,
    Run.inverseFindings c e ⟨predicate, bounds, owner⟩ (r.counted σ owner predicate target).length,
    nodup_counted hσ r _ _ _, fun id => hdecides.mem_counted_iff hσ, ?_,
    Run.length_inverseFindings_le_one hfit _, fun p hp => ?_⟩
  · rw [substance_inverseFindings rfl rfl]
    unfold Constraint.unmet
    simp only [hbelow, habove, decide_eq_true_eq]
  · obtain ⟨arrivals, hhop, hperm⟩ := hp.hop target predicate
    have hreferrers : (r.through p).referrers e.id predicate none = .ok (arrivals.map .ok) := by
      unfold Run.referrers Run.provider Run.through
      simp only [hschema, pure_bind]
      rw [hhop, ok_bind, lift_ok]
    have hcounts : ∀ x ∈ arrivals, (r.through p).counts owner x = .ok (r.deems owner x) := by
      intro x hx
      rw [counts_through hstore hp]
      exact hdecides.counts_eq hσ x (hperm.mem_iff.mp hx)
    obtain ⟨hcheck, hfully⟩ := Run.checkInverse_eq_fully (r := r.through p) hpredicate hread howner
      hproceed hreferrers hcounts
    rw [countP_deems hperm] at hcheck hfully
    refine ⟨hcheck, hfully, fun vs hvs => ?_⟩
    obtain ⟨r', hstart', hentity⟩ := Validator.validateEntity_eq_ok_iff.mp hvs
    obtain rfl := Except.ok.inj ((start_through hstart).symm.trans hstart')
    have hrelated : (r.through p).settings.related = true := congrArg Settings.related hsettings
    rw [inverse_of_checkEntity hrelated hentity hcheck, ← hschema]
    rfl

/-- Every `urn:Ship` has exactly one `urn:Captain`. -/
def captainRules : Collection :=
  let (command, _) := SchemaBuilder.empty.startConstraint .reference "urn:Captain"
  ⟨.standard, none, [(((((command.setName Vocabulary.referenceClass "urn:commands").setName
    Vocabulary.referencedEntityClass "urn:Ship").setName
    Vocabulary.inverseReferenceClass "urn:commandedBy").setBound
    Vocabulary.inverseMinCard 1).setBound Vocabulary.inverseMaxCard 1).entity], ∅⟩

/-- The ship. -/
def ark : Entity := Entity.ofType "urn:ark" "urn:Ship"

/-- One who commands the ship. -/
def commander (id type : String) : Entity :=
  (Entity.ofType id type).setReference "urn:commands" (.one "urn:ark")

/-- Two captains command the ship, one of them in two datasets, and a cook. A third captain has
been taken out again. -/
def muster : Store :=
  let σ := Store.empty.put "crew" (commander "urn:noah" "urn:Captain")
  let σ := σ.put "log" (commander "urn:noah" "urn:Captain")
  let σ := σ.put "crew" (commander "urn:shem" "urn:Captain")
  let σ := σ.put "crew" (commander "urn:ham" "urn:Cook")
  let σ := σ.put "crew" (commander "urn:japheth" "urn:Captain")
  (σ.remove "crew" "urn:japheth").2

/-- The schema of captains. -/
def captains : Schema := .ofCollection captainRules

/-- The run that asks who commands the ship. -/
def drill : Run (Except ValidationError) := Validator.plain.askingRun captains muster [] 0

/-- There is one captain too many, also if the cook is asked first. -/
theorem checkInverse_counts_all_ark :
    muster.Reachable ∧ (Validator.plain.asking muster []).start captains = .ok drill ∧
    drill.Decides muster "urn:Captain" "urn:commands" (captains.namespaces.canonical ark.id) ∧
    ∃ c, c.referenceClass = .ok "urn:commands" ∧ c.entityClass = .ok "urn:Captain" ∧
      ¬ c.BadBounds Vocabulary.inverseMinCard Vocabulary.inverseMaxCard ∧
      ∃ (counted : List String) (found vs : List Violation), counted.Nodup ∧
        (∀ id, id ∈ counted ↔
          muster.Refers id "urn:commands" (captains.namespaces.canonical ark.id) ∧
          ∃ stored, muster.stored? id = some stored ∧
            drill.counts "urn:Captain" stored.merged = .ok true) ∧
        drill.checkInverse c ark = .ok found ∧
        (drill.through muster.backwards).checkInverse c ark = .ok found ∧
        (drill.through muster.backwards).checkInverseFully c ark = .ok found ∧
        ((Validator.plain.asking muster []).through muster.backwards).validateEntity captains ark =
          .ok vs ∧
        vs.map Violation.kind = [.maxInverseReferenceOccurrenceExceeded] ∧
        Violation.inverseFor c vs = (List.replicate 1 found).flatten := by
  have hfacts :
      (∀ id ∈ muster.neighbours (captains.namespaces.canonical ark.id) "urn:commands" true,
        ∀ stored ∈ muster.stored? id, (drill.counts "urn:Captain" stored.merged).isOk = true) ∧
      (∃ vs ∈ (((Validator.plain.asking muster []).through muster.backwards).validateEntity
          captains ark).toOption,
        vs.map Violation.kind = [.maxInverseReferenceOccurrenceExceeded]) ∧
      ∃ c ∈ captains.constraints, c.referenceClass = .ok "urn:commands" ∧
        c.entityClass = .ok "urn:Captain" ∧ c.leastAt Vocabulary.inverseMinCard = 1 ∧
        c.greatestAt Vocabulary.inverseMaxCard = 1 ∧
        (ark.types.flatMap captains.inversesOf).count c = 1 := by
    decide +kernel
  obtain ⟨hisOk, ⟨vs, hvs, hkinds⟩, c, -, hpredicate, howner, hleast, hgreatest, hreached⟩ := hfacts
  have hreachable : muster.Reachable :=
    (Store.Reachable.empty.put _ _ |>.put _ _ |>.put _ _ |>.put _ _ |>.put _ _).remove _ _
  have hstart : (Validator.plain.asking muster []).start captains = .ok drill := rfl
  have hdecides : drill.Decides muster "urn:Captain" "urn:commands"
      (captains.namespaces.canonical ark.id) := by
    intro id stored hid hstored
    have hok := hisOk id (hreachable.mem_neighbours_iff.mpr hid) stored hstored
    cases hcounts : drill.counts "urn:Captain" stored.merged with
    | error err =>
      rw [hcounts] at hok
      cases hok
    | ok b => exact ⟨b, rfl⟩
  have hbounds : ¬ c.BadBounds Vocabulary.inverseMinCard Vocabulary.inverseMaxCard := by
    unfold Constraint.BadBounds
    omega
  obtain ⟨counted, found, hnodup, hmem, -, -, hproviders⟩ :=
    checkInverse_counts_all hreachable hstart hpredicate howner hbounds hdecides
  obtain ⟨hself, -, -⟩ := hproviders _ muster.answeredBy_provider
  obtain ⟨hcheck, hfully, hreports⟩ := hproviders _ muster.answeredBy_backwards
  have hvs := eq_ok_of_mem_toOption hvs
  exact ⟨hreachable, hstart, hdecides, c, hpredicate, howner, hbounds, counted, found, vs, hnodup,
    hmem, hself, hcheck, hfully, hvs, hkinds, hreached ▸ hreports vs hvs⟩

end EntityGraph
