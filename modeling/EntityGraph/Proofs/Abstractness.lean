import EntityGraph.Proofs.Footprint
import EntityGraph.Proofs.Neighbours
import EntityGraph.Schema.Builder
import Mathlib.Data.List.Nodup

/-!
# Abstract classes

That a class has no instances of its own is checked twice: of an entity, by the constraints that
its types inherit, and of a store, by asking the index of types for one entity of the class. The
two agree: the look-up of constraints finds the marker of every declared type, and the index of
types is exact after any run of writes.

Results:
* `abstract_mem_checkEntity_iff`: an entity is reported exactly if it declares an abstract class.
* `hop_types_eq_nil_iff`: the store finds no instance of a type exactly if no record declares it.
* `validateStore_agrees`: the store is reported for a class exactly if some record declares it,
  and passes exactly if all its records do.
-/

namespace EntityGraph

/-! ## Constraints against instances -/

namespace Schema

/-- A constraint is about the class that one of the types denotes. -/
def Concerns (s : Schema) (c : Constraint) (types : List String) : Prop :=
  ∃ cls, c.entityClass? = some cls ∧ ∃ type ∈ types, s.namespaces.same type cls = true

variable {col : Collection}

theorem mem_abstractConstraints {s : Schema} {c : Constraint} :
    c ∈ s.abstractConstraints ↔ c ∈ s.constraints ∧ c.kind = .isAbstract := by
  unfold abstractConstraints
  rw [List.mem_filter, beq_iff_eq]

/-- The entries for a class are the constraints that are about it. -/
theorem mem_entriesAt_byClass {id : String} {c : Constraint} :
    c ∈ (ofCollection col).entriesAt (ofCollection col).byClass id ↔
      c ∈ (ofCollection col).constraints ∧ (ofCollection col).Concerns c [id] := by
  have hgroup : (ofCollection col).entriesAt (ofCollection col).byClass id =
      (ofCollection col).constraints.filter fun c =>
        c.entityClass?.map col.namespaces.canonical = some (col.namespaces.canonical id) :=
    OrderedMap.getD_group _ _ _
  unfold Concerns
  rw [hgroup, List.mem_filter, decide_eq_true_eq, Option.map_eq_some_iff]
  simp only [List.mem_singleton, exists_eq_left, Namespaces.same_iff]
  exact and_congr_right fun _ => exists_congr fun cls => and_congr_right fun _ => eq_comm

/-- A class is abstract if a constraint against instances is about it. -/
theorem isAbstract_iff {id : String} : (ofCollection col).isAbstract id = true ↔
    ∃ c ∈ (ofCollection col).abstractConstraints, (ofCollection col).Concerns c [id] := by
  unfold isAbstract
  rw [List.any_eq_true]
  refine exists_congr fun c => ?_
  rw [mem_entriesAt_byClass, mem_abstractConstraints, beq_iff_eq]
  exact and_right_comm

/-- The constraints looked up for a type include those that are about the type itself. -/
theorem mem_constraintsFor_of_concerns {type : String} {c : Constraint} {cs : List Constraint}
    (hc : c ∈ (ofCollection col).constraints) (hclass : (ofCollection col).Concerns c [type])
    (hcs : (ofCollection col).constraintsFor type true = .ok cs) : c ∈ cs := by
  have hentry := mem_entriesAt_byClass.mpr ⟨hc, hclass⟩
  unfold constraintsFor entriesFor at hcs
  split at hcs
  · obtain ⟨chain, -, rfl⟩ := map_eq_ok_iff.mp hcs
    rw [List.flatMap_cons]
    exact List.mem_append_left _ hentry
  · obtain rfl := Except.ok.inj hcs
    exact hentry

end Schema

/-! ## Of an entity -/

section

variable {r : Run (Except ValidationError)} {c : Constraint} {e : Entity} {vs : List Violation}
  {v : Violation}

/-- Only a constraint against instances finds that a class is abstract. -/
theorem kind_eq_isAbstract {k : Constraint.Kind}
    (h : Violation.Kind.abstractEntityClassViolation ∈ k.findable) : k = .isAbstract := by
  cases k with
  | isAbstract => rfl
  | property => exact absurd h (by decide)
  | reference => exact absurd h (by decide)
  | application => exact absurd h (by decide)

/-- A constraint against instances finds something exactly if it is about a declared type. -/
theorem checkAbstract_eq_ok (h : r.checkAbstract c e = .ok vs) :
    vs ≠ [] ↔ r.schema.Concerns c e.types := by
  unfold Run.checkAbstract Constraint.entityClass at h
  unfold Schema.Concerns
  cases hcls : c.entityClass? with
  | none =>
    rw [hcls] at h
    cases h
  | some cls =>
    rw [hcls] at h
    simp only [lift_ok, ok_bind] at h
    simp only [Option.some.injEq, exists_eq_left', ← List.any_eq_true]
    split at h
    · rename_i hany
      obtain rfl := Except.ok.inj h
      exact iff_of_true (List.cons_ne_nil _ _) hany
    · rename_i hany
      obtain rfl := Except.ok.inj h
      exact iff_of_false (fun hne => hne rfl) hany

/-- What is found at one type about an abstract class was found by a constraint that is about a
declared type. -/
theorem concerns_of_mem_checkType {col : Collection} (hschema : r.schema = .ofCollection col)
    {type : String} (htype : type ∈ e.types) (h : r.checkType e type = .ok vs) (hv : v ∈ vs)
    (hkind : v.kind = .abstractEntityClassViolation) :
    ∃ c ∈ r.schema.abstractConstraints, r.schema.Concerns c e.types := by
  obtain ⟨cs, own, inverse, hcs, hown, rfl, hinverse⟩ := exists_of_checkType h
  rcases List.mem_append.mp hv with hv | hv
  · obtain ⟨g, hg, rfl⟩ := gather_eq_ok_iff.mp hown
    obtain ⟨c, hc, hv⟩ := List.mem_flatMap.mp hv
    have hcheck := hg c hc
    have hk : c.kind = .isAbstract :=
      kind_eq_isAbstract (hkind ▸ kind_of_mem_checkConstraint hcheck hv)
    have hmem : c ∈ r.schema.constraints := by
      rw [hschema] at hcs ⊢
      exact Schema.mem_constraints_of_looksUp ⟨type, htype, cs, hc, Or.inl hcs⟩
    unfold Run.checkConstraint at hcheck
    rw [hk] at hcheck
    exact ⟨c, Schema.mem_abstractConstraints.mpr ⟨hmem, hk⟩,
      (checkAbstract_eq_ok hcheck).mp (List.ne_nil_of_mem hv)⟩
  · have hinv := hinverse v hv
    rw [hkind] at hinv
    exact absurd hinv (by decide)

/-- **An entity is reported exactly if it declares an abstract class.** -/
theorem abstract_mem_checkEntity_iff {col : Collection} (hschema : r.schema = .ofCollection col)
    (h : r.checkEntity e = .ok vs) :
    (∃ v ∈ vs, v.kind = .abstractEntityClassViolation) ↔
      ∃ c ∈ r.schema.abstractConstraints, r.schema.Concerns c e.types := by
  obtain ⟨found, hfound, rfl⟩ := exists_of_checkEntity h
  constructor
  · rintro ⟨v, hv, hkind⟩
    rcases List.mem_append.mp hv with hv | hv
    · have hundeclared : v ∈ Violation.undeclared r.schema e := by
        split at hv
        · exact hv
        · cases hv
      unfold Violation.undeclared at hundeclared
      rcases List.mem_append.mp hundeclared with hv | hv
      · obtain ⟨p, -, rfl⟩ := List.mem_map.mp hv
        cases hkind
      · obtain ⟨p, -, rfl⟩ := List.mem_map.mp hv
        cases hkind
    · obtain ⟨type, htype, hv⟩ := List.mem_flatMap.mp hv
      exact concerns_of_mem_checkType hschema htype (hfound type htype) hv hkind
  · rintro ⟨c, hc, cls, hcls, type, htype, hsame⟩
    obtain ⟨hmem, hk⟩ := Schema.mem_abstractConstraints.mp hc
    obtain ⟨cs, own, inverse, hcs, hown, hsplit, -⟩ := exists_of_checkType (hfound type htype)
    obtain ⟨g, hg, rfl⟩ := gather_eq_ok_iff.mp hown
    have hclass : r.schema.Concerns c [type] :=
      ⟨cls, hcls, type, List.mem_singleton.mpr rfl, hsame⟩
    have hlooked : c ∈ cs := by
      rw [hschema] at hmem hclass hcs
      exact Schema.mem_constraintsFor_of_concerns hmem hclass hcs
    have hcheck := hg c hlooked
    have habstract : r.checkAbstract c e = .ok (g c) := by
      unfold Run.checkConstraint at hcheck
      rw [hk] at hcheck
      exact hcheck
    obtain ⟨v, hv⟩ := List.exists_mem_of_ne_nil _
      ((checkAbstract_eq_ok habstract).mpr ⟨cls, hcls, type, htype, hsame⟩)
    refine ⟨v, List.mem_append_right _ (List.mem_flatMap.mpr ⟨type, htype, ?_⟩), ?_⟩
    · rw [hsplit]
      exact List.mem_append_left _ (List.mem_flatMap.mpr ⟨c, hlooked, hv⟩)
    · have hkind := kind_of_mem_checkConstraint hcheck hv
      rw [hk] at hkind
      exact List.mem_singleton.mp hkind

end

/-! ## Of a store -/

namespace Store

variable {σ : Store}

/-- **The store finds no instance of a type exactly if no record declares it**, also when it is
asked for one instance only. -/
theorem hop_types_eq_nil_iff (h : σ.Reachable) (type : String) :
    σ.hop type Vocabulary.rdfType true (some 1) = [] ↔
      ∀ d id e, σ.record? d id = some e → type ∉ e.types := by
  rw [hop_eq_atMost, atMost_some, List.take_eq_nil_iff, ← List.map_eq_nil_iff (f := Entity.id),
    h.map_id_hop, List.eq_nil_iff_forall_not_mem]
  simp only [Nat.one_ne_zero, false_or, h.mem_neighbours_iff]
  constructor
  · exact fun hnone d id e hrec htype => hnone id ⟨d, e, hrec, htype⟩
  · rintro hnone id ⟨d, e, hrec, htype⟩
    exact hnone d id e hrec htype

/-- What all entries of the datasets have, all records have. -/
theorem forall_record_of_entries {P : Entity → Prop}
    (h : ∀ held ∈ σ.datasets.toList, ∀ entry ∈ held.2.toList, P entry.2) :
    ∀ d id e, σ.record? d id = some e → P e := by
  intro d id e hrec
  unfold Store.record? at hrec
  obtain ⟨held, hheld, he⟩ := Option.bind_eq_some_iff.mp hrec
  exact h (d, held) (OrderedMap.mem_toList_of_get? hheld) (id, e)
    (OrderedMap.mem_toList_of_get? he)

end Store

/-- Some record of the store declares the class that a constraint is about. -/
def Schema.Populated (s : Schema) (σ : Store) (c : Constraint) : Prop :=
  ∃ d id e, σ.record? d id = some e ∧ s.Concerns c e.types

section

variable {r : Run (Except ValidationError)} {σ : Store} {c : Constraint}

/-- **One question finds out whether a class has instances of its own.** -/
theorem checkAbstractClass_eq_ok (hσ : σ.Reachable) (hstore : r.provider? = some σ.provider)
    (hproceed : r.proceed = .ok ())
    (htypes : ∀ d id e, σ.record? d id = some e →
      ∀ type ∈ e.types, r.schema.namespaces.canonical type = type)
    (hclass : c.entityClass?.isSome = true) :
    ∃ found, r.checkAbstractClass c = .ok found ∧ (∀ v ∈ found, v.constraint = some c) ∧
      (found.length = 1 ↔ r.schema.Populated σ c) ∧ (found = [] ↔ ¬ r.schema.Populated σ c) := by
  obtain ⟨cls, hcls⟩ := Option.isSome_iff_exists.mp hclass
  have hreferrers : r.referrers cls Vocabulary.rdfType (some 1) =
      .ok ((σ.hop (r.schema.namespaces.canonical cls) Vocabulary.rdfType true
        (some 1)).map .ok) := by
    unfold Run.referrers Run.provider
    rw [hstore]
    rfl
  have hpopulated : σ.hop (r.schema.namespaces.canonical cls) Vocabulary.rdfType true (some 1) = []
      ↔ ¬ r.schema.Populated σ c := by
    rw [Store.hop_types_eq_nil_iff hσ]
    unfold Schema.Populated Schema.Concerns
    rw [hcls]
    simp only [Option.some.injEq, exists_eq_left', not_exists, not_and, Namespaces.same_iff]
    refine forall₃_congr fun d id e => forall_congr' fun hrec => ?_
    constructor
    · intro hnot type htype heq
      rw [htypes d id e hrec type htype] at heq
      exact hnot (heq ▸ htype)
    · intro hnot htype
      exact hnot _ htype (htypes d id e hrec _ htype)
  unfold Run.checkAbstractClass Constraint.entityClass
  rw [hcls]
  simp only [lift_ok, ok_bind, hproceed, hreferrers]
  cases hhop : σ.hop (r.schema.namespaces.canonical cls) Vocabulary.rdfType true (some 1) with
  | nil =>
    have hnot := hpopulated.mp hhop
    exact ⟨[], rfl, fun _ h => (nomatch h), iff_of_false (by decide) hnot, iff_of_true rfl hnot⟩
  | cons e es =>
    have hsome : r.schema.Populated σ c := by
      by_contra hnot
      rw [hpopulated.mpr hnot] at hhop
      cases hhop
    refine ⟨_, rfl, fun v hv => ?_, iff_of_true rfl hsome, ?_⟩
    · rw [List.mem_singleton.mp hv]
    · exact iff_of_false (List.cons_ne_nil _ _) (not_not_intro hsome)

end

/-! ## The two together -/

/-- Of parts that name what they were found for, those that name something with a property are the
parts for what has the property. -/
theorem filter_flatMap_of_names {α β : Type} {found : α → List β} {name : β → Option α}
    {l : List α} (hname : ∀ a ∈ l, ∀ b ∈ found a, name b = some a) (p : α → Bool) :
    ((l.flatMap found).filter fun b => (name b).any p) = (l.filter p).flatMap found := by
  induction l with
  | nil => rfl
  | cons a l ih =>
    have hself : ∀ b ∈ found a, name b = some a := hname a List.mem_cons_self
    have hown : ((found a).filter fun b => (name b).any p) = if p a then found a else [] := by
      split
      · rename_i hp
        rw [List.filter_eq_self]
        intro b hb
        rw [hself b hb]
        exact hp
      · rename_i hp
        rw [List.filter_eq_nil_iff]
        intro b hb
        rw [hself b hb]
        exact hp
    rw [List.flatMap_cons, List.filter_append, hown, List.filter_cons,
      ih fun a' ha' => hname a' (List.mem_cons_of_mem a ha')]
    split
    · rfl
    · rfl

/-- Entities with distinct identifiers define distinct constraints. -/
theorem Schema.nodup_constraints {col : Collection} (h : (col.entities.map Entity.id).Nodup) :
    (ofCollection col).constraints.Nodup := by
  refine (List.Nodup.of_map _ h).filterMap fun e e' c hc hc' => ?_
  have hentity : ∀ {e : Entity}, c ∈ constraint? col.namespaces e → c.entity = e := by
    intro e hc
    unfold constraint? at hc
    split at hc
    · rw [← Option.some.inj hc]
    · cases hc
  exact (hentity hc).symm.trans (hentity hc')

namespace Validator

variable {v w : Validator (Except ValidationError)} {σ : Store} {col : Collection}

/-- The check of a store asks for each abstract class in order. -/
theorem validateStore_of_start {s : Schema} {r : Run (Except ValidationError)}
    (hstart : v.start s = .ok r) (hstore : v.provider? = some σ.provider) :
    v.validateStore s = r.checkStore := by
  unfold validateStore Run.provider
  rw [hstart, ok_bind, (started_of_start hstart).provider?, hstore]
  rfl

/-- An entity that is validated is reported for an abstract class exactly if it declares one. -/
theorem abstract_mem_validateEntity_iff {e : Entity} {vs : List Violation}
    (h : w.validateEntity (.ofCollection col) e = .ok vs) :
    (∃ x ∈ vs, x.kind = .abstractEntityClassViolation) ↔
      ∃ c ∈ (Schema.ofCollection col).abstractConstraints,
        (Schema.ofCollection col).Concerns c e.types := by
  obtain ⟨r, hstart, hcheck⟩ := validateEntity_eq_ok_iff.mp h
  have hschema := (started_of_start hstart).schema
  rw [abstract_mem_checkEntity_iff hschema hcheck, hschema]

/-- **The check of a store and the checks of its records agree about abstract classes.** Where
every abstract class is named, the records declare canonical types and each of them can be
validated, the store is reported exactly once for a constraint against instances whose class some
record declares, and for no other. It passes exactly if no record, validated alone, is reported for
an abstract class, whatever else the validator of the records looks at. -/
theorem validateStore_agrees (hσ : σ.Reachable)
    (hclass : ∀ c ∈ (Schema.ofCollection col).abstractConstraints, c.entityClass?.isSome = true)
    (htypes : ∀ d id e, σ.record? d id = some e →
      ∀ type ∈ e.types, col.namespaces.canonical type = type)
    (hstore : v.provider? = some σ.provider)
    {r : Run (Except ValidationError)} (hstart : v.start (.ofCollection col) = .ok r)
    (hrecords : ∀ d id e, σ.record? d id = some e →
      ∃ vs, w.validateEntity (.ofCollection col) e = .ok vs) :
    ∃ vs, v.validateStore (.ofCollection col) = .ok vs ∧
      (∃ found : Constraint → List Violation,
        vs = (Schema.ofCollection col).abstractConstraints.flatMap found ∧
        ∀ c ∈ (Schema.ofCollection col).abstractConstraints,
          (∀ x ∈ found c, x.constraint = some c) ∧
          ((found c).length = 1 ↔ (Schema.ofCollection col).Populated σ c) ∧
          (found c = [] ↔ ¬ (Schema.ofCollection col).Populated σ c)) ∧
      ((col.entities.map Entity.id).Nodup →
        ∀ c ∈ (Schema.ofCollection col).abstractConstraints,
          (vs.filter fun x => x.constraint = some c).length = 1 ↔
            (Schema.ofCollection col).Populated σ c) ∧
      (vs = [] ↔ ∀ d id e, σ.record? d id = some e →
        ∀ ws, w.validateEntity (.ofCollection col) e = .ok ws →
          ∀ x ∈ ws, x.kind ≠ .abstractEntityClassViolation) := by
  obtain ⟨hschema, -, hprovider, -, hproceed⟩ := started_of_start hstart
  let found : Constraint → List Violation := fun c => (r.checkAbstractClass c).toOption.getD []
  have hfound : ∀ c ∈ (Schema.ofCollection col).abstractConstraints,
      r.checkAbstractClass c = .ok (found c) ∧ (∀ x ∈ found c, x.constraint = some c) ∧
      ((found c).length = 1 ↔ (Schema.ofCollection col).Populated σ c) ∧
      (found c = [] ↔ ¬ (Schema.ofCollection col).Populated σ c) := by
    intro c hc
    obtain ⟨out, hout, hspec⟩ := checkAbstractClass_eq_ok hσ (hprovider.trans hstore) hproceed
      (by rw [hschema]; exact htypes) (hclass c hc)
    have hself : found c = out := by
      simp only [found, hout, Except.toOption, Option.getD_some]
    rw [hself, ← hschema]
    exact ⟨hout, hspec⟩
  have hrun : v.validateStore (.ofCollection col) =
      .ok ((Schema.ofCollection col).abstractConstraints.flatMap found) := by
    rw [validateStore_of_start hstart hstore]
    unfold Run.checkStore
    rw [hschema]
    exact gather_of_forall_ok fun c hc => (hfound c hc).1
  refine ⟨_, hrun, ⟨found, rfl, fun c hc => (hfound c hc).2⟩, fun hids c hc => ?_, ?_⟩
  · have hdistinct : (Schema.ofCollection col).abstractConstraints.Nodup :=
      (Schema.nodup_constraints hids).filter _
    have htest : (fun x : Violation => decide (x.constraint = some c)) =
        fun x => x.constraint.any fun c' => decide (c' = c) := by
      funext x
      cases x.constraint <;> simp
    rw [htest, filter_flatMap_of_names (fun c hc => (hfound c hc).2.1), List.filter_eq,
      List.count_eq_one_of_mem hdistinct hc, List.replicate_one, List.flatMap_singleton]
    exact (hfound c hc).2.2.1
  · rw [List.flatMap_eq_nil_iff]
    constructor
    · intro hnil d id e hrec ws hws x hx hkind
      obtain ⟨c, hc, hconcerns⟩ := (abstract_mem_validateEntity_iff hws).mp ⟨x, hx, hkind⟩
      exact (hfound c hc).2.2.2.mp (hnil c hc) ⟨d, id, e, hrec, hconcerns⟩
    · intro hnone c hc
      refine (hfound c hc).2.2.2.mpr ?_
      rintro ⟨d, id, e, hrec, hconcerns⟩
      obtain ⟨ws, hws⟩ := hrecords d id e hrec
      obtain ⟨x, hx, hkind⟩ := (abstract_mem_validateEntity_iff hws).mpr ⟨c, hc, hconcerns⟩
      exact hnone d id e hrec ws hws x hx hkind

/-- Nothing is only a `urn:Vehicle`, and nothing is only a `urn:Boat`. -/
def fleetRules : Collection :=
  let (_, b) := SchemaBuilder.empty.addAbstract "urn:Vehicle"
  let (_, b) := b.addAbstract "urn:Boat"
  ⟨.standard, none, b.entities, ∅⟩

/-- What one dataset holds as a car another one holds as nothing more than a vehicle. A boat has
been taken out again. -/
def harbour : Store :=
  let σ := Store.empty.put "day" (.ofType "urn:kitt" "urn:Car")
  let σ := σ.put "night" (.ofType "urn:kitt" "urn:Vehicle")
  let σ := σ.put "day" (.ofType "urn:ark" "urn:Boat")
  (σ.remove "day" "urn:ark").2

/-- The plain validator with the store as its data provider. -/
def harbourmaster : Validator (Except ValidationError) :=
  { plain with provider? := some harbour.provider }

/-- The store is reported once for the vehicle, which the merged record hides, and not for the
boat, which is gone. -/
theorem validateStore_agrees_harbour :
    harbour.Reachable ∧
    (∀ c ∈ (Schema.ofCollection fleetRules).abstractConstraints, c.entityClass?.isSome = true) ∧
    (∀ d id e, harbour.record? d id = some e →
      ∀ type ∈ e.types, fleetRules.namespaces.canonical type = type) ∧
    harbourmaster.provider? = some harbour.provider ∧
    (∀ d id e, harbour.record? d id = some e →
      ∃ vs, plain.validateEntity (.ofCollection fleetRules) e = .ok vs) ∧
    (fleetRules.entities.map Entity.id).Nodup ∧
    ∃ r, harbourmaster.start (.ofCollection fleetRules) = .ok r ∧
    ∃ vs, harbourmaster.validateStore (.ofCollection fleetRules) = .ok vs ∧
      vs.map Violation.finding = [⟨.referenceTypeMismatch, some "urn:Vehicle-constraint-0", none,
        "expected zero instances of abstract class urn:Vehicle, found urn:kitt"⟩] ∧
      (∀ c ∈ (Schema.ofCollection fleetRules).abstractConstraints,
        (vs.filter fun x => x.constraint = some c).length = 1 ↔
          (Schema.ofCollection fleetRules).Populated harbour c) ∧
      (vs = [] ↔ ∀ d id e, harbour.record? d id = some e →
        ∀ ws, plain.validateEntity (.ofCollection fleetRules) e = .ok ws →
          ∀ x ∈ ws, x.kind ≠ .abstractEntityClassViolation) := by
  have hreachable : harbour.Reachable :=
    (((Store.Reachable.empty.put _ _).put _ _).put _ _).remove _ _
  have hclass : ∀ c ∈ (Schema.ofCollection fleetRules).abstractConstraints,
      c.entityClass?.isSome = true := by decide +kernel
  have htypes := Store.forall_record_of_entries (σ := harbour)
    (P := fun e => ∀ type ∈ e.types, fleetRules.namespaces.canonical type = type)
    (by decide +kernel)
  have hcomplete := Store.forall_record_of_entries (σ := harbour)
    (P := fun e => (plain.validateEntity (.ofCollection fleetRules) e).isOk = true)
    (by decide +kernel)
  have hrecords : ∀ d id e, harbour.record? d id = some e →
      ∃ vs, plain.validateEntity (.ofCollection fleetRules) e = .ok vs := by
    intro d id e hrec
    have hok := hcomplete d id e hrec
    cases hrun : plain.validateEntity (.ofCollection fleetRules) e with
    | error err =>
      rw [hrun] at hok
      cases hok
    | ok vs => exact ⟨vs, rfl⟩
  have hids : (fleetRules.entities.map Entity.id).Nodup := by decide +kernel
  have hstart : ∃ r, harbourmaster.start (.ofCollection fleetRules) = .ok r := ⟨_, rfl⟩
  have hreport : (harbourmaster.validateStore (.ofCollection fleetRules)).toOption.map
      (List.map Violation.finding) =
        some [⟨.referenceTypeMismatch, some "urn:Vehicle-constraint-0", none,
          "expected zero instances of abstract class urn:Vehicle, found urn:kitt"⟩] := by
    decide +kernel
  obtain ⟨r, hr⟩ := hstart
  obtain ⟨vs, hvs, -, honce, hnil⟩ :=
    validateStore_agrees hreachable hclass htypes rfl hr hrecords
  rw [hvs] at hreport
  exact ⟨hreachable, hclass, htypes, rfl, hrecords, hids, r, hr, vs, hvs,
    Option.some.inj hreport, honce hids, hnil⟩

end Validator

end EntityGraph
