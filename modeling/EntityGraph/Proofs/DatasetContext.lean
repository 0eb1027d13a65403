import EntityGraph.Proofs.Neighbours
import EntityGraph.Proofs.Referrers
import EntityGraph.Schema.Builder
import Mathlib.Data.List.Nodup

/-!
# The context of datasets

A context names the datasets whose records count when related entities are looked at. Two
expectations suggest themselves: that no context is as good as the context of all datasets, and
that the other datasets do not matter. The forward checks meet both. The counting of referrers
meets neither: without a context it reads types off merged entities, in which the last declaration
hides the others, and within one it still follows the edges of all datasets. How far it departs is
said exactly.

Results:
* `validateEntity_alike_iff`: two validations whose own findings agree are alike exactly if their
  referrers vote on the same sides.
* `validateEntity_names_iff`: when no context is as good as the context of all datasets.
* `validateEntity_sameIn_iff`: when stores with the same records in the context agree.
-/

namespace EntityGraph

namespace Validator

variable {v : Validator (Except ValidationError)} {s : Schema} {e : Entity}

/-- The validator that looks at related entities in a store, within a context. -/
def asking (v : Validator (Except ValidationError)) (σ : Store) (context : List String) :
    Validator (Except ValidationError) :=
  { v with
    provider? := some σ.provider
    settings := { v.settings with related := true, context } }

/-- The run of such a validator. -/
def askingRun (v : Validator (Except ValidationError)) (s : Schema) (σ : Store)
    (context : List String) (started : Nat) : Run (Except ValidationError) :=
  ⟨s, (v.asking σ context).settings, some σ.provider, v.rules, v.signals, started⟩

@[simp] theorem schema_askingRun (v : Validator (Except ValidationError)) (s : Schema) (σ : Store)
    (context : List String) (started : Nat) : (v.askingRun s σ context started).schema = s := rfl

@[simp] theorem context_askingRun (v : Validator (Except ValidationError)) (s : Schema) (σ : Store)
    (context : List String) (started : Nat) :
    (v.askingRun s σ context started).settings.context = context := rfl

/-- The validation of an entity fails whatever its referrers are: the run does not start, or the
check is blocked. -/
def Blocked (v : Validator (Except ValidationError)) (s : Schema) (e : Entity) : Prop :=
  ∀ r, v.start s = .ok r → r.Blocked e

/-- Whether a run starts depends on neither store nor context. -/
theorem start_asking_cases (v : Validator (Except ValidationError)) (s : Schema) :
    (∃ err, ∀ σ context, (v.asking σ context).start s = .error err) ∨
    ∃ started, ∀ σ context, (v.asking σ context).start s = .ok (v.askingRun s σ context started) ∧
      (v.askingRun s σ context started).proceed = .ok () := by
  have hstart : ∀ σ context, (v.asking σ context).start s = (do
      let started ← v.signals.now
      (v.askingRun s σ context started).proceed
      return v.askingRun s σ context started) := fun _ _ => rfl
  cases hnow : v.signals.now with
  | error err =>
    refine Or.inl ⟨err, fun σ context => ?_⟩
    rw [hstart, hnow]
    rfl
  | ok started =>
    have hproceed : ∀ σ context, (v.askingRun s σ context started).proceed =
        (v.askingRun s .empty [] started).proceed := fun _ _ => rfl
    cases hp : (v.askingRun s .empty [] started).proceed with
    | error err =>
      refine Or.inl ⟨err, fun σ context => ?_⟩
      rw [hstart, hnow, ok_bind, hproceed, hp]
      rfl
    | ok u =>
      refine Or.inr ⟨started, fun σ context => ⟨?_, (hproceed σ context).trans hp⟩⟩
      rw [hstart, hnow, ok_bind, hproceed, hp]
      rfl

/-- **Two validations whose own findings agree are alike exactly if their referrers vote on the
same sides**, unless both are blocked anyway. -/
theorem validateEntity_alike_iff {σ σ' : Store} {context context' : List String}
    (hown : ∀ started, (v.askingRun s σ context started).proceed = .ok () → ∀ type ∈ e.types,
      Alike Violation.substance ((v.askingRun s σ context started).ownFindings e type)
        ((v.askingRun s σ' context' started).ownFindings e type)) :
    Alike Violation.substance ((v.asking σ context).validateEntity s e)
        ((v.asking σ' context').validateEntity s e) ↔
      (v.asking σ context).Blocked s e ∨
        s.SameSides e (σ.votes s context e) (σ'.votes s context' e) := by
  rcases start_asking_cases v s with ⟨err, herr⟩ | ⟨started, hstarted⟩
  · have hfail : ∀ σ context, (v.asking σ context).validateEntity s e = .error err :=
      fun σ context => validateEntities_of_start_error _ s (herr σ context) [e]
    rw [hfail, hfail]
    refine iff_of_true (Or.inl ⟨err, err, rfl, rfl⟩) (Or.inl fun r hr => ?_)
    rw [herr] at hr
    cases hr
  · have hstep : ∀ σ context, (v.asking σ context).validateEntity s e =
        (v.askingRun s σ context started).checkEntity e := by
      intro σ context
      rw [validateEntity_of_start _ s (hstarted σ context).1]
      unfold step
      rw [(hstarted σ context).2]
      rfl
    have hblocked : (v.asking σ context).Blocked s e ↔
        (v.askingRun s σ context started).Blocked e := by
      unfold Blocked
      rw [(hstarted σ context).1]
      simp
    rw [hstep, hstep, hblocked]
    exact checkEntity_alike_iff rfl rfl rfl rfl rfl rfl (hstarted σ context).2
      (hstarted σ' context').2 (hown started (hstarted σ context).2)

end Validator

/-! ## No context and the context of all datasets -/

/-- The outcome of the rule does not depend on the context of datasets. -/
def Rule.IgnoresContext (rule : Rule (Except ValidationError)) : Prop :=
  ∀ given context e,
    rule { given with settings := { given.settings with context } } e = rule given e

/-- No rule of the registry looks at the context of datasets. -/
def RuleRegistry.IgnoreContext (rules : RuleRegistry (Except ValidationError)) : Prop :=
  ∀ entry ∈ rules.entries, Rule.IgnoresContext entry.2

section AllDatasets

variable {v : Validator (Except ValidationError)} {s : Schema} {e : Entity} {σ : Store}

/-- Following references gives the same, to the text, without a context and within that of all
datasets. -/
theorem checkTarget_names (c : Constraint) (target : String) (started : Nat) :
    (v.askingRun s σ [] started).checkTarget c e target =
      (v.askingRun s σ σ.names started).checkTarget c e target := by
  have hstored : ∀ context, (v.askingRun s σ context started).stored? target =
      .ok (σ.stored? (s.namespaces.canonical target)) :=
    fun context => stored?_of_store (r := v.askingRun s σ context started) rfl target
  unfold Run.checkTarget
  rw [hstored, hstored]
  refine congrArg _ (funext fun _ => ?_)
  rw [ok_bind, ok_bind]
  cases h : σ.stored? (s.namespaces.canonical target) with
  | none => rfl
  | some stored =>
    have hnil : stored.recordsIn [] = σ.records (s.namespaces.canonical target) := by
      rw [Store.recordsIn_of_stored? h, Store.recordsIn_nil]
    have hnames : stored.recordsIn σ.names = σ.records (s.namespaces.canonical target) := by
      rw [Store.recordsIn_of_stored? h, Store.recordsIn_names]
    have hne : (σ.records (s.namespaces.canonical target)).isEmpty = false :=
      List.isEmpty_eq_false_iff.mpr (Store.records_of_stored? h).2
    simp only [Validator.schema_askingRun, Validator.context_askingRun, hnil, hnames, hne,
      Bool.false_eq_true, if_false]

/-- What an entity breaks on its own is the same, to the text, without a context and within that of
all datasets. -/
theorem ownFindings_names (hrules : v.rules.IgnoreContext) (type : String) (started : Nat) :
    (v.askingRun s σ [] started).ownFindings e type =
      (v.askingRun s σ σ.names started).ownFindings e type := by
  unfold Run.ownFindings
  rw [Validator.schema_askingRun, Validator.schema_askingRun]
  refine congrArg _ (funext fun cs => gather_congr fun c _ => ?_)
  unfold Run.checkConstraint
  cases c.kind with
  | property => rfl
  | reference =>
    have htargets : (v.askingRun s σ [] started).checkTarget c e =
        (v.askingRun s σ σ.names started).checkTarget c e :=
      funext fun target => checkTarget_names c target started
    show (v.askingRun s σ [] started).checkReference c e =
      (v.askingRun s σ σ.names started).checkReference c e
    unfold Run.checkReference
    rw [htargets]
    rfl
  | isAbstract => rfl
  | application =>
    show (v.askingRun s σ [] started).checkRule c e =
      (v.askingRun s σ σ.names started).checkRule c e
    unfold Run.checkRule
    rw [show (v.askingRun s σ σ.names started).rules = (v.askingRun s σ [] started).rules from rfl,
      Validator.schema_askingRun, Validator.schema_askingRun]
    cases hrule : (v.askingRun s σ [] started).rules.find? s.namespaces c with
    | none => rfl
    | some rule =>
      obtain ⟨entry, hentry, rfl⟩ := Option.map_eq_some_iff.mp hrule
      have hignores : entry.2.IgnoresContext := hrules entry (List.mem_of_find?_eq_some hentry)
      exact congrArg (· >>= _)
        (hignores ⟨s, c, (v.asking σ σ.names).settings, some σ.provider⟩ [] e)

/-- And so it has the same substance. -/
theorem ownFindings_names_alike (hrules : v.rules.IgnoreContext) (started : Nat)
    (_ : (v.askingRun s σ [] started).proceed = .ok ()) (type : String) (_ : type ∈ e.types) :
    Alike Violation.substance ((v.askingRun s σ [] started).ownFindings e type)
      ((v.askingRun s σ σ.names started).ownFindings e type) := by
  rw [ownFindings_names hrules]
  exact .refl _ _

/-- **When no context is as good as the context of all datasets**: exactly if the referrers vote on
the same sides, be their types read off the merged entities or off all records. -/
theorem validateEntity_names_iff (hrules : v.rules.IgnoreContext) (s : Schema) (e : Entity)
    (σ : Store) :
    Alike Violation.substance ((v.asking σ []).validateEntity s e)
        ((v.asking σ σ.names).validateEntity s e) ↔
      (v.asking σ []).Blocked s e ∨ s.SameSides e (σ.votes s [] e) (σ.votes s σ.names e) :=
  Validator.validateEntity_alike_iff (ownFindings_names_alike hrules)

/-- Where no referrer declares types in two datasets, and all are known under their canonical
identifiers, no context is as good as the context of all datasets. -/
theorem validateEntity_names_of_single (hrules : v.rules.IgnoreContext)
    (h : ∀ c d, s.Demands e c d →
      ∀ referrer ∈ σ.hop (s.namespaces.canonical e.id) d.predicate true none,
        s.namespaces.canonical referrer.id = referrer.id ∧
        (typeSlots (σ.records referrer.id)).length ≤ 1) :
    Alike Violation.substance ((v.asking σ []).validateEntity s e)
      ((v.asking σ σ.names).validateEntity s e) := by
  refine (Validator.validateEntity_alike_iff (ownFindings_names_alike hrules)).mpr
    (Or.inr (Schema.sameSides_of_filter_eq fun c d hd => congrArg _ ?_))
  unfold Store.votes
  refine List.map_congr_left fun referrer hreferrer => congrArg _ ?_
  obtain ⟨hcanonical, hsingle⟩ := h c d hd referrer hreferrer
  obtain ⟨stored, hstored, rfl⟩ := Store.exists_of_mem_hop hreferrer
  have hrecords := (Store.records_of_stored? hstored).1
  have htypes : stored.merged.types = Run.declaredTypes (σ.records stored.merged.id) := by
    rw [types_merged_of_single (hrecords ▸ hsingle), hrecords]
  unfold Store.typesSeen
  rw [hcanonical, Store.recordsIn_names, ← htypes, if_pos List.isEmpty_nil, ite_self]

end AllDatasets

/-- Every `urn:City` is the home of a `urn:Person`. -/
def homeRules : Collection :=
  let (home, _) := SchemaBuilder.empty.startConstraint .reference "urn:Person"
  ⟨.standard, none, [((((home.setName Vocabulary.referenceClass "urn:home").setName
    Vocabulary.referencedEntityClass "urn:City").setName
    Vocabulary.inverseReferenceClass "urn:homeOf").setBound Vocabulary.inverseMinCard 1).entity], ∅⟩

/-- The schema of homes. -/
def homes : Schema := .ofCollection homeRules

/-- A person at home in the city. -/
def resident : Entity :=
  (Entity.ofType "urn:i" "urn:Person").setReference "urn:home" (.one "urn:t")

/-- One dataset knows the resident of the city. -/
def census : Store := Store.empty.put "a" resident

/-- Another dataset takes the resident for a robot. -/
def disputed : Store := census.put "b" (Entity.ofType "urn:i" "urn:Robot")

/-- The city itself. -/
def city : Entity := Entity.ofType "urn:t" "urn:City"

theorem disputed_reachable : disputed.Reachable := (Store.Reachable.empty.put _ _).put _ _

theorem ignoreContext_plain : Validator.plain.rules.IgnoreContext := fun _ h => nomatch h

/-- The two readings agree on the one dataset, and on both they do not. -/
theorem alike_census_not_disputed :
    Alike Violation.substance ((Validator.plain.asking census []).validateEntity homes city)
      ((Validator.plain.asking census census.names).validateEntity homes city) ∧
    ¬ Alike Violation.substance ((Validator.plain.asking disputed []).validateEntity homes city)
      ((Validator.plain.asking disputed disputed.names).validateEntity homes city) := by
  decide +kernel

/-- One dataset alone reads the same either way. With the second dataset the merged resident is a
robot and the city is no home any more, although the first dataset still holds the person. -/
theorem validateEntity_names_iff_census :
    Validator.plain.rules.IgnoreContext ∧
    ((Validator.plain.asking census []).Blocked homes city ∨
      homes.SameSides city (census.votes homes [] city) (census.votes homes census.names city)) ∧
    ¬ ((Validator.plain.asking disputed []).Blocked homes city ∨
      homes.SameSides city (disputed.votes homes [] city)
        (disputed.votes homes disputed.names city)) := by
  refine ⟨ignoreContext_plain, ?_, ?_⟩
  · exact (validateEntity_names_iff ignoreContext_plain homes city census).mp
      alike_census_not_disputed.1
  · rw [← validateEntity_names_iff ignoreContext_plain homes city disputed]
    exact alike_census_not_disputed.2

/-- No context is not always as good as the context of all datasets, not even without rules. -/
theorem not_forall_alike_names :
    ¬ ∀ (v : Validator (Except ValidationError)) (s : Schema) (σ : Store) (e : Entity),
      v.rules.entries = [] → σ.Reachable →
        Alike Violation.substance ((v.asking σ []).validateEntity s e)
          ((v.asking σ σ.names).validateEntity s e) :=
  fun h => alike_census_not_disputed.2 (h .plain homes disputed city rfl disputed_reachable)

/-! ## Stores with the same records in the context -/

/-- A violation reduced to its kind and to identifiers. -/
def Violation.identifiers (v : Violation) : Violation.Kind × Option String × Option String :=
  (v.kind, v.constraint.map Constraint.id, v.entity.map Entity.id)

theorem Alike.identifiers {ε : Type} {x y : Except ε (List Violation)}
    (h : Alike Violation.substance x y) : Alike Violation.identifiers x y := by
  refine h.view fun _ _ _ _ a _ b _ heq => ?_
  obtain ⟨hkind, hrest⟩ := Prod.mk.inj heq
  obtain ⟨hconstraint, hentity⟩ := Prod.mk.inj hrest
  unfold Violation.identifiers
  rw [hkind, hconstraint, hentity]

section Stores

variable {v : Validator (Except ValidationError)} {e : Entity} {σ σ' : Store}
  {context : List String} {col : Collection}

/-- Every finding of a validation names the entity and, if any, a constraint of the schema. -/
theorem names_of_mem_validateEntity {vs : List Violation} {w : Violation}
    (h : (v.asking σ context).validateEntity (.ofCollection col) e = .ok vs) (hw : w ∈ vs) :
    w.entity = some e ∧ ∀ c ∈ w.constraint, c ∈ (Schema.ofCollection col).constraints := by
  rcases Validator.start_asking_cases v (.ofCollection col) with ⟨err, herr⟩ | ⟨started, hstarted⟩
  · unfold Validator.validateEntity at h
    rw [Validator.validateEntities_of_start_error _ _ (herr σ context)] at h
    cases h
  · rw [Validator.validateEntity_of_start _ _ (hstarted σ context).1] at h
    obtain ⟨-, -, h⟩ := bind_eq_ok_iff.mp h
    obtain ⟨hentity, hconstraint⟩ := names_of_mem_checkEntity h hw
    exact ⟨hentity, fun c hc => Schema.mem_constraints_of_looksUp (hconstraint c hc)⟩

/-- Where constraints have distinct identifiers, findings with the same identifiers have the same
substance. -/
theorem Alike.substance
    (hids : ((Schema.ofCollection col).constraints.map Constraint.id).Nodup)
    (h : Alike Violation.identifiers ((v.asking σ context).validateEntity (.ofCollection col) e)
      ((v.asking σ' context).validateEntity (.ofCollection col) e)) :
    Alike Violation.substance ((v.asking σ context).validateEntity (.ofCollection col) e)
      ((v.asking σ' context).validateEntity (.ofCollection col) e) := by
  refine h.view fun vs vs' hvs hvs' a ha b hb heq => ?_
  obtain ⟨hkind, hrest⟩ := Prod.mk.inj heq
  obtain ⟨hconstraint, -⟩ := Prod.mk.inj hrest
  obtain ⟨hentity, hmem⟩ := names_of_mem_validateEntity hvs ha
  obtain ⟨hentity', hmem'⟩ := names_of_mem_validateEntity hvs' hb
  have hsame : a.constraint = b.constraint := by
    cases hc : a.constraint with
    | none =>
      rw [hc, Option.map_none, eq_comm, Option.map_eq_none_iff] at hconstraint
      exact hconstraint.symm
    | some c =>
      rw [hc, Option.map_some, eq_comm, Option.map_eq_some_iff] at hconstraint
      obtain ⟨c', hc', hid⟩ := hconstraint
      rw [hc', List.inj_on_of_nodup_map hids (hmem c hc) (hmem' c' hc') hid.symm]
  unfold Violation.substance
  rw [hkind, hsame, hentity, hentity']

/-- Without rules of the application, what an entity breaks on its own depends on the records in the
context alone. -/
theorem ownFindings_alike
    (happ : ∀ c ∈ (Schema.ofCollection col).constraints, c.kind ≠ .application)
    (hrecords : ∀ id x, x ∈ σ.recordsIn context id ↔ x ∈ σ'.recordsIn context id)
    {started : Nat}
    (hproceed : ∀ σ, (v.askingRun (.ofCollection col) σ context started).proceed = .ok ())
    (type : String) :
    Alike Violation.substance
      ((v.askingRun (.ofCollection col) σ context started).ownFindings e type)
      ((v.askingRun (.ofCollection col) σ' context started).ownFindings e type) := by
  unfold Run.ownFindings
  rw [Validator.schema_askingRun, Validator.schema_askingRun]
  refine .bind _ fun cs hcs => gather_alike fun c hc => ?_
  have hlooksUp : (Schema.ofCollection col).LooksUp [type] c :=
    ⟨type, List.mem_singleton_self type, cs, hc, Or.inl (lift_eq_ok_iff.mp hcs)⟩
  unfold Run.checkConstraint
  cases hk : c.kind with
  | property => exact .refl _ _
  | reference =>
    exact checkReference_alike rfl rfl rfl rfl (hproceed σ) (hproceed σ') hrecords
  | isAbstract => exact .refl _ _
  | application => exact absurd hk (happ c (Schema.mem_constraints_of_looksUp hlooksUp))

/-- Two stores that give the same records in the context are alike exactly if the referrers vote on
the same sides. -/
theorem validateEntity_recordsIn_iff
    (happ : ∀ c ∈ (Schema.ofCollection col).constraints, c.kind ≠ .application)
    (hrecords : ∀ id x, x ∈ σ.recordsIn context id ↔ x ∈ σ'.recordsIn context id) :
    Alike Violation.substance ((v.asking σ context).validateEntity (.ofCollection col) e)
        ((v.asking σ' context).validateEntity (.ofCollection col) e) ↔
      (v.asking σ context).Blocked (.ofCollection col) e ∨
        (Schema.ofCollection col).SameSides e (σ.votes (.ofCollection col) context e)
          (σ'.votes (.ofCollection col) context e) :=
  Validator.validateEntity_alike_iff fun _ hproceed type _ =>
    ownFindings_alike happ hrecords (fun _ => hproceed) type

/-- **When stores with the same records in the context agree**: exactly if the referrers vote on the
same sides. The edges of all datasets make referrers, and only their types are read within the
context. Outcomes compared by identifiers agree then too, and only then if the identifiers of
constraints are distinct. -/
theorem validateEntity_sameIn_iff
    (happ : ∀ c ∈ (Schema.ofCollection col).constraints, c.kind ≠ .application)
    (hcontext : context ≠ []) (hσ : σ.Reachable) (hσ' : σ'.Reachable)
    (hsame : Store.SameIn context σ σ') (v : Validator (Except ValidationError)) (e : Entity) :
    (Alike Violation.substance ((v.asking σ context).validateEntity (.ofCollection col) e)
        ((v.asking σ' context).validateEntity (.ofCollection col) e) ↔
      (v.asking σ context).Blocked (.ofCollection col) e ∨
        (Schema.ofCollection col).SameSides e (σ.votes (.ofCollection col) context e)
          (σ'.votes (.ofCollection col) context e)) ∧
    ((v.asking σ context).Blocked (.ofCollection col) e ∨
        (Schema.ofCollection col).SameSides e (σ.votes (.ofCollection col) context e)
          (σ'.votes (.ofCollection col) context e) →
      Alike Violation.identifiers ((v.asking σ context).validateEntity (.ofCollection col) e)
        ((v.asking σ' context).validateEntity (.ofCollection col) e)) ∧
    (((Schema.ofCollection col).constraints.map Constraint.id).Nodup →
      Alike Violation.identifiers ((v.asking σ context).validateEntity (.ofCollection col) e)
        ((v.asking σ' context).validateEntity (.ofCollection col) e) →
      (v.asking σ context).Blocked (.ofCollection col) e ∨
        (Schema.ofCollection col).SameSides e (σ.votes (.ofCollection col) context e)
          (σ'.votes (.ofCollection col) context e)) := by
  have hrecords : ∀ id x, x ∈ σ.recordsIn context id ↔ x ∈ σ'.recordsIn context id :=
    fun id x => hsame.mem_recordsIn_iff hcontext hσ.sound hσ'.sound
  have hiff := validateEntity_recordsIn_iff (v := v) (e := e) happ hrecords
  exact ⟨hiff, fun h => (hiff.mpr h).identifiers, fun hids h => hiff.mp (h.substance hids)⟩

/-- The identifiers through which an entity is referred to, of those with records in the context. -/
def Store.referrersIn (σ : Store) (s : Schema) (context : List String) (e : Entity) (d : Demand) :
    List String :=
  ((σ.hop (s.namespaces.canonical e.id) d.predicate true none).map fun referrer =>
    s.namespaces.canonical referrer.id).filter fun id => !(σ.recordsIn context id).isEmpty

/-- Within a context, the votes that matter are those of the referrers with records in it. -/
theorem filter_votes (σ : Store) (s : Schema) (hcontext : context ≠ []) (e : Entity) (d : Demand) :
    (σ.votes s context e d).filter (· != some false) =
      ((σ.referrersIn s context e d).map fun id =>
        s.instanceOf? d.owner (Run.declaredTypes (σ.recordsIn context id))).filter
          (· != some false) := by
  unfold Store.votes Store.referrersIn Store.typesSeen
  rw [List.isEmpty_eq_false_iff.mpr hcontext]
  simp only [Bool.false_eq_true, if_false]
  induction σ.hop (s.namespaces.canonical e.id) d.predicate true none with
  | nil => rfl
  | cons referrer referrers ih =>
    simp only [List.map_cons, List.filter_cons]
    cases hrecords : σ.recordsIn context (s.namespaces.canonical referrer.id) with
    | nil =>
      simp only [List.isEmpty_nil, Bool.not_true, Bool.false_eq_true, if_false]
      exact ih
    | cons r rs =>
      simp only [List.isEmpty_cons, Bool.not_false, if_true, List.map_cons, List.filter_cons,
        hrecords, ih]

/-- Where the same referrers with the same records in the context are listed, stores agree. -/
theorem validateEntity_recordsIn_of_referrers
    (happ : ∀ c ∈ (Schema.ofCollection col).constraints, c.kind ≠ .application)
    (hcontext : context ≠ [])
    (hrecords : ∀ id, σ.recordsIn context id = σ'.recordsIn context id)
    (hreferrers : ∀ c d, (Schema.ofCollection col).Demands e c d →
      σ.referrersIn (.ofCollection col) context e d =
        σ'.referrersIn (.ofCollection col) context e d) :
    Alike Violation.substance ((v.asking σ context).validateEntity (.ofCollection col) e)
      ((v.asking σ' context).validateEntity (.ofCollection col) e) := by
  rw [validateEntity_recordsIn_iff happ fun id x => by rw [hrecords]]
  refine Or.inr (Schema.sameSides_of_filter_eq fun c d hd => ?_)
  rw [filter_votes σ _ hcontext, filter_votes σ' _ hcontext, hreferrers c d hd]
  simp only [hrecords]

end Stores

/-- The dataset of the context knows a person without home. -/
def registered : Store := Store.empty.put "a" (.ofType "urn:i" "urn:Person")

/-- Another dataset says where the person is at home. -/
def housed : Store :=
  registered.put "b" (({ id := "urn:i" } : Entity).setReference "urn:home" (.one "urn:t"))

/-- Another dataset knows a person elsewhere. -/
def crowded : Store := registered.put "b" (.ofType "urn:j" "urn:Person")

theorem registered_reachable : registered.Reachable := Store.Reachable.empty.put _ _

theorem datasets_registered :
    (∀ d ∈ ["a"], registered.datasets.get? d = crowded.datasets.get? d) ∧
    ∀ d ∈ ["a"], registered.datasets.get? d = housed.datasets.get? d := by decide +kernel

/-- The person elsewhere makes no difference, and the home does. -/
theorem alike_crowded_not_housed :
    Alike Violation.identifiers
      ((Validator.plain.asking registered ["a"]).validateEntity homes city)
      ((Validator.plain.asking crowded ["a"]).validateEntity homes city) ∧
    ¬ Alike Violation.identifiers
      ((Validator.plain.asking registered ["a"]).validateEntity homes city)
      ((Validator.plain.asking housed ["a"]).validateEntity homes city) := by decide +kernel

theorem constraints_homes :
    (∀ c ∈ homes.constraints, c.kind ≠ .application) ∧
    (homes.constraints.map Constraint.id).Nodup := by decide +kernel

/-- A person elsewhere in another dataset changes nothing. The edge of another dataset does: the
person of the context becomes a resident. -/
theorem validateEntity_sameIn_iff_registered :
    (∀ c ∈ homes.constraints, c.kind ≠ .application) ∧ ["a"] ≠ [] ∧
    (registered.Reachable ∧ crowded.Reachable ∧ housed.Reachable) ∧
    (Store.SameIn ["a"] registered crowded ∧ Store.SameIn ["a"] registered housed) ∧
    ((Validator.plain.asking registered ["a"]).Blocked homes city ∨
      homes.SameSides city (registered.votes homes ["a"] city) (crowded.votes homes ["a"] city)) ∧
    ¬ ((Validator.plain.asking registered ["a"]).Blocked homes city ∨
      homes.SameSides city (registered.votes homes ["a"] city)
        (housed.votes homes ["a"] city)) := by
  have hne : ["a"] ≠ [] := List.cons_ne_nil _ _
  obtain ⟨happ, hids⟩ := constraints_homes
  have hcrowded : crowded.Reachable := registered_reachable.put _ _
  have hhoused : housed.Reachable := registered_reachable.put _ _
  have hsame := Store.sameIn_of_datasets datasets_registered.1
  have hsame' := Store.sameIn_of_datasets datasets_registered.2
  refine ⟨happ, hne, ⟨registered_reachable, hcrowded, hhoused⟩, ⟨hsame, hsame'⟩, ?_,
    fun h => alike_crowded_not_housed.2 ?_⟩
  · exact (validateEntity_sameIn_iff happ hne registered_reachable hcrowded hsame .plain city).2.2
      hids alike_crowded_not_housed.1
  · exact (validateEntity_sameIn_iff happ hne registered_reachable hhoused hsame' .plain city).2.1 h

/-- Stores with the same datasets in the context do not always agree, not even without rules of the
application. -/
theorem not_forall_alike_sameIn :
    ¬ ∀ (v : Validator (Except ValidationError)) (col : Collection) (e : Entity)
        (context : List String) (σ σ' : Store),
      (∀ c ∈ (Schema.ofCollection col).constraints, c.kind ≠ .application) → context ≠ [] →
      σ.Reachable → σ'.Reachable → (∀ d ∈ context, σ.datasets.get? d = σ'.datasets.get? d) →
        Alike Violation.identifiers ((v.asking σ context).validateEntity (.ofCollection col) e)
          ((v.asking σ' context).validateEntity (.ofCollection col) e) :=
  fun h => alike_crowded_not_housed.2 (h .plain homeRules city ["a"] registered housed
    constraints_homes.1 (List.cons_ne_nil _ _) registered_reachable (registered_reachable.put _ _)
    datasets_registered.2)

end EntityGraph
