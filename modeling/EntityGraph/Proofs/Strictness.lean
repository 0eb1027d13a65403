import EntityGraph.Proofs.Outcome
import EntityGraph.Schema.Builder
import EntityGraph.Store.Basic

/-!
# Settings that add checks

A validation may be told to report undeclared predicates and to look at related entities. Neither
takes away what is checked without it. The two are asked for at several places of a run, between
constraints and before errors, and so a run under the stronger settings is compared with the one
under the weaker settings part by part.

Results:
* `gather_kept`: what parts keep is kept when they are gathered.
* `checkConstraint_equipped`, `checkInverse_equipped`: the parts of a check under other settings.
* `checkType_kept`: looking at related entities keeps what is found about a type.
* `validateEntity_settings`: stronger settings only add findings, a strict validation adds the
  undeclared predicates, and a validation that does not look at related entities does not depend
  on the data provider.
-/

namespace EntityGraph

/-- The stronger settings check all that the weaker ones do, in the same datasets and in the same
time. -/
structure Settings.Within (weaker stronger : Settings) : Prop where
  strict : weaker.strict = true → stronger.strict = true
  related : weaker.related = true → stronger.related = true
  context : stronger.context = weaker.context
  timeoutMs : stronger.timeoutMs = weaker.timeoutMs

/-- The rule looks neither at the settings nor at the data provider. -/
def Rule.Detached {m : Type → Type} (rule : Rule m) : Prop :=
  ∀ (ctx : RuleContext m) (settings : Settings) (provider? : Option (Provider m)),
    rule { ctx with settings, provider? } = rule ctx

/-- No registered rule looks at the settings or at the data provider. -/
def RuleRegistry.Detached {m : Type → Type} (rules : RuleRegistry m) : Prop :=
  ∀ entry ∈ rules.entries, Rule.Detached entry.2

/-! ## Findings that are kept -/

section

variable {ε α β : Type}

/-- If the second computation completes, so does the first, and what it gives is kept in order. -/
def Kept (x y : Except ε (List β)) : Prop :=
  ∀ more, y = .ok more → ∃ less, x = .ok less ∧ less.Sublist more

theorem Kept.refl (x : Except ε (List β)) : Kept x x :=
  fun more h => ⟨more, h, List.Sublist.refl _⟩

theorem Kept.of_eq {x y : Except ε (List β)} (h : y = x) : Kept x y := h ▸ .refl _

theorem Kept.bind (x : Except ε α) {f g : α → Except ε (List β)}
    (h : ∀ a, x = .ok a → Kept (f a) (g a)) : Kept (x >>= f) (x >>= g) := by
  intro more hmore
  obtain ⟨a, ha, hg⟩ := bind_eq_ok_iff.mp hmore
  obtain ⟨less, hless, hsub⟩ := h a ha more hg
  exact ⟨less, bind_eq_ok_iff.mpr ⟨a, ha, hless⟩, hsub⟩

theorem Kept.append {x x' y y' : Except ε (List β)} (hx : Kept x x') (hy : Kept y y') :
    Kept (do return (← x) ++ (← y)) (do return (← x') ++ (← y')) := by
  intro more hmore
  obtain ⟨first, hfirst, hrest⟩ := bind_eq_ok_iff.mp hmore
  obtain ⟨second, hsecond, heq⟩ := bind_eq_ok_iff.mp hrest
  obtain rfl := Except.ok.inj heq
  obtain ⟨less, hless, hsub⟩ := hx first hfirst
  obtain ⟨less', hless', hsub'⟩ := hy second hsecond
  exact ⟨less ++ less', by rw [hless, hless']; rfl, hsub.append hsub'⟩

/-- What comes behind is added. -/
theorem Kept.append_right {x x' : Except ε (List β)} (hx : Kept x x') (y : Except ε (List β)) :
    Kept x (do return (← x') ++ (← y)) := by
  intro more hmore
  obtain ⟨first, hfirst, hrest⟩ := bind_eq_ok_iff.mp hmore
  obtain ⟨second, hsecond, heq⟩ := bind_eq_ok_iff.mp hrest
  obtain rfl := Except.ok.inj heq
  obtain ⟨less, hless, hsub⟩ := hx first hfirst
  exact ⟨less, hless, hsub.trans (List.sublist_append_left _ _)⟩

/-- What parts keep is kept when they are gathered. -/
theorem gather_kept {f g : α → Except ε (List β)} {l : List α} (h : ∀ a ∈ l, Kept (f a) (g a)) :
    Kept (gather f l) (gather g l) := by
  induction l with
  | nil => exact .refl _
  | cons a l ih =>
    rw [gather_cons, gather_cons]
    exact (h a List.mem_cons_self).append (ih fun b hb => h b (List.mem_cons_of_mem a hb))

end

/-! ## A run with other settings and another provider -/

namespace Run

variable {r : Run (Except ValidationError)} {σ : Settings}
  {p : Option (Provider (Except ValidationError))} {c : Constraint} {e : Entity}

/-- The run with other settings and another data provider. -/
def equipped (r : Run (Except ValidationError)) (σ : Settings)
    (p : Option (Provider (Except ValidationError))) : Run (Except ValidationError) :=
  { r with settings := σ, provider? := p }

@[simp] theorem settings_equipped : (r.equipped σ p).settings = σ := rfl

@[simp] theorem schema_equipped : (r.equipped σ p).schema = r.schema := rfl

theorem proceed_equipped (h : σ.timeoutMs = r.settings.timeoutMs) :
    (r.equipped σ p).proceed = r.proceed := by
  unfold proceed
  rw [settings_equipped, h]
  rfl

theorem checkRule_equipped (hrules : r.rules.Detached) :
    (r.equipped σ p).checkRule c e = r.checkRule c e := by
  have hfind : (r.equipped σ p).rules.find? (r.equipped σ p).schema.namespaces c =
      r.rules.find? r.schema.namespaces c := rfl
  unfold checkRule
  rw [hfind]
  cases hrule : r.rules.find? r.schema.namespaces c with
  | none => rfl
  | some rule =>
    obtain ⟨entry, hentry, rfl⟩ := Option.map_eq_some_iff.mp hrule
    have hanswer := hrules entry (List.mem_of_find?_eq_some hentry)
      ⟨r.schema, c, r.settings, r.provider?⟩ σ p
    simp only at hanswer ⊢
    rw [← hanswer]
    rfl

/-- Where related entities are not looked at, a check asks neither settings nor provider. -/
theorem checkConstraint_of_not_related (hrules : r.rules.Detached)
    (hr : r.settings.related = false) (hσ : σ.related = false) :
    (r.equipped σ p).checkConstraint e c = r.checkConstraint e c := by
  unfold checkConstraint
  cases c.kind with
  | property => rfl
  | reference =>
    unfold checkReference
    simp only [settings_equipped, schema_equipped, hr, hσ, Bool.false_eq_true, if_false]
  | isAbstract => rfl
  | application => exact checkRule_equipped hrules

theorem checkType_of_neither_related (hrules : r.rules.Detached)
    (hr : r.settings.related = false) (hσ : σ.related = false) (type : String) :
    (r.equipped σ p).checkType e type = r.checkType e type := by
  rw [checkType_of_not_related hr, checkType_of_not_related (by exact hσ)]
  exact congrArg _ (funext fun cs => gather_congr fun c _ =>
    checkConstraint_of_not_related hrules hr hσ)

/-! ### The same provider -/

section

variable (h : r.settings.Within σ)

include h

theorem checkTarget_equipped (target : String) :
    (r.equipped σ r.provider?).checkTarget c e target = r.checkTarget c e target := by
  unfold checkTarget
  rw [proceed_equipped h.timeoutMs]
  simp only [settings_equipped, h.context]
  rfl

omit h in
theorem isInstance_equipped (cls : String) (types : List String) :
    (r.equipped σ p).isInstance cls types = r.isInstance cls types := by
  induction types with
  | nil => rfl
  | cons type types ih => rw [isInstance, isInstance, ih]; rfl

theorem counts_equipped (owner : String) (referrer : Entity) :
    (r.equipped σ r.provider?).counts owner referrer = r.counts owner referrer := by
  unfold counts
  rw [proceed_equipped h.timeoutMs]
  simp only [settings_equipped, h.context, isInstance_equipped]
  rfl

theorem countReferrers_equipped (owner : String) (bounds : Cardinality) (stream : EntityStream)
    (count : Nat) :
    (r.equipped σ r.provider?).countReferrers owner bounds stream count =
      r.countReferrers owner bounds stream count := by
  induction stream generalizing count with
  | nil => rfl
  | cons arrival rest ih =>
    rw [countReferrers, countReferrers]
    simp only [counts_equipped h, ih]

theorem checkInverse_equipped :
    (r.equipped σ r.provider?).checkInverse c e = r.checkInverse c e := by
  unfold checkInverse
  rw [proceed_equipped h.timeoutMs]
  simp only [countReferrers_equipped h]
  rfl

/-- A constraint is checked alike if related entities are looked at under both settings or under
neither. -/
theorem checkConstraint_equipped (hrules : r.rules.Detached)
    (hrelated : σ.related = r.settings.related) :
    (r.equipped σ r.provider?).checkConstraint e c = r.checkConstraint e c := by
  unfold checkConstraint
  cases c.kind with
  | property => rfl
  | reference =>
    have htargets : (r.equipped σ r.provider?).checkTarget c e = r.checkTarget c e :=
      funext (checkTarget_equipped h)
    unfold checkReference
    simp only [settings_equipped, hrelated, htargets]
    rfl
  | isAbstract => rfl
  | application => exact checkRule_equipped hrules

theorem checkType_equipped (hrules : r.rules.Detached)
    (hrelated : σ.related = r.settings.related) (type : String) :
    (r.equipped σ r.provider?).checkType e type = r.checkType e type := by
  have hown : (r.equipped σ r.provider?).checkConstraint e = r.checkConstraint e :=
    funext fun c => checkConstraint_equipped h hrules hrelated
  have hinverse : ((r.equipped σ r.provider?).checkInverse · e) = (r.checkInverse · e) :=
    funext fun c => checkInverse_equipped h
  unfold checkType
  simp only [settings_equipped, hrelated, hown, hinverse]
  rfl

omit h in
/-- Looking at the targets of a reference adds to what is found about their number. -/
theorem checkConstraint_kept (hrules : r.rules.Detached) (hr : r.settings.related = false)
    (hσ : σ.related = true) :
    Kept (r.checkConstraint e c) ((r.equipped σ r.provider?).checkConstraint e c) := by
  unfold checkConstraint
  cases c.kind with
  | property => exact .refl _
  | reference =>
    refine .bind (lift .schema c.referenceClass) fun predicate _ =>
      .bind (lift .schema c.cardinality) fun bounds _ => ?_
    simp only [settings_equipped, hr, hσ, if_true, Bool.false_eq_true, if_false]
    exact (Kept.refl (Except.ok _)).append_right _
  | isAbstract => exact .refl _
  | application => exact .of_eq (checkRule_equipped hrules)

/-- **Looking at related entities keeps what is found about a type.** -/
theorem checkType_kept (hrules : r.rules.Detached) (type : String) :
    Kept (r.checkType e type) ((r.equipped σ r.provider?).checkType e type) := by
  by_cases hrelated : σ.related = r.settings.related
  · exact .of_eq (checkType_equipped h hrules hrelated type)
  · have hr : r.settings.related = false := by
      by_contra hr
      rw [Bool.not_eq_false] at hr
      exact hrelated ((h.related hr).trans hr.symm)
    have hσ : σ.related = true := by
      rw [hr] at hrelated
      exact Bool.not_eq_false _ ▸ hrelated
    rw [checkType_of_not_related hr, checkType_of_related (by exact hσ)]
    refine Kept.append_right ?_ _
    exact .bind (lift .schema (r.schema.constraintsFor type true)) fun cs _ =>
      gather_kept fun c _ => checkConstraint_kept hrules hr hσ

/-- Stronger settings keep what is found about an entity. -/
theorem checkEntity_kept (hrules : r.rules.Detached) :
    Kept (r.checkEntity e) ((r.equipped σ r.provider?).checkEntity e) := by
  have hundeclared : (if r.settings.strict then Violation.undeclared r.schema e else []).Sublist
      (if σ.strict then Violation.undeclared r.schema e else []) := by
    cases hr : r.settings.strict with
    | false => exact List.nil_sublist _
    | true => rw [h.strict hr]
  by_cases hnil : e.types = []
  · rw [checkEntity_of_types_nil hnil, checkEntity_of_types_nil hnil]
    exact .refl _
  · unfold checkEntity
    rw [if_neg (mt List.isEmpty_iff.mp hnil), if_neg (mt List.isEmpty_iff.mp hnil)]
    intro more hmore
    obtain ⟨found, hfound, heq⟩ := bind_eq_ok_iff.mp hmore
    obtain rfl := Except.ok.inj heq
    obtain ⟨less, hless, hsub⟩ :=
      gather_kept (fun type _ => checkType_kept h hrules type) found hfound
    exact ⟨_ ++ less, by rw [hless]; rfl, hundeclared.append hsub⟩

end

/-- A strict check finds, in front of what it finds otherwise, what is undeclared of an entity with
types. -/
theorem checkEntity_strict {r' : Run (Except ValidationError)} (hschema : r'.schema = r.schema)
    (hstrict : r.settings.strict = false) (hstrict' : r'.settings.strict = true)
    (htype : r'.checkType e = r.checkType e) :
    r'.checkEntity e = (r.checkEntity e).map fun vs =>
      if e.types = [] then vs else Violation.undeclared r.schema e ++ vs := by
  by_cases hnil : e.types = []
  · rw [checkEntity_of_types_nil hnil, checkEntity_of_types_nil hnil]
    simp [Except.map, hnil]
  · unfold checkEntity
    rw [if_neg (mt List.isEmpty_iff.mp hnil), if_neg (mt List.isEmpty_iff.mp hnil), htype, hschema,
      hstrict, hstrict']
    cases gather (r.checkType e) e.types with
    | error err => rfl
    | ok found => simp [Except.map, hnil]

theorem checkEntity_of_checkType {r' : Run (Except ValidationError)}
    (hschema : r'.schema = r.schema) (hstrict : r'.settings.strict = r.settings.strict)
    (htype : r'.checkType e = r.checkType e) : r'.checkEntity e = r.checkEntity e := by
  unfold checkEntity
  rw [htype, hschema, hstrict]

end Run

/-! ## Validations -/

namespace Validator

variable {v : Validator (Except ValidationError)} {s : Schema} {e : Entity} {σ : Settings}
  {p : Option (Provider (Except ValidationError))}

/-- A run with other settings and another provider starts as the first one does, if the provider is
missing in both or in neither. -/
theorem start_equipped (htimeout : σ.timeoutMs = v.settings.timeoutMs)
    (hmissing : (σ.related && p.isNone) = (v.settings.related && v.provider?.isNone)) :
    { v with settings := σ, provider? := p }.start s = (v.start s).map (·.equipped σ p) := by
  unfold start
  rw [hmissing]
  cases v.signals.now with
  | error err => rfl
  | ok started =>
    simp only [ok_bind]
    split
    · rfl
    · let r : Run (Except ValidationError) :=
        ⟨s, v.settings, v.provider?, v.rules, v.signals, started⟩
      have hmap : (do (r.equipped σ p).proceed; return r.equipped σ p :
          Except ValidationError (Run _)) =
            Except.map (·.equipped σ p) (do r.proceed; return r) := by
        rw [Run.proceed_equipped htimeout]
        cases r.proceed <;> rfl
      exact hmap

/-- A run that would look at related entities does not start without provider. -/
theorem related_of_start {r : Run (Except ValidationError)} (h : v.start s = .ok r) :
    (v.settings.related && v.provider?.isNone) = false := by
  unfold start at h
  obtain ⟨started, -, h⟩ := bind_eq_ok_iff.mp h
  by_contra hmissing
  rw [Bool.not_eq_false] at hmissing
  rw [if_pos hmissing] at h
  cases h

/-- What a validation under other settings and with another provider gives, if the check of the
entity is known. -/
theorem validateEntity_equipped (htimeout : σ.timeoutMs = v.settings.timeoutMs)
    (hmissing : (σ.related && p.isNone) = (v.settings.related && v.provider?.isNone))
    {f : List Violation → List Violation}
    (hcheck : ∀ r, v.start s = .ok r → (r.equipped σ p).checkEntity e = (r.checkEntity e).map f) :
    { v with settings := σ, provider? := p }.validateEntity s e =
      (v.validateEntity s e).map f := by
  have hstart' := start_equipped (s := s) htimeout hmissing
  cases hstart : v.start s with
  | error err =>
    rw [hstart] at hstart'
    have hx : v.validateEntity s e = .error err := validateEntities_of_start_error v s hstart [e]
    have hy : { v with settings := σ, provider? := p }.validateEntity s e = .error err :=
      validateEntities_of_start_error _ s hstart' [e]
    rw [hx, hy]
    rfl
  | ok r =>
    rw [hstart] at hstart'
    obtain ⟨-, hsettings, -, -, hproceed⟩ := started_of_start hstart
    rw [validateEntity_of_start v s hstart, validateEntity_of_start _ s hstart']
    unfold step
    rw [Run.proceed_equipped (by rw [htimeout, hsettings]), hproceed, ok_bind, ok_bind,
      hcheck r hstart]

/-- The validator with stronger settings keeps what the weaker one finds. -/
theorem validateEntity_kept (hrules : v.rules.Detached) (h : v.settings.Within σ) :
    Kept (v.validateEntity s e) ({ v with settings := σ }.validateEntity s e) := by
  intro more hmore
  obtain ⟨r', hr', hcheck⟩ := validateEntity_eq_ok_iff.mp hmore
  have hmissing' : (σ.related && v.provider?.isNone) = false := related_of_start hr'
  have hmissing : (v.settings.related && v.provider?.isNone) = false := by
    by_contra hnot
    rw [Bool.not_eq_false, Bool.and_eq_true] at hnot
    rw [h.related hnot.1, hnot.2] at hmissing'
    cases hmissing'
  have hstart : .ok r' = (v.start s).map (·.equipped σ v.provider?) :=
    hr'.symm.trans (start_equipped h.timeoutMs (hmissing'.trans hmissing.symm))
  obtain ⟨r, hr, rfl⟩ := map_eq_ok_iff.mp hstart.symm
  obtain ⟨-, hsettings, hprovider, hregistry, -⟩ := started_of_start hr
  rw [← hprovider] at hcheck
  obtain ⟨less, hless, hsub⟩ :=
    Run.checkEntity_kept (hsettings ▸ h) (hregistry ▸ hrules) more hcheck
  exact ⟨less, validateEntity_eq_ok_iff.mpr ⟨r, hr, hless⟩, hsub⟩

/-- **Settings only add checks.** Rules look neither at settings nor at the data provider.

* A validation under stronger settings that completes, completes under the weaker ones, and finds
  the same there and perhaps less, in the same order.
* A strict validation finds what it finds otherwise, errors included, and in front of that, if the
  entity has types, each predicate that the schema does not declare: properties first, then
  references, each in the order of its map.
* A validation that does not look at related entities does not depend on the data provider. -/
theorem validateEntity_settings (hrules : v.rules.Detached) (s : Schema) (e : Entity) :
    (∀ σ : Settings, v.settings.Within σ → ∀ ws,
      { v with settings := σ }.validateEntity s e = .ok ws →
        ∃ vs, v.validateEntity s e = .ok vs ∧ vs.Sublist ws) ∧
    (v.settings.strict = false →
      { v with settings := { v.settings with strict := true } }.validateEntity s e =
        (v.validateEntity s e).map fun vs =>
          if e.types = [] then vs
          else
            (e.properties.keys.filter fun p => !s.declaresProperty p).map (fun p =>
              ⟨.undeclaredProperty, e.id ++ " has undeclared property " ++ p, none, some e⟩) ++
            (e.references.keys.filter fun p => !s.declaresReference p).map (fun p =>
              ⟨.undeclaredReference, e.id ++ " has undeclared reference " ++ p, none, some e⟩) ++
            vs) ∧
    (v.settings.related = false → ∀ p : Option (Provider (Except ValidationError)),
      { v with provider? := p }.validateEntity s e = v.validateEntity s e) := by
  refine ⟨fun σ h => validateEntity_kept hrules h, fun hstrict => ?_, fun hrelated p => ?_⟩
  · refine validateEntity_equipped (v := v) (p := v.provider?)
      (σ := { v.settings with strict := true }) rfl rfl fun r hr => ?_
    obtain ⟨rfl, hsettings, hprovider, hregistry, -⟩ := started_of_start hr
    have hwithin : r.settings.Within { v.settings with strict := true } :=
      ⟨fun _ => rfl, fun h => hsettings ▸ h, by rw [hsettings], by rw [hsettings]⟩
    rw [← hprovider]
    exact Run.checkEntity_strict rfl (hsettings ▸ hstrict) rfl (funext fun type =>
      Run.checkType_equipped hwithin (hregistry ▸ hrules) (by rw [hsettings]) type)
  · have hmissing : (v.settings.related && p.isNone) =
        (v.settings.related && v.provider?.isNone) := by rw [hrelated]; rfl
    refine (validateEntity_equipped (v := v) (σ := v.settings) (f := id) rfl hmissing
      fun r hr => ?_).trans (congrFun Except.map_id _)
    obtain ⟨-, hsettings, -, hregistry, -⟩ := started_of_start hr
    have hcheck : (r.equipped v.settings p).checkEntity e = r.checkEntity e :=
      Run.checkEntity_of_checkType rfl (by rw [hsettings]; rfl) (funext fun type =>
        Run.checkType_of_neither_related (hregistry ▸ hrules) (hsettings ▸ hrelated) hrelated type)
    exact hcheck.trans (congrFun Except.map_id _).symm

/-- A rule that asks for some property. -/
def silent : Rule (Except ValidationError) := fun ctx e =>
  .ok (if e.properties.isEmpty then some (e.id ++ " says nothing to " ++ ctx.constraint.id)
    else none)

/-- A validator that knows the rule and an empty store, and makes no use of the store. -/
def warden : Validator (Except ValidationError) where
  provider? := some Store.empty.provider
  rules := .register .empty "urn:silent" silent
  signals := .quiet

/-- A person has a name, a home that is a city, and something to say. -/
def settledPersons : SchemaBuilder :=
  let (named, b) := SchemaBuilder.empty.startConstraint .property "urn:Person"
  let b := b.addConstraint ((named.setName Vocabulary.propertyClass "urn:name").setBound
    Vocabulary.minCard 1)
  let (home, b) := b.startConstraint .reference "urn:Person"
  let b := b.addConstraint ((home.setName Vocabulary.referenceClass "urn:home").setName
    Vocabulary.referencedEntityClass "urn:City")
  let (rule, b) := b.startConstraint .application "urn:Person"
  b.addConstraint (rule.setName Vocabulary.rule "urn:silent")

/-- A person without name, whose home nobody knows and whose age nobody asked for. -/
def vagrant : Entity :=
  ((Entity.ofType "urn:ann" "urn:Person").setReference "urn:home" (.one "urn:nowhere")).setProperty
    "urn:age" (.one (.int 33))

/-- Each setting adds one finding to the one that the warden makes without them. -/
theorem validateEntity_settings_vagrant :
    ∃ s vs ws us, settledPersons.build = .ok s ∧ warden.rules.Detached ∧
      warden.settings.Within { strict := true, related := true } ∧
      warden.validateEntity s vagrant = .ok vs ∧
      { warden with settings := { strict := true, related := true } }.validateEntity s vagrant =
        .ok ws ∧
      { warden with settings := { strict := true } }.validateEntity s vagrant = .ok us ∧
      vs.map Violation.kind = [.minPropertyOccurrenceNotMet] ∧
      ws.map Violation.kind =
        [.undeclaredProperty, .minPropertyOccurrenceNotMet, .referenceNotFound] ∧
      vs.Sublist ws ∧
      us = ⟨.undeclaredProperty, "urn:ann has undeclared property urn:age", none, some vagrant⟩ ::
        vs ∧
      { warden with provider? := none }.validateEntity s vagrant = .ok vs := by
  have hrules : warden.rules.Detached := by
    intro entry hentry
    obtain rfl := List.mem_singleton.mp hentry
    exact fun _ _ _ => rfl
  have hwithin : warden.settings.Within { strict := true, related := true } :=
    ⟨fun _ => rfl, fun _ => rfl, rfl, rfl⟩
  have hfacts : ∃ s ∈ settledPersons.build.toOption,
      (validateEntity { warden with settings := { strict := true, related := true } } s
        vagrant).toOption.map (·.map Violation.kind) =
          some [.undeclaredProperty, .minPropertyOccurrenceNotMet, .referenceNotFound] ∧
      (warden.validateEntity s vagrant).toOption.map (·.map Violation.kind) =
        some [.minPropertyOccurrenceNotMet] ∧
      (vagrant.properties.keys.filter fun p => !s.declaresProperty p) = ["urn:age"] ∧
      (vagrant.references.keys.filter fun p => !s.declaresReference p) = [] := by
    decide +kernel
  obtain ⟨s, hs, hws, hvs, hproperties, hreferences⟩ := hfacts
  obtain ⟨ws, hws, hwsKinds⟩ := exists_ok_of_toOption_map hws
  obtain ⟨hkept, hstrict, hprovider⟩ := validateEntity_settings hrules s vagrant
  obtain ⟨vs, hok, hsub⟩ := hkept _ hwithin ws hws
  rw [hok] at hvs
  have hstrict := hstrict rfl
  rw [hok, hproperties, hreferences] at hstrict
  exact ⟨s, vs, ws, _, eq_ok_of_mem_toOption hs, hrules, hwithin, hok, hws, hstrict,
    Option.some.inj hvs, hwsKinds, hsub, rfl, (hprovider rfl none).trans hok⟩

end Validator

end EntityGraph
