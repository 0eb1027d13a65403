import EntityGraph.Validation.Validator
import Mathlib.Data.List.Basic

/-!
# Outcomes of a run

A run in `Except` ends with what it found or with the error that stopped it. `gather`, which joins
what the parts of a run find, is described here by its outcome alone, so that no later proof
opens its recursion.

Results:
* `gather_eq_ok_iff`: gathering completes exactly if every part does, and joins the findings.
* `gather_eq_error_iff`: gathering fails exactly with the first part that fails.
* `gather_flatten`: gathering part by part is gathering all at once.
* `gather_settles`: an exact description of the parts gives one of the whole.
* `Run.checkType_of_related`: a type is checked by its own constraints and by those on referrers.
-/

namespace EntityGraph

variable {ε α β γ : Type}

theorem bind_eq_ok_iff {x : Except ε α} {f : α → Except ε β} {b : β} :
    x >>= f = .ok b ↔ ∃ a, x = .ok a ∧ f a = .ok b := by
  cases x <;> simp [bind, Except.bind]

theorem map_eq_ok_iff {x : Except ε α} {f : α → β} {b : β} :
    x.map f = .ok b ↔ ∃ a, x = .ok a ∧ f a = b := by
  cases x <;> simp [Except.map]

@[simp] theorem ok_bind (a : α) (f : α → Except ε β) : (Except.ok a >>= f) = f a := rfl

@[simp] theorem error_bind (err : ε) (f : α → Except ε β) :
    ((Except.error err : Except ε α) >>= f) = .error err := rfl

@[simp] theorem pure_eq_ok (a : α) : (pure a : Except ε α) = .ok a := rfl

@[simp] theorem lift_ok (wrap : ε → ValidationError) (a : α) :
    (lift wrap (.ok a) : Except ValidationError α) = .ok a := rfl

@[simp] theorem lift_error (wrap : ε → ValidationError) (err : ε) :
    (lift wrap (.error err : Except ε α) : Except ValidationError α) = .error (wrap err) := rfl

theorem lift_eq_ok_iff {wrap : ε → ValidationError} {x : Except ε α} {a : α} :
    (lift wrap x : Except ValidationError α) = .ok a ↔ x = .ok a := by
  cases x <;> simp

/-- A computation fails or completes. -/
theorem error_or_ok (x : Except ε α) : (∃ err, x = .error err) ∨ ∃ a, x = .ok a := by
  cases x with
  | error err => exact Or.inl ⟨err, rfl⟩
  | ok a => exact Or.inr ⟨a, rfl⟩

/-- What has a result is what completes. -/
theorem eq_ok_of_mem_toOption {x : Except ε α} {a : α} (h : a ∈ x.toOption) : x = .ok a := by
  cases x with
  | error err => cases h
  | ok b => exact congrArg Except.ok (Option.some.inj h)

theorem exists_ok_of_toOption_map {x : Except ε α} {f : α → β} {b : β}
    (h : x.toOption.map f = some b) : ∃ a, x = .ok a ∧ f a = b := by
  cases x with
  | error err => cases h
  | ok a => exact ⟨a, rfl, Option.some.inj h⟩

/-! ## Gathering -/

theorem gather_nil (f : α → Except ε (List β)) : gather f [] = .ok [] := rfl

theorem gather_cons (f : α → Except ε (List β)) (a : α) (l : List α) :
    gather f (a :: l) = (do return (← f a) ++ (← gather f l)) := rfl

theorem gather_singleton (f : α → Except ε (List β)) (a : α) : gather f [a] = f a := by
  rw [gather_cons, gather_nil]
  cases f a <;> simp

theorem gather_congr {f g : α → Except ε (List β)} {l : List α} (h : ∀ a ∈ l, f a = g a) :
    gather f l = gather g l := by
  induction l with
  | nil => rfl
  | cons a l ih =>
    rw [gather_cons, gather_cons, h a List.mem_cons_self,
      ih fun b hb => h b (List.mem_cons_of_mem a hb)]

theorem gather_map (f : β → Except ε (List γ)) (g : α → β) (l : List α) :
    gather f (l.map g) = gather (fun a => f (g a)) l := by
  induction l with
  | nil => rfl
  | cons a l ih => rw [List.map_cons, gather_cons, gather_cons, ih]

/-- Parts that all complete are joined. -/
theorem gather_of_forall_ok {f : α → Except ε (List β)} {g : α → List β} {l : List α}
    (h : ∀ a ∈ l, f a = .ok (g a)) : gather f l = .ok (l.flatMap g) := by
  induction l with
  | nil => rfl
  | cons a l ih =>
    rw [gather_cons, h a List.mem_cons_self, ih fun b hb => h b (List.mem_cons_of_mem a hb)]
    rfl

/-- The first part that fails decides. -/
theorem gather_of_first_error {f : α → Except ε (List β)} {before after : List α} {a : α} {err : ε}
    (hb : ∀ b ∈ before, ∃ r, f b = .ok r) (ha : f a = .error err) :
    gather f (before ++ a :: after) = .error err := by
  induction before with
  | nil => rw [List.nil_append, gather_cons, ha]; rfl
  | cons b before ih =>
    obtain ⟨r, hr⟩ := hb b List.mem_cons_self
    rw [List.cons_append, gather_cons, hr, ih fun c hc => hb c (List.mem_cons_of_mem b hc)]
    rfl

/-- Either every part completes, or one of them is the first to fail. -/
theorem forall_ok_or_first_error (f : α → Except ε (List β)) (l : List α) :
    (∃ g : α → List β, ∀ a ∈ l, f a = .ok (g a)) ∨
      ∃ before a after err, l = before ++ a :: after ∧ (∀ b ∈ before, ∃ r, f b = .ok r) ∧
        f a = .error err := by
  by_cases h : ∀ a ∈ l, ∃ r, f a = .ok r
  · refine Or.inl ⟨fun a => ((f a).toOption).getD [], fun a ha => ?_⟩
    obtain ⟨r, hr⟩ := h a ha
    simp [hr, Except.toOption]
  · right
    induction l with
    | nil => exact absurd (fun _ ha => absurd ha List.not_mem_nil) h
    | cons a l ih =>
      rcases error_or_ok (f a) with ⟨err, ha⟩ | ⟨r, ha⟩
      · exact ⟨[], a, l, err, rfl, fun _ hb => absurd hb List.not_mem_nil, ha⟩
      · have hl : ¬ ∀ b ∈ l, ∃ r, f b = .ok r := fun hl => h fun b hb => by
          rcases List.mem_cons.mp hb with rfl | hb
          · exact ⟨r, ha⟩
          · exact hl b hb
        obtain ⟨before, b, after, err, rfl, hb, herr⟩ := ih hl
        refine ⟨a :: before, b, after, err, rfl, fun c hc => ?_, herr⟩
        rcases List.mem_cons.mp hc with rfl | hc
        · exact ⟨r, ha⟩
        · exact hb c hc

/-- **Gathering completes exactly if every part does**, and then it gives the findings joined. -/
theorem gather_eq_ok_iff {f : α → Except ε (List β)} {l : List α} {out : List β} :
    gather f l = .ok out ↔ ∃ g : α → List β, (∀ a ∈ l, f a = .ok (g a)) ∧ out = l.flatMap g := by
  constructor
  · intro h
    rcases forall_ok_or_first_error f l with ⟨g, hg⟩ | ⟨before, a, after, err, rfl, hb, ha⟩
    · rw [gather_of_forall_ok hg] at h
      exact ⟨g, hg, (Except.ok.inj h).symm⟩
    · rw [gather_of_first_error hb ha] at h
      cases h
  · rintro ⟨g, hg, rfl⟩
    exact gather_of_forall_ok hg

/-- **Gathering fails exactly with the first part that fails.** -/
theorem gather_eq_error_iff {f : α → Except ε (List β)} {l : List α} {err : ε} :
    gather f l = .error err ↔ ∃ before a after, l = before ++ a :: after ∧
      (∀ b ∈ before, ∃ r, f b = .ok r) ∧ f a = .error err := by
  constructor
  · intro h
    rcases forall_ok_or_first_error f l with ⟨g, hg⟩ | ⟨before, a, after, err', rfl, hb, ha⟩
    · rw [gather_of_forall_ok hg] at h
      cases h
    · rw [gather_of_first_error hb ha] at h
      cases h
      exact ⟨before, a, after, rfl, hb, ha⟩
  · rintro ⟨before, a, after, rfl, hb, ha⟩
    exact gather_of_first_error hb ha

/-- Gathering fails exactly if some part does. -/
theorem exists_gather_eq_error_iff {f : α → Except ε (List β)} {l : List α} :
    (∃ err, gather f l = .error err) ↔ ∃ a ∈ l, ∃ err, f a = .error err := by
  constructor
  · rintro ⟨err, h⟩
    obtain ⟨before, a, after, rfl, -, ha⟩ := gather_eq_error_iff.mp h
    exact ⟨a, by simp, err, ha⟩
  · rintro ⟨a, hmem, err, ha⟩
    rcases error_or_ok (gather f l) with h | ⟨out, h⟩
    · exact h
    · obtain ⟨g, hg, -⟩ := gather_eq_ok_iff.mp h
      rw [hg a hmem] at ha
      cases ha

theorem gather_append (f : α → Except ε (List β)) (l l' : List α) :
    gather f (l ++ l') = (do return (← gather f l) ++ (← gather f l')) := by
  induction l with
  | nil =>
    rw [List.nil_append, gather_nil]
    cases gather f l' <;> simp
  | cons a l ih =>
    rw [List.cons_append, gather_cons, gather_cons, ih]
    cases f a with
    | error err => rfl
    | ok r =>
      cases gather f l with
      | error err => rfl
      | ok rs => cases gather f l' <;> simp

/-- **Gathering part by part is gathering all at once**, also when several parts fail. -/
theorem gather_flatten (f : α → Except ε (List β)) (ls : List (List α)) :
    gather (gather f) ls = gather f ls.flatten := by
  induction ls with
  | nil => rfl
  | cons l ls ih => rw [List.flatten_cons, gather_append, gather_cons, ih]

/-! ## Outcomes up to a view -/

/-- A violation apart from its text: its kind, its constraint and its entity. -/
def Violation.substance (v : Violation) : Violation.Kind × Option Constraint × Option Entity :=
  (v.kind, v.constraint, v.entity)

/-- The computation fails exactly under a condition, and otherwise gives what is wanted, seen
through a view of the findings. -/
def Settles {δ : Type} (x : Except ε (List β)) (view : β → δ) (bad : Prop) (want : List δ) : Prop :=
  (bad ∧ ∃ err, x = .error err) ∨ (¬ bad ∧ ∃ out, x = .ok out ∧ out.map view = want)

/-- Two computations both fail, or give the same, seen through a view of the findings. -/
def Alike {δ : Type} (view : β → δ) (x y : Except ε (List β)) : Prop :=
  (∃ err err', x = .error err ∧ y = .error err') ∨
    ∃ out out', x = .ok out ∧ y = .ok out' ∧ out.map view = out'.map view

/-- Parts that settle are gathered to something that settles. -/
theorem gather_settles {δ : Type} {f : α → Except ε (List β)} {view : β → δ} {bad : α → Prop}
    {want : α → List δ} {l : List α} (h : ∀ a ∈ l, Settles (f a) view (bad a) (want a)) :
    Settles (gather f l) view (∃ a ∈ l, bad a) (l.flatMap want) := by
  by_cases hbad : ∃ a ∈ l, bad a
  · refine Or.inl ⟨hbad, exists_gather_eq_error_iff.mpr ?_⟩
    obtain ⟨a, ha, hba⟩ := hbad
    rcases h a ha with ⟨-, herr⟩ | ⟨hnot, -⟩
    · exact ⟨a, ha, herr⟩
    · exact absurd hba hnot
  · refine Or.inr ⟨hbad, ?_⟩
    have hok : ∀ a ∈ l, ∃ out, f a = .ok out ∧ out.map view = want a := fun a ha => by
      rcases h a ha with ⟨hba, -⟩ | ⟨-, hout⟩
      · exact absurd ⟨a, ha, hba⟩ hbad
      · exact hout
    rcases error_or_ok (gather f l) with herr | ⟨out, hout⟩
    · obtain ⟨a, ha, err, herr⟩ := exists_gather_eq_error_iff.mp herr
      obtain ⟨out, hout, -⟩ := hok a ha
      rw [herr] at hout
      cases hout
    · obtain ⟨g, hg, rfl⟩ := gather_eq_ok_iff.mp hout
      refine ⟨_, hout, ?_⟩
      rw [List.map_flatMap]
      refine List.flatMap_congr fun a ha => ?_
      obtain ⟨out', hout', hview⟩ := hok a ha
      rw [hg a ha] at hout'
      rw [← hview, Except.ok.inj hout']

/-- A computation settles as it does. -/
theorem settles_self {δ : Type} (x : Except ε (List β)) (view : β → δ) :
    Settles x view (∃ err, x = .error err) (x.toOption.elim [] (List.map view)) := by
  cases x with
  | error err => exact Or.inl ⟨⟨err, rfl⟩, err, rfl⟩
  | ok out => exact Or.inr ⟨by simp, out, rfl, rfl⟩

theorem Settles.append {δ : Type} {x y : Except ε (List β)} {view : β → δ} {bad bad' : Prop}
    {want want' : List δ} (hx : Settles x view bad want) (hy : Settles y view bad' want') :
    Settles (do return (← x) ++ (← y)) view (bad ∨ bad') (want ++ want') := by
  rcases hx with ⟨hbad, err, rfl⟩ | ⟨hgood, out, rfl, rfl⟩
  · exact Or.inl ⟨Or.inl hbad, err, rfl⟩
  · rcases hy with ⟨hbad', err, rfl⟩ | ⟨hgood', out', rfl, rfl⟩
    · exact Or.inl ⟨Or.inr hbad', err, rfl⟩
    · refine Or.inr ⟨fun h => h.elim hgood hgood', out ++ out', rfl, ?_⟩
      rw [List.map_append]

theorem Settles.congr {δ : Type} {x : Except ε (List β)} {view : β → δ} {bad bad' : Prop}
    {want : List δ} (h : Settles x view bad want) (hbad : bad ↔ bad') :
    Settles x view bad' want := by
  rwa [← propext hbad]

theorem Alike.error_iff {δ : Type} {x y : Except ε (List β)} {view : β → δ}
    (h : Alike view x y) : (∃ err, x = .error err) ↔ ∃ err, y = .error err := by
  rcases h with ⟨err, err', rfl, rfl⟩ | ⟨out, out', rfl, rfl, -⟩ <;> simp

/-- What is alike settles alike. -/
theorem Alike.settles {δ : Type} {x y : Except ε (List β)} {view : β → δ} {bad : Prop}
    {want : List δ} (h : Alike view x y) (hx : Settles x view bad want) :
    Settles y view bad want := by
  rcases h with ⟨err, err', rfl, rfl⟩ | ⟨out, out', rfl, rfl, hview⟩
  · rcases hx with ⟨hbad, -⟩ | ⟨-, _, h, -⟩
    · exact Or.inl ⟨hbad, err', rfl⟩
    · cases h
  · rcases hx with ⟨-, _, h⟩ | ⟨hgood, _, h, hwant⟩
    · cases h
    · cases h
      exact Or.inr ⟨hgood, out', rfl, hview.symm.trans hwant⟩

/-- Two computations that settle are alike if both are bad, or neither is and the same is wanted of
them. -/
theorem alike_iff_of_settles {δ : Type} {x y : Except ε (List β)} {view : β → δ}
    {bad bad' : Prop} {want want' : List δ} (hx : Settles x view bad want)
    (hy : Settles y view bad' want') :
    Alike view x y ↔ (bad ∧ bad') ∨ (¬ bad ∧ ¬ bad' ∧ want = want') := by
  rcases hx with ⟨hbad, err, rfl⟩ | ⟨hgood, out, rfl, rfl⟩
  · rcases hy with ⟨hbad', err', rfl⟩ | ⟨hgood', out', rfl, rfl⟩
    · simp [Alike, hbad, hbad']
    · simp [Alike, hbad, hgood']
  · rcases hy with ⟨hbad', err', rfl⟩ | ⟨hgood', out', rfl, rfl⟩
    · simp [Alike, hgood, hbad']
    · simp [Alike, hgood, hgood']

theorem Alike.of_settles {δ : Type} {x y : Except ε (List β)} {view : β → δ} {bad : Prop}
    {want : List δ} (hx : Settles x view bad want) (hy : Settles y view bad want) :
    Alike view x y := by
  rw [alike_iff_of_settles hx hy]
  by_cases hbad : bad
  · exact Or.inl ⟨hbad, hbad⟩
  · exact Or.inr ⟨hbad, hbad, rfl⟩

theorem Alike.refl {δ : Type} (view : β → δ) (x : Except ε (List β)) : Alike view x x :=
  .of_settles (settles_self x view) (settles_self x view)

theorem Alike.bind {δ : Type} {view : β → δ} (x : Except ε α) {f g : α → Except ε (List β)}
    (h : ∀ a, x = .ok a → Alike view (f a) (g a)) : Alike view (x >>= f) (x >>= g) := by
  cases x with
  | error err => exact Or.inl ⟨err, err, rfl, rfl⟩
  | ok a => exact h a rfl

theorem Alike.append {δ : Type} {view : β → δ} {x x' y y' : Except ε (List β)}
    (hx : Alike view x x') (hy : Alike view y y') :
    Alike view (do return (← x) ++ (← y)) (do return (← x') ++ (← y')) :=
  .of_settles ((settles_self x view).append (settles_self y view))
    ((hx.settles (settles_self x view)).append (hy.settles (settles_self y view)))

/-- Parts that are alike are gathered alike. -/
theorem gather_alike {δ : Type} {view : β → δ} {f g : α → Except ε (List β)} {l : List α}
    (h : ∀ a ∈ l, Alike view (f a) (g a)) : Alike view (gather f l) (gather g l) :=
  .of_settles (gather_settles fun a _ => settles_self (f a) view)
    (gather_settles fun a ha => (h a ha).settles (settles_self (f a) view))

theorem map_eq_of_map_eq {δ δ' : Type} {f : β → δ} {g : β → δ'} {l l' : List β}
    (h : ∀ a ∈ l, ∀ b ∈ l', f a = f b → g a = g b) (heq : l.map f = l'.map f) :
    l.map g = l'.map g := by
  induction l generalizing l' with
  | nil =>
    rw [List.map_nil, eq_comm, List.map_eq_nil_iff] at heq
    rw [heq]
  | cons a l ih =>
    cases l' with
    | nil => cases heq
    | cons b l' =>
      obtain ⟨hhead, htail⟩ := List.cons.inj heq
      rw [List.map_cons, List.map_cons, h a List.mem_cons_self b List.mem_cons_self hhead,
        ih (fun x hx y hy => h x (List.mem_cons_of_mem a hx) y (List.mem_cons_of_mem b hy)) htail]

/-- What is alike in one view is alike in another, if the one decides the other on the findings. -/
theorem Alike.view {δ δ' : Type} {x y : Except ε (List β)} {view : β → δ} {view' : β → δ'}
    (h : Alike view x y) (hview : ∀ out out', x = .ok out → y = .ok out' →
      ∀ a ∈ out, ∀ b ∈ out', view a = view b → view' a = view' b) : Alike view' x y := by
  rcases h with herr | ⟨out, out', hx, hy, heq⟩
  · exact Or.inl herr
  · exact Or.inr ⟨out, out', hx, hy, map_eq_of_map_eq (hview out out' hx hy) heq⟩

theorem alike_iff_toOption {δ : Type} {x y : Except ε (List β)} {view : β → δ} :
    Alike view x y ↔ x.toOption.map (List.map view) = y.toOption.map (List.map view) := by
  cases x <;> cases y <;> simp [Alike, Except.toOption]

instance {δ : Type} [DecidableEq δ] (view : β → δ) (x y : Except ε (List β)) :
    Decidable (Alike view x y) :=
  decidable_of_iff _ alike_iff_toOption.symm

/-! ## Parts of a check -/

namespace Run

variable {m : Type → Type} [Monad m] [LawfulMonad m] [MonadExceptOf ValidationError m] {r : Run m}

/-- Where related entities are looked at, a type is checked in two parts: by its own constraints,
and by those on the referrers. -/
theorem checkType_of_related (h : r.settings.related = true) (e : Entity) (type : String) :
    r.checkType e type = (do
      return (← lift .schema (r.schema.constraintsFor type true) >>=
          gather (r.checkConstraint e)) ++
        (← lift .schema (r.schema.inverseConstraintsFor type true) >>=
          gather (r.checkInverse · e))) := by
  unfold checkType
  simp only [h, if_true, bind_assoc]

/-- Otherwise it is checked by its own constraints alone. -/
theorem checkType_of_not_related (h : r.settings.related = false) (e : Entity) (type : String) :
    r.checkType e type =
      lift .schema (r.schema.constraintsFor type true) >>= gather (r.checkConstraint e) := by
  unfold checkType
  simp only [h, Bool.false_eq_true, if_false, bind_pure]

end Run

/-! ## Starting a run -/

/-- An entity with a type and nothing else. -/
def Entity.ofType (id type : String) : Entity :=
  ({ id } : Entity).setReference Vocabulary.rdfType (.one type)

namespace Validator

variable (v : Validator (Except ValidationError)) (s : Schema)

/-- The validator with default settings that nothing stops. -/
def plain : Validator (Except ValidationError) := { signals := .quiet }

/-- The step of a run over a batch. -/
def step (r : Run (Except ValidationError)) (e : Entity) :
    Except ValidationError (List Violation) := do
  r.proceed
  r.checkEntity e

theorem checkEntities_eq_gather (r : Run (Except ValidationError)) (es : List Entity) :
    r.checkEntities es = gather (step r) es := rfl

theorem validateEntity_of_start {r : Run (Except ValidationError)} (h : v.start s = .ok r)
    (e : Entity) : v.validateEntity s e = step r e := by
  unfold validateEntity validateEntities
  rw [h, ok_bind, checkEntities_eq_gather, gather_singleton]

/-- A run that cannot start fails alike for one entity and for a batch. -/
theorem validateEntities_of_start_error {err : ValidationError} (h : v.start s = .error err)
    (es : List Entity) : v.validateEntities s es = .error err := by
  unfold validateEntities
  rw [h, error_bind]

/-- What is known of a run that a validator has started. -/
structure Started (r : Run (Except ValidationError)) : Prop where
  schema : r.schema = s
  settings : r.settings = v.settings
  provider? : r.provider? = v.provider?
  rules : r.rules = v.rules
  proceed : r.proceed = .ok ()

variable {v s} in
theorem started_of_start {r : Run (Except ValidationError)} (h : v.start s = .ok r) :
    v.Started s r := by
  unfold start at h
  obtain ⟨started, -, h⟩ := bind_eq_ok_iff.mp h
  have hrest : (do
      let r : Run (Except ValidationError) :=
        ⟨s, v.settings, v.provider?, v.rules, v.signals, started⟩
      r.proceed
      return r) = .ok r := by
    simp only at h
    split at h
    · cases h
    · exact h
  obtain ⟨⟨⟩, hproceed, hr⟩ := bind_eq_ok_iff.mp hrest
  obtain rfl := Except.ok.inj hr
  exact ⟨rfl, rfl, rfl, rfl, hproceed⟩

variable {v s} in
/-- A validation completes exactly if its run starts and the check completes. -/
theorem validateEntity_eq_ok_iff {e : Entity} {vs : List Violation} :
    v.validateEntity s e = .ok vs ↔ ∃ r, v.start s = .ok r ∧ r.checkEntity e = .ok vs := by
  cases hstart : v.start s with
  | error err =>
    unfold validateEntity
    rw [validateEntities_of_start_error v s hstart]
    simp
  | ok r =>
    rw [validateEntity_of_start v s hstart]
    unfold step
    rw [(started_of_start hstart).proceed, ok_bind]
    simp

end Validator

end EntityGraph
