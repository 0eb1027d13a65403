import Mathlib.Data.List.Forall2

/-!
# Lists related element by element

What holds of two lists whose elements are related in their order: what can be made of the one is
made of the other, and what is read off both alike is the same.

Results:
* `exists_forall₂_iff`: a list has a related one exactly if each of its elements has.
* `exists_forall₂_of_forall₂`: what is made of related elements one by one is related again.
* `map_eq_of_forall₂`: what is read off related elements alike is the same list.
* `exists_append_of_forall₂`, `exists_split_of_forall₂`: related lists are cut at the same places.
-/

namespace EntityGraph

variable {α β γ : Type} {R : α → β → Prop}

/-! ## Existence -/

theorem exists_forall₂_iff {l : List α} :
    (∃ l', List.Forall₂ R l l') ↔ ∀ a ∈ l, ∃ b, R a b := by
  induction l with
  | nil => exact ⟨fun _ _ h => absurd h List.not_mem_nil, fun _ => ⟨[], .nil⟩⟩
  | cons a l ih =>
    rw [List.forall_mem_cons, ← ih]
    constructor
    · rintro ⟨_, h⟩
      obtain ⟨b, l', hb, hl', -⟩ := List.forall₂_cons_left_iff.mp h
      exact ⟨⟨b, hb⟩, l', hl'⟩
    · rintro ⟨⟨b, hb⟩, l', hl'⟩
      exact ⟨b :: l', .cons hb hl'⟩

/-- What is made of each element is made, in a related way, of the elements related to them. -/
theorem exists_forall₂_of_forall₂ {α' β' : Type} {R : α → α' → Prop} {S : α → β → Prop}
    {T : α' → β' → Prop} {U : β → β' → Prop} {l : List α} {l' : List α'} {out : List β}
    (h : List.Forall₂ R l l') (hout : List.Forall₂ S l out)
    (hstep : ∀ a a' b, R a a' → S a b → ∃ b', T a' b' ∧ U b b') :
    ∃ out', List.Forall₂ T l' out' ∧ List.Forall₂ U out out' := by
  induction h generalizing out with
  | nil =>
    obtain rfl := List.forall₂_nil_left_iff.mp hout
    exact ⟨[], .nil, .nil⟩
  | cons ha _ ih =>
    obtain ⟨b, out, hb, hrest, rfl⟩ := List.forall₂_cons_left_iff.mp hout
    obtain ⟨b', hb', hrel⟩ := hstep _ _ _ ha hb
    obtain ⟨out', hout', hall⟩ := ih hrest
    exact ⟨b' :: out', .cons hb' hout', .cons hrel hall⟩

theorem exists_mem_of_forall₂ {l : List α} {l' : List β} (h : List.Forall₂ R l l') {a : α}
    (ha : a ∈ l) : ∃ b ∈ l', R a b := by
  induction h with
  | nil => cases ha
  | cons hhead _ ih =>
    rcases List.mem_cons.mp ha with rfl | ha
    · exact ⟨_, List.mem_cons_self, hhead⟩
    · obtain ⟨b, hb, hab⟩ := ih ha
      exact ⟨b, List.mem_cons_of_mem _ hb, hab⟩

/-! ## Composition -/

theorem forall₂_trans {S : β → γ → Prop} {T : α → γ → Prop}
    (hstep : ∀ a b c, R a b → S b c → T a c) {as : List α} {bs : List β} {cs : List γ}
    (h : List.Forall₂ R as bs) (h' : List.Forall₂ S bs cs) : List.Forall₂ T as cs := by
  induction h generalizing cs with
  | nil =>
    rw [List.forall₂_nil_left_iff.mp h']
    exact .nil
  | cons hab _ ih =>
    obtain ⟨c, cs, hbc, hrest, rfl⟩ := List.forall₂_cons_left_iff.mp h'
    exact .cons (hstep _ _ _ hab hbc) (ih hrest)

/-- Related elements are related in a second way exactly if each of them has what this depends
on. -/
theorem forall₂_iff_forall {S : α → β → Prop} {P : α → Prop} {as : List α} {bs : List β}
    (h : List.Forall₂ R as bs) (hiff : ∀ a b, R a b → (S a b ↔ P a)) :
    List.Forall₂ S as bs ↔ ∀ a ∈ as, P a := by
  induction h with
  | nil => exact iff_of_true .nil fun _ h => absurd h List.not_mem_nil
  | cons hab _ ih => rw [List.forall₂_cons, List.forall_mem_cons, hiff _ _ hab, ih]

/-! ## What is read off -/

section

variable {l : List α} {l' : List β}

/-- What is read off related elements alike is the same list. -/
theorem map_eq_of_forall₂ {f : α → γ} {g : β → γ} (h : List.Forall₂ R l l')
    (hfg : ∀ a b, R a b → f a = g b) : l.map f = l'.map g := by
  have hmap : List.Forall₂ Eq (l.map f) (l'.map g) := List.rel_map (fun _ _ hab => hfg _ _ hab) h
  rwa [List.forall₂_eq_eq_eq] at hmap

theorem filterMap_eq_of_forall₂ {f : α → Option γ} {g : β → Option γ} (h : List.Forall₂ R l l')
    (hfg : ∀ a b, R a b → f a = g b) : l.filterMap f = l'.filterMap g := by
  have hmap := congrArg (List.filterMap id) (map_eq_of_forall₂ h hfg)
  simpa only [List.filterMap_map, Function.id_comp] using hmap

theorem any_eq_of_forall₂ {f : α → Bool} {g : β → Bool} (h : List.Forall₂ R l l')
    (hfg : ∀ a b, R a b → f a = g b) : l.any f = l'.any g := by
  have hmap := congrArg (List.any · id) (map_eq_of_forall₂ h hfg)
  simpa only [List.any_map, Function.id_comp] using hmap

end

/-! ## Cuts -/

theorem exists_append_of_forall₂ {l₁ l₂ : List α} {l : List β}
    (h : List.Forall₂ R (l₁ ++ l₂) l) :
    ∃ l₁' l₂', l = l₁' ++ l₂' ∧ List.Forall₂ R l₁ l₁' ∧ List.Forall₂ R l₂ l₂' := by
  have hflip : List.Forall₂ (flip R) l (l₁ ++ l₂) := h.flip
  exact ⟨_, _, (List.take_append_drop l₁.length l).symm,
    (List.forall₂_take_append _ _ _ hflip).flip, (List.forall₂_drop_append _ _ _ hflip).flip⟩

/-- An element stands where the one related to it stands. -/
theorem exists_split_of_forall₂ {l : List α} {before after : List β} {b : β}
    (h : List.Forall₂ R l (before ++ b :: after)) : ∃ before' a after',
      l = before' ++ a :: after' ∧ List.Forall₂ R before' before ∧ R a b := by
  obtain ⟨a, after', hab, -, hdrop⟩ :=
    List.forall₂_cons_right_iff.mp (List.forall₂_drop_append _ _ _ h)
  refine ⟨_, a, after', ?_, List.forall₂_take_append _ _ _ h, hab⟩
  rw [← hdrop, List.take_append_drop]

end EntityGraph
