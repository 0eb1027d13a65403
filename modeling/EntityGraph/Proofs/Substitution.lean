import EntityGraph.Proofs.Abstractness
import EntityGraph.Proofs.Expansion
import EntityGraph.Proofs.OpenWorld
import Mathlib.Data.List.Infix

/-!
# Substitution along the hierarchy

What holds an entity as an instance of a class also holds it as an instance of any ancestor: the
line of the ancestor is a suffix of the line of the class, and so are its constraints. Apart from
the constraints against instances, no check looks at the declared type, and so a validation of the
entity as an ancestor reports part of what it reports as a descendant.

Results:
* `entriesFor_suffix`: what a table lists for an ancestor is a suffix of what it lists for a class.
* `checkType_covers`: what is found of an entity at an ancestor was found at the class.
* `validateEntity_subclass`: a validation as a class covers the validation as an ancestor.
-/

namespace EntityGraph

/-! ## Lines of ancestors -/

namespace Schema

variable {s : Schema}

/-- The line of a class that is on a line is what comes after it. -/
theorem Lineage.exists_suffix {cls a : EntityClass} {as : List EntityClass} (h : s.Lineage cls as)
    (ha : a ∈ as) : ∃ bs, s.Lineage a bs ∧ (a :: bs) <:+ as := by
  induction h with
  | root _ => exact absurd ha List.not_mem_nil
  | @step cls parent ancestors _ _ _ h ih =>
    rcases List.mem_cons.mp ha with rfl | ha
    · exact ⟨ancestors, h, List.suffix_refl _⟩
    · obtain ⟨bs, hbs, hsuffix⟩ := ih ha
      exact ⟨bs, hbs, hsuffix.trans (List.suffix_cons parent ancestors)⟩

theorem entriesAt_congr {a b : String} (h : s.namespaces.same a b = true)
    (table : OrderedMap String (List Constraint)) : s.entriesAt table a = s.entriesAt table b := by
  unfold entriesAt
  rw [Namespaces.same_iff.mp h]

namespace FromExpanded

theorem entityClass?_congr (hs : s.FromExpanded) {a b : String}
    (h : s.namespaces.same a b = true) : s.entityClass? a = s.entityClass? b := by
  ext cls
  rw [hs.entityClass?_eq_some_iff, hs.entityClass?_eq_some_iff, hs.declares_iff, hs.declares_iff,
    Namespaces.same_iff.mp h]

/-- Identifiers that denote the same have the same entries. -/
theorem entriesFor_congr (hs : s.FromExpanded) {a b : String} (h : s.namespaces.same a b = true)
    (table : OrderedMap String (List Constraint)) (inherited : Bool) :
    s.entriesFor table a inherited = s.entriesFor table b inherited := by
  unfold entriesFor hierarchy
  rw [hs.entityClass?_congr h, entriesAt_congr h]
  simp only [List.flatMap_cons, entriesAt_congr h]
  cases s.entityClass? b with
  | none => simp
  | some cls => rfl

/-- The entries of a class with a line are those of the class and of its ancestors. -/
theorem entriesFor_of_lineage (hs : s.FromExpanded) {id : String} {cls : EntityClass}
    {as : List EntityClass} (hd : s.Declares id cls) (hl : s.Lineage cls as)
    (table : OrderedMap String (List Constraint)) :
    s.entriesFor table id true =
      .ok ((cls :: as).flatMap fun a => s.entriesAt table a.id) := by
  have hself : s.entriesAt table id = s.entriesAt table cls.id :=
    (entriesAt_congr hd.2 table).symm
  unfold entriesFor
  rw [hs.entityClass?_eq_some_iff.mpr hd, (hs.hierarchy_eq_ok_iff hd).mpr ⟨as, hl, rfl⟩]
  simp only [Bool.true_and, Option.isSome_some, if_true, Except.map, List.flatMap_cons, hself,
    List.flatMap_map]

/-- A class is a subclass of another if both denote the same, or the other is on its line. -/
theorem isSubclassOf_cases (hs : s.FromExpanded) {a b : String}
    (h : s.isSubclassOf a b = .ok true) :
    s.namespaces.same a b = true ∨ ∃ cls as ancestor, s.Declares a cls ∧ s.Lineage cls as ∧
      ancestor ∈ as ∧ s.Declares b ancestor := by
  unfold isSubclassOf at h
  split at h
  · exact Or.inl ‹_›
  · right
    split at h
    · cases h
    · rename_i hsome
      rw [Option.isNone_iff_eq_none, ← ne_eq, Option.ne_none_iff_exists'] at hsome
      obtain ⟨cls, hcls⟩ := hsome
      have hd := hs.entityClass?_eq_some_iff.mp hcls
      obtain ⟨chain, hchain, hany⟩ := map_eq_ok_iff.mp h
      obtain ⟨as, hl, rfl⟩ := (hs.hierarchy_eq_ok_iff hd).mp hchain
      obtain ⟨id, hid, hsame⟩ := List.any_eq_true.mp hany
      obtain ⟨ancestor, hmem, rfl⟩ := List.mem_map.mp hid
      exact ⟨cls, as, ancestor, hd, hl, hmem, hl.mem_classes ancestor hmem, hsame⟩

/-- **What a table lists for an ancestor is a suffix of what it lists for a class.** -/
theorem entriesFor_suffix (hs : s.FromExpanded) {a b : String} (h : s.isSubclassOf a b = .ok true)
    {table : OrderedMap String (List Constraint)} {cs : List Constraint}
    (hcs : s.entriesFor table a true = .ok cs) :
    ∃ ds, s.entriesFor table b true = .ok ds ∧ ds <:+ cs := by
  rcases hs.isSubclassOf_cases h with hsame | ⟨cls, as, ancestor, hda, hl, hmem, hdb⟩
  · exact ⟨cs, (hs.entriesFor_congr hsame table true).symm.trans hcs, List.suffix_refl cs⟩
  · obtain ⟨bs, hlb, before, hsplit⟩ := hl.exists_suffix hmem
    rw [hs.entriesFor_of_lineage hda hl] at hcs
    obtain rfl := Except.ok.inj hcs
    refine ⟨_, hs.entriesFor_of_lineage hdb hlb table,
      (cls :: before).flatMap fun a => s.entriesAt table a.id, ?_⟩
    rw [← hsplit, ← List.flatMap_append, List.cons_append]

end FromExpanded

end Schema

/-! ## Identifiers in an expanded collection -/

/-- What an expanded slot holds are expansions. -/
theorem Slot.exists_expand_of_mem {ns : Namespaces} {slot slot' : Slot String}
    (h : slot.mapE ns.expand = .ok slot') {t : String} (ht : t ∈ slot'.toList) :
    ∃ a, ns.expand a = .ok t := by
  unfold mapE at h
  cases slot with
  | one a =>
    obtain ⟨u, hu, rfl⟩ := map_eq_ok_iff.mp h
    exact ⟨a, List.mem_singleton.mp ht ▸ hu⟩
  | many as =>
    obtain ⟨us, hus, rfl⟩ := map_eq_ok_iff.mp h
    have hback := (mapM_eq_ok_iff.mp hus).flip
    obtain ⟨a, -, ha⟩ := exists_mem_of_forall₂ hback ht
    exact ⟨a, ha⟩

/-- The targets in an expanded entity are canonical. -/
theorem Entity.canonical_of_mem_expanded {ns : Namespaces} (hns : ns.FullExpansions)
    {e e' : Entity} (h : e.expand ns = ⟨e', none⟩) {p t : String} (ht : t ∈ e'.referenceValues p) :
    ns.canonical t = t := by
  obtain ⟨-, -, hreferences, -⟩ := expand_eq_iff.mp h
  unfold referenceValues reference? at ht
  rw [hreferences.get?_eq] at ht
  cases hlast : e.references.last? ns p with
  | none =>
    rw [hlast] at ht
    cases ht
  | some slot =>
    rw [hlast, Option.bind_some] at ht
    cases hslot : slot.mapE ns.expand with
    | error err =>
      rw [hslot] at ht
      cases ht
    | ok slot' =>
      rw [hslot] at ht
      obtain ⟨a, ha⟩ := Slot.exists_expand_of_mem hslot ht
      exact Namespaces.canonical_of_expand_eq hns ha

namespace Schema.FromExpanded

variable {s : Schema}

/-- The references that constraints name are canonical. -/
theorem canonical_referenceClass (hs : s.FromExpanded) {c : Constraint} (hc : c ∈ s.constraints)
    {p : String} (hp : c.referenceClass = .ok p) : s.namespaces.canonical p = p := by
  obtain ⟨col, col', hexpanded, rfl⟩ := hs.source
  obtain ⟨es, hes, -, rfl⟩ := Collection.expanded_eq_ok_iff.mp hexpanded
  have hentity : c.entity ∈ es := by
    obtain ⟨e, he, hdef⟩ := List.mem_filterMap.mp hc
    unfold constraint? at hdef
    split at hdef
    · obtain rfl := Option.some.inj hdef
      exact he
    · cases hdef
  obtain ⟨e, -, he⟩ := exists_mem_of_forall₂ hes.flip hentity
  refine Entity.canonical_of_mem_expanded hs.expansions he (p := Vocabulary.referenceClass) ?_
  unfold Constraint.referenceClass Entity.firstReference? at hp
  unfold Entity.referenceValues
  cases hslot : c.entity.reference? Vocabulary.referenceClass with
  | none =>
    rw [hslot] at hp
    cases hp
  | some slot =>
    rw [hslot, Option.bind_some] at hp
    cases hfirst : slot.first? with
    | none =>
      rw [hfirst] at hp
      cases hp
    | some q =>
      rw [hfirst] at hp
      obtain rfl := Except.ok.inj hp
      exact List.mem_of_mem_head? hfirst

end Schema.FromExpanded

theorem canonical_rdfType (ns : Namespaces) :
    ns.canonical Vocabulary.rdfType = Vocabulary.rdfType :=
  Namespaces.canonical_of_expand (Namespaces.expand_of_isFullUri (by decide +kernel))

/-! ## Another type -/

/-- The entity with the types of a slot, and no others. -/
def Entity.retyped (e : Entity) (types : Slot String) : Entity :=
  e.setReference Vocabulary.rdfType types

section

variable {ns : Namespaces}

theorem find?_put_of_not {ν : Type} (test : String → Bool) {k : String} (hk : test k = false)
    (value : ν) (l : List (String × ν)) :
    (OrderedMap.put k value l).find? (fun entry => test entry.1) =
      l.find? fun entry => test entry.1 := by
  induction l with
  | nil => simp [OrderedMap.put, hk]
  | cons entry l ih =>
    by_cases heq : entry.1 = k
    · simp [OrderedMap.put, heq, hk]
    · simp only [OrderedMap.put, if_neg heq, List.find?_cons, ih]

/-- A slot at another predicate is found as before. -/
theorem getSame?_insert_of_not_same {ν : Type} {k p : String} (h : ns.same k p = false)
    (slots : OrderedMap String ν) (value : ν) :
    (slots.insert k value).getSame? ns p = slots.getSame? ns p := by
  have hne : k ≠ p := by
    rintro rfl
    rw [Namespaces.same_refl] at h
    cases h
  unfold OrderedMap.getSame?
  rw [OrderedMap.get?_insert, if_neg hne]
  exact congrArg (fun found => (slots.get? p).or (found.map Prod.snd))
    (find?_put_of_not (fun q => ns.same q p) h value slots.toList)

variable (e : Entity) (types : Slot String)

@[simp] theorem types_retyped : (e.retyped types).types = types.toList := by
  unfold Entity.types Entity.referenceValues Entity.reference? Entity.retyped Entity.setReference
  rw [OrderedMap.get?_insert, if_pos rfl]
  rfl

/-- The targets at a predicate that does not declare types stay. -/
theorem targetsAt_retyped {p : String} (h : ns.same Vocabulary.rdfType p = false) :
    (e.retyped types).targetsAt ns p = e.targetsAt ns p := by
  unfold Entity.targetsAt
  exact congrArg (fun slot => (slot.map Slot.toList).getD [])
    (getSame?_insert_of_not_same h e.references types)

/-- What is undeclared in an entity does not depend on its types. -/
theorem undeclared_retyped (s : Schema) (types' : Slot String) :
    (Violation.undeclared s (e.retyped types)).map Violation.finding =
      (Violation.undeclared s (e.retyped types')).map Violation.finding := by
  have hkeys : (e.retyped types).references.keys = (e.retyped types').references.keys := by
    unfold Entity.retyped Entity.setReference
    rw [OrderedMap.keys_insert, OrderedMap.keys_insert]
  unfold Violation.undeclared
  rw [hkeys, List.map_append, List.map_append, List.map_map, List.map_map, List.map_map,
    List.map_map]
  rfl

end

/-! ## Covering -/

/-- The findings, those about abstract classes apart. -/
def concrete (vs : List Violation) : List Finding :=
  (vs.map Violation.finding).filter fun f => f.kind ≠ .abstractEntityClassViolation

/-- A check covers another one: if it completes then so does the other one, and finds nothing that
was not found, in the same order, abstract classes apart. -/
def Covers (x y : Except ValidationError (List Violation)) : Prop :=
  ∀ vs, x = .ok vs → ∃ ws, y = .ok ws ∧ (concrete ws).Sublist (vs.map Violation.finding)

section

variable {x y x' y' : Except ValidationError (List Violation)}

theorem concrete_append (vs ws : List Violation) :
    concrete (vs ++ ws) = concrete vs ++ concrete ws := by
  unfold concrete
  rw [List.map_append, List.filter_append]

theorem covers_of_reported (h : reported x = reported y) : Covers x y := by
  rintro vs rfl
  cases y with
  | error err => cases h
  | ok ws =>
    have hfindings : vs.map Violation.finding = ws.map Violation.finding := Except.ok.inj h
    refine ⟨ws, rfl, ?_⟩
    unfold concrete
    rw [hfindings]
    exact List.filter_sublist

theorem Covers.append (h : Covers x y) (h' : Covers x' y') :
    Covers (do return (← x) ++ (← x')) (do return (← y) ++ (← y')) := by
  intro out hout
  obtain ⟨vs, hvs, hout⟩ := bind_eq_ok_iff.mp hout
  obtain ⟨vs', hvs', hout⟩ := bind_eq_ok_iff.mp hout
  obtain rfl := Except.ok.inj hout
  obtain ⟨ws, rfl, hsub⟩ := h vs hvs
  obtain ⟨ws', rfl, hsub'⟩ := h' vs' hvs'
  refine ⟨ws ++ ws', rfl, ?_⟩
  rw [concrete_append, List.map_append]
  exact hsub.append hsub'

/-- Fewer parts, each covered, are covered. -/
theorem gather_covers {α : Type} {f g : α → Except ValidationError (List Violation)}
    {l l' : List α} (hl : l'.Sublist l) (h : ∀ a ∈ l', Covers (f a) (g a)) :
    Covers (gather f l) (gather g l') := by
  induction hl with
  | slnil => exact fun vs hvs => ⟨[], rfl, List.nil_sublist _⟩
  | @cons l' l a _ ih =>
    intro out hout
    obtain ⟨vs, -, hout⟩ := bind_eq_ok_iff.mp hout
    obtain ⟨rest, hrest, hout⟩ := bind_eq_ok_iff.mp hout
    obtain rfl := Except.ok.inj hout
    obtain ⟨ws, hws, hsub⟩ := ih h rest hrest
    rw [List.map_append]
    exact ⟨ws, hws, hsub.trans (List.sublist_append_right _ _)⟩
  | @cons_cons l' l a _ ih =>
    exact (h a List.mem_cons_self).append (ih fun b hb => h b (List.mem_cons_of_mem a hb))

end

/-! ## One type and its ancestor -/

section

variable {r : Run (Except ValidationError)} {e : Entity} {a b : Slot String}

/-- Only a constraint against instances asks for the declared types. -/
theorem checkConstraint_covers {c : Constraint}
    (href : c.kind = .reference → ∀ p, c.referenceClass = .ok p →
      r.schema.namespaces.same Vocabulary.rdfType p = false)
    (hrule : c.kind = .application → r.rules.find? r.schema.namespaces c = none) :
    Covers (r.checkConstraint (e.retyped a) c) (r.checkConstraint (e.retyped b) c) := by
  have hid : (e.retyped a).id = (e.retyped b).id := rfl
  unfold Run.checkConstraint
  cases hk : c.kind with
  | property => exact covers_of_reported (Run.checkProperty_of_count hid (fun _ => rfl) c)
  | reference =>
    refine covers_of_reported (checkReference_of_targets hid fun p hp => ?_)
    rw [targetsAt_retyped e a (href hk p hp), targetsAt_retyped e b (href hk p hp)]
  | isAbstract =>
    intro vs hvs
    obtain ⟨cls, hcls, -⟩ := bind_eq_ok_iff.mp hvs
    have hok : ∃ ws, r.checkAbstract c (e.retyped b) = .ok ws := by
      unfold Run.checkAbstract
      rw [hcls, ok_bind]
      split
      · exact ⟨_, rfl⟩
      · exact ⟨_, rfl⟩
    obtain ⟨ws, hws⟩ := hok
    have hnone : concrete ws = [] := by
      unfold concrete
      rw [List.filter_eq_nil_iff]
      rintro f hf hconcrete
      obtain ⟨w, hw, rfl⟩ := List.mem_map.mp hf
      have hkind := List.mem_singleton.mp (kind_of_mem_checkAbstract hws hw)
      exact of_decide_eq_true hconcrete hkind
    refine ⟨ws, hws, ?_⟩
    rw [hnone]
    exact List.nil_sublist _
  | application =>
    refine covers_of_reported ?_
    unfold Run.checkRule
    rw [hrule hk]

/-- What is found by the entries of a table for an ancestor was found by those for a class. -/
theorem lookup_covers {s : Schema} (hs : s.FromExpanded) {A B : String}
    (hsub : s.isSubclassOf A B = .ok true) {table : OrderedMap String (List Constraint)}
    {f g : Constraint → Except ValidationError (List Violation)}
    (h : ∀ ds, s.entriesFor table B true = .ok ds → ∀ c ∈ ds, Covers (f c) (g c)) :
    Covers (lift .schema (s.entriesFor table A true) >>= gather f)
      (lift .schema (s.entriesFor table B true) >>= gather g) := by
  intro vs hvs
  obtain ⟨cs, hcs, hvs⟩ := bind_eq_ok_iff.mp hvs
  obtain ⟨ds, hds, hsuffix⟩ := hs.entriesFor_suffix hsub (lift_eq_ok_iff.mp hcs)
  rw [hds, lift_ok, ok_bind]
  exact gather_covers hsuffix.sublist (h ds hds) vs hvs

/-- **What is found of an entity at an ancestor was found at the class.** -/
theorem checkType_covers (hs : r.schema.FromExpanded)
    (hrefs : ∀ c ∈ r.schema.constraints, c.kind = .reference →
      c.referenceClass ≠ .ok Vocabulary.rdfType)
    (hrules : ∀ c ∈ r.schema.constraints, c.kind = .application →
      r.rules.find? r.schema.namespaces c = none)
    {A B : String} (hsub : r.schema.isSubclassOf A B = .ok true) :
    Covers (r.checkType (e.retyped a) A) (r.checkType (e.retyped b) B) := by
  have hlooked : ∀ {ds : List Constraint}, r.schema.constraintsFor B true = .ok ds →
      ∀ c ∈ ds, c ∈ r.schema.constraints := by
    intro ds hds c hc
    obtain ⟨col, col', -, hschema⟩ := hs.source
    rw [hschema] at hds ⊢
    exact Schema.mem_constraints_of_looksUp
      ⟨B, List.mem_singleton.mpr rfl, ds, hc, Or.inl hds⟩
  have hconstraint : ∀ c ∈ r.schema.constraints,
      Covers (r.checkConstraint (e.retyped a) c) (r.checkConstraint (e.retyped b) c) := by
    intro c hc
    refine checkConstraint_covers (fun hk p hp => ?_) (hrules c hc)
    rw [Bool.eq_false_iff, ne_eq, Namespaces.same_iff, canonical_rdfType,
      hs.canonical_referenceClass hc hp]
    rintro rfl
    exact hrefs c hc hk hp
  have hid : (e.retyped a).id = (e.retyped b).id := rfl
  have hinverse : ∀ c, Covers (r.checkInverse c (e.retyped a)) (r.checkInverse c (e.retyped b)) :=
    fun c => covers_of_reported (Run.checkInverse_of_id hid c)
  have hown : Covers
      (lift .schema (r.schema.constraintsFor A true) >>=
        gather (r.checkConstraint (e.retyped a)))
      (lift .schema (r.schema.constraintsFor B true) >>=
        gather (r.checkConstraint (e.retyped b))) :=
    lookup_covers hs hsub fun ds hds c hc => hconstraint c (hlooked hds c hc)
  cases hrelated : r.settings.related with
  | false =>
    rw [Run.checkType_of_not_related hrelated, Run.checkType_of_not_related hrelated]
    exact hown
  | true =>
    rw [Run.checkType_of_related hrelated, Run.checkType_of_related hrelated]
    exact hown.append (lookup_covers hs hsub fun ds _ c _ => hinverse c)

/-- What is found of an entity as an ancestor was found of it as an instance of the class. -/
theorem checkEntity_covers (hs : r.schema.FromExpanded)
    (hrefs : ∀ c ∈ r.schema.constraints, c.kind = .reference →
      c.referenceClass ≠ .ok Vocabulary.rdfType)
    (hrules : ∀ c ∈ r.schema.constraints, c.kind = .application →
      r.rules.find? r.schema.namespaces c = none)
    {A B : String} (hsub : r.schema.isSubclassOf A B = .ok true) (ha : a.toList = [A])
    (hb : b.toList = [B]) :
    Covers (r.checkEntity (e.retyped a)) (r.checkEntity (e.retyped b)) := by
  have hsplit : ∀ {slot : Slot String} {type : String}, slot.toList = [type] →
      r.checkEntity (e.retyped slot) = (do
        let undeclared ← .ok (if r.settings.strict then
          Violation.undeclared r.schema (e.retyped slot) else [])
        return undeclared ++ (← r.checkType (e.retyped slot) type)) := by
    intro slot type hslot
    unfold Run.checkEntity
    rw [types_retyped, hslot, gather_singleton]
    rfl
  have hundeclared : Covers
      (.ok (if r.settings.strict then Violation.undeclared r.schema (e.retyped a) else []))
      (.ok (if r.settings.strict then Violation.undeclared r.schema (e.retyped b) else [])) := by
    refine covers_of_reported (congrArg Except.ok ?_)
    split
    · exact undeclared_retyped e a r.schema b
    · rfl
  rw [hsplit ha, hsplit hb]
  exact hundeclared.append (checkType_covers hs hrefs hrules hsub)

end

/-! ## Validations -/

namespace Validator

variable {v : Validator (Except ValidationError)} {s : Schema}

/-- **A validation as an instance of a class covers the validation as an instance of an ancestor.**
No reference constraint is on the types themselves, and no rule of the application is asked; the
settings and the data provider are arbitrary. Where the entity can be validated with the one type it
can be with the other, and what is then reported, abstract classes apart, was reported before, in
the same order. An entity that is valid as an instance of the class is valid as an instance of any
ancestor that is not abstract. -/
theorem validateEntity_subclass (hs : s.FromExpanded)
    (hrefs : ∀ c ∈ s.constraints, c.kind = .reference →
      c.referenceClass ≠ .ok Vocabulary.rdfType)
    (hrules : ∀ c ∈ s.constraints, c.kind = .application →
      v.rules.find? s.namespaces c = none)
    {A B : String} (hsub : s.isSubclassOf A B = .ok true) (e : Entity) {a b : Slot String}
    (ha : a.toList = [A]) (hb : b.toList = [B]) {vs : List Violation}
    (h : v.validateEntity s (e.retyped a) = .ok vs) :
    ∃ ws, v.validateEntity s (e.retyped b) = .ok ws ∧
      (concrete ws).Sublist (vs.map Violation.finding) ∧
      (vs = [] → s.isAbstract B = false → ws = []) := by
  obtain ⟨r, hstart, hcheck⟩ := validateEntity_eq_ok_iff.mp h
  obtain ⟨hschema, -, -, hregistry, -⟩ := started_of_start hstart
  have hcovers : Covers (r.checkEntity (e.retyped a)) (r.checkEntity (e.retyped b)) :=
    checkEntity_covers (hschema ▸ hs) (hschema ▸ hrefs) (by rw [hschema, hregistry]; exact hrules)
      (hschema ▸ hsub) ha hb
  obtain ⟨ws, hws, hsublist⟩ := hcovers vs hcheck
  have hrun : v.validateEntity s (e.retyped b) = .ok ws :=
    validateEntity_eq_ok_iff.mpr ⟨r, hstart, hws⟩
  refine ⟨ws, hrun, hsublist, fun hvalid habstract => ?_⟩
  rw [hvalid, List.map_nil, List.sublist_nil] at hsublist
  -- what is left can only be about abstract classes, and the ancestor is none
  rw [List.eq_nil_iff_forall_not_mem]
  intro w hw
  have hkind : w.kind = .abstractEntityClassViolation := by
    by_contra hne
    have hmem : w.finding ∈ concrete ws :=
      List.mem_filter.mpr ⟨List.mem_map_of_mem hw, decide_eq_true hne⟩
    rw [hsublist] at hmem
    cases hmem
  obtain ⟨col, col', -, rfl⟩ := hs.source
  have hdeclared := (abstract_mem_validateEntity_iff hrun).mp ⟨w, hw, hkind⟩
  rw [types_retyped, hb, ← Schema.isAbstract_iff, habstract] at hdeclared
  cases hdeclared

/-- Agents have a name and are abstract. Among them are parents, who have a child. -/
def kinshipBuilder : SchemaBuilder :=
  let b := SchemaBuilder.empty.addClass (ClassDraft.named "urn:Agent").makeAbstract
  let b := b.addClass ((ClassDraft.named "urn:Parent").addParent "urn:Agent")
  let (named, b) := b.startConstraint .property "urn:Agent"
  let b := b.addConstraint ((named.setName Vocabulary.propertyClass "urn:name").setBound
    Vocabulary.minCard 1)
  let (child, b) := b.startConstraint .reference "urn:Parent"
  b.addConstraint ((child.setName Vocabulary.referenceClass "urn:child").setBound
    Vocabulary.minCard 1)

/-- Somebody without name. -/
def nobody : Entity := { id := "urn:nobody" }

/-- As an agent the entity is reported for the missing name, as it is as a parent, and for the
abstract class besides; that it has no child is reported of the parent only. -/
theorem validateEntity_subclass_nobody :
    ∃ s, kinshipBuilder.build = .ok s ∧ s.FromExpanded ∧
    (∀ c ∈ s.constraints, c.kind = .reference → c.referenceClass ≠ .ok Vocabulary.rdfType) ∧
    (∀ c ∈ s.constraints, c.kind = .application → plain.rules.find? s.namespaces c = none) ∧
    s.isSubclassOf "urn:Parent" "urn:Agent" = .ok true ∧
    ∃ vs ws, plain.validateEntity s (nobody.retyped (.one "urn:Parent")) = .ok vs ∧
      plain.validateEntity s (nobody.retyped (.many ["urn:Agent"])) = .ok ws ∧
      vs.map Violation.kind = [.minReferenceOccurrenceNotMet, .minPropertyOccurrenceNotMet] ∧
      ws.map Violation.kind = [.abstractEntityClassViolation, .minPropertyOccurrenceNotMet] ∧
      (concrete ws).Sublist (vs.map Violation.finding) := by
  have hfacts : ∃ s ∈ kinshipBuilder.build.toOption,
      (∀ c ∈ s.constraints, c.kind = .reference → c.referenceClass ≠ .ok Vocabulary.rdfType) ∧
      s.isSubclassOf "urn:Parent" "urn:Agent" = .ok true ∧
      (plain.validateEntity s (nobody.retyped (.one "urn:Parent"))).toOption.map
        (·.map Violation.kind) =
          some [.minReferenceOccurrenceNotMet, .minPropertyOccurrenceNotMet] ∧
      (plain.validateEntity s (nobody.retyped (.many ["urn:Agent"]))).toOption.map
        (·.map Violation.kind) =
          some [.abstractEntityClassViolation, .minPropertyOccurrenceNotMet] := by
    decide +kernel
  obtain ⟨s, hmem, hrefs, hsub, hparent, hagent⟩ := hfacts
  have hbuild : kinshipBuilder.build = .ok s := eq_ok_of_mem_toOption hmem
  have hs : s.FromExpanded := SchemaBuilder.fromExpanded_of_build hbuild (by decide +kernel)
  have hrules : ∀ c ∈ s.constraints, c.kind = .application →
      plain.rules.find? s.namespaces c = none := fun _ _ _ => rfl
  obtain ⟨vs, hvs, hparentKinds⟩ := exists_ok_of_toOption_map hparent
  obtain ⟨ws, hws, hagentKinds⟩ := exists_ok_of_toOption_map hagent
  obtain ⟨ws', hws', hsublist, -⟩ := validateEntity_subclass hs hrefs hrules hsub nobody
    (b := .many ["urn:Agent"]) rfl rfl hvs
  obtain rfl := Except.ok.inj (hws.symm.trans hws')
  exact ⟨s, hbuild, hs, hrefs, hrules, hsub, vs, ws, hvs, hws, hparentKinds, hagentKinds, hsublist⟩

end Validator

end EntityGraph
