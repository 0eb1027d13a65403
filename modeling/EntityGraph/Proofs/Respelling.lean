import EntityGraph.Proofs.Interchange
import EntityGraph.Proofs.Loading
import EntityGraph.Proofs.Standalone
import Mathlib.Data.Option.Basic
import Mathlib.Data.Prod.Basic

/-!
# Documents in other spellings

Two documents with the same context elements and the same entities, where identifiers, predicates
and targets may be spelled differently as long as they expand alike. A reader takes members in the
order of their keys, and so another spelling also puts predicates in another order. Expansion undoes
the spelling, and what is left is a collection that is the same.

Results:
* `OrderedMap.Expands.get?_eq_some_iff`: what an expanded table holds, if no two keys expand alike.
* `Entity.Respelled.exists_expand`: entities that differ in spelling expand to the same one.
* `Document.ofElements_together`: elements that differ in spelling are read alike.
* `Document.parse_together`: both documents are accepted or neither, and the collections are the
  same.
* `Document.respelled_agree`: they are the same schema, and the same data for a schema to which the
  entities are clear.
* `Document.clear_of_parse`: which documents are clear.
-/

namespace EntityGraph

/-! ## Results of two readers -/

/-- Two results: both errors, or related values. -/
inductive Together {ε α β : Type} (R : α → β → Prop) : Except ε α → Except ε β → Prop
  | error (err err' : ε) : Together R (.error err) (.error err')
  | ok {a : α} {b : β} (h : R a b) : Together R (.ok a) (.ok b)

namespace Together

variable {ε α β γ δ : Type} {R : α → β → Prop} {S : γ → δ → Prop} {x : Except ε α} {y : Except ε β}

theorem bind (h : Together R x y) {f : α → Except ε γ} {g : β → Except ε δ}
    (hfg : ∀ a b, R a b → Together S (f a) (g b)) : Together S (x >>= f) (y >>= g) := by
  cases h with
  | error err err' => exact .error err err'
  | ok hab => exact hfg _ _ hab

/-- Results are related if each value has its counterpart. -/
theorem of_forall (h : ∀ a, x = .ok a → ∃ b, y = .ok b ∧ R a b)
    (h' : ∀ b, y = .ok b → ∃ a, x = .ok a) : Together R x y := by
  cases x with
  | ok a =>
    obtain ⟨b, rfl, hab⟩ := h a rfl
    exact .ok hab
  | error err =>
    cases y with
    | error err' => exact .error err err'
    | ok b =>
      obtain ⟨a, ha⟩ := h' b rfl
      cases ha

theorem imp {R' : α → β → Prop} (h : Together R x y) (himp : ∀ a b, R a b → R' a b) :
    Together R' x y := by
  cases h with
  | error err err' => exact .error err err'
  | ok hab => exact .ok (himp _ _ hab)

theorem rel {a : α} {b : β} (h : Together R (.ok a : Except ε α) (.ok b)) : R a b := by
  cases h with
  | ok hab => exact hab

end Together

/-! ## Tables and entities in other spellings -/

/-- Two tables with the same entries up to the spelling of their keys, of which no two expand alike,
and up to what a view of the values leaves out. -/
structure OrderedMap.Respelled {α β : Type} (ns : Namespaces) (view : α → β)
    (m m' : OrderedMap String α) : Prop where
  distinct : (m.keys.map ns.expand).Nodup
  entries : (m.toList.map fun e => (ns.expand e.1, view e.2)).Perm
    (m'.toList.map fun e => (ns.expand e.1, view e.2))

/-- Two entities that differ in the spelling of identifiers, predicates and targets only. -/
structure Entity.Respelled (ns : Namespaces) (e e' : Entity) : Prop where
  id : ns.expand e.id = ns.expand e'.id
  properties : e.properties.Respelled ns (fun slot => slot) e'.properties
  references : e.references.Respelled ns (Slot.map ns.expand) e'.references
  deleted : e.deleted = e'.deleted

namespace OrderedMap

variable {α β γ : Type} {ns : Namespaces} {view : α → β} {m m' : OrderedMap String α}

theorem keys_map_expand (m : OrderedMap String α) (view : α → β) :
    m.keys.map ns.expand = (m.toList.map fun e => (ns.expand e.1, view e.2)).map Prod.fst := by
  rw [keys, List.map_map, List.map_map]
  rfl

theorem Respelled.symm (h : m.Respelled ns view m') : m'.Respelled ns view m where
  distinct := by
    rw [keys_map_expand m' view, (h.entries.map Prod.fst).symm.nodup_iff, ← keys_map_expand]
    exact h.distinct
  entries := h.entries.symm

/-- The keys of an expanded table are expansions. -/
theorem Expands.exists_expand_of_mem_keys {read : α → Except UnknownLabel γ}
    {x : OrderedMap String γ} (h : m.Expands ns read x) {k : String} (hk : k ∈ x.keys) :
    ∃ a, ns.expand a = .ok k := by
  obtain ⟨b, hb⟩ := mem_keys_iff.mp hk
  rw [h.get?_eq, Option.bind_eq_some_iff] at hb
  obtain ⟨v, hv, -⟩ := hb
  obtain ⟨e, he, -⟩ := Option.map_eq_some_iff.mp hv
  exact ⟨e.1, by simpa using List.find?_some he⟩

/-- Pairs that differ in spelling make tables that do. -/
theorem Respelled.ofList {pairs pairs' : List (String × α)}
    (hdistinct : ((pairs.map Prod.fst).map ns.expand).Nodup)
    (hentries : (pairs.map fun p => (ns.expand p.1, view p.2)).Perm
      (pairs'.map fun p => (ns.expand p.1, view p.2))) :
    (OrderedMap.ofList pairs).Respelled ns view (.ofList pairs') := by
  have hdistinct' : ((pairs'.map Prod.fst).map ns.expand).Nodup := by
    have hkeys := (hentries.map Prod.fst).nodup_iff
    simp only [List.map_map] at hkeys hdistinct ⊢
    exact hkeys.mp hdistinct
  have hkeys := List.Nodup.of_map _ hdistinct
  refine ⟨?_, ?_⟩
  · rwa [keys_ofList_of_nodup hkeys]
  · rwa [toList_ofList_of_nodup hkeys, toList_ofList_of_nodup (List.Nodup.of_map _ hdistinct')]

/-- Keys that expand are expanded to distinct ones exactly if no two of them expand alike. -/
theorem nodup_map_fst_iff {entries : List (String × α)} {es : List (String × γ)}
    (h : List.Forall₂ (fun e e' => ns.expand e.1 = .ok e'.1) entries es) :
    (es.map Prod.fst).Nodup ↔ (entries.map fun e => ns.expand e.1).Nodup := by
  have hkeys : (entries.map fun e => ns.expand e.1) = (es.map Prod.fst).map .ok := by
    rw [List.map_map]
    exact map_eq_of_forall₂ h fun _ _ he => he
  rw [hkeys, List.nodup_map_iff fun _ _ heq => Except.ok.inj heq]

/-- **What an expanded table holds**, if no two keys expand alike. -/
theorem Expands.get?_eq_some_iff {read : α → Except UnknownLabel γ} {x : OrderedMap String γ}
    (h : m.Expands ns read x) (hdistinct : (m.keys.map ns.expand).Nodup) {k : String} {b : γ} :
    x.get? k = some b ↔
      (.ok k, .ok b) ∈ m.toList.map fun e => (ns.expand e.1, read e.2) := by
  obtain ⟨es, hes, rfl⟩ := h
  have hentries : (m.toList.map fun e => (ns.expand e.1, read e.2)) =
      es.map fun e => (.ok e.1, .ok e.2) :=
    map_eq_of_forall₂ hes fun _ _ he => Prod.ext he.1 he.2
  have hkeys : (es.map Prod.fst).Nodup := by
    rw [keys, List.map_map] at hdistinct
    exact (nodup_map_fst_iff (hes.imp fun _ _ he => he.1)).mpr hdistinct
  rw [← mem_toList_iff, toList_ofList_of_nodup hkeys, hentries, List.mem_map]
  constructor
  · exact fun hmem => ⟨_, hmem, rfl⟩
  · rintro ⟨e, he, heq⟩
    obtain ⟨hk, hb⟩ := Prod.mk.inj heq
    rw [← Except.ok.inj hk, ← Except.ok.inj hb]
    exact he

/-- **Tables that differ in spelling expand alike**, if the values are read through the view. -/
theorem Respelled.exists_expands (h : m.Respelled ns view m') {read : α → Except UnknownLabel γ}
    {readView : β → Except UnknownLabel γ} (hread : ∀ a, read a = readView (view a))
    {x : OrderedMap String γ} (hx : m.Expands ns read x) :
    ∃ x', m'.Expands ns read x' ∧ ∀ k, x.get? k = x'.get? k := by
  have hentries : (m.toList.map fun e => (ns.expand e.1, read e.2)).Perm
      (m'.toList.map fun e => (ns.expand e.1, read e.2)) := by
    have hboth := h.entries.map (Prod.map (fun uri => uri) readView)
    rw [List.map_map, List.map_map] at hboth
    simp only [hread]
    exact hboth
  obtain ⟨x', hx'⟩ : ∃ x', m'.Expands ns read x' := by
    refine exists_expands_iff.mpr fun e' he' => ?_
    obtain ⟨e, he, heq⟩ := List.mem_map.mp (hentries.mem_iff.mpr (List.mem_map_of_mem he'))
    obtain ⟨hk, hv⟩ := Prod.mk.inj heq
    rw [← hk, ← hv]
    exact exists_expands_iff.mp ⟨x, hx⟩ e he
  refine ⟨x', hx', fun k => Option.ext fun b => ?_⟩
  rw [hx.get?_eq_some_iff h.distinct, hx'.get?_eq_some_iff h.symm.distinct, hentries.mem_iff]

end OrderedMap

/-- Targets are expanded one by one. -/
theorem Slot.mapE_eq {ε α β : Type} (f : α → Except ε β) (slot : Slot α) :
    slot.mapE f = (slot.map f).mapE fun b => b := by
  cases slot with
  | one a => rfl
  | many as =>
    rw [mapE, map, mapE, List.mapM_map]
    rfl

namespace Entity.Respelled

variable {ns : Namespaces} {e e' x : Entity}

theorem symm (h : e.Respelled ns e') : e'.Respelled ns e :=
  ⟨h.id.symm, h.properties.symm, h.references.symm, h.deleted.symm⟩

/-- **Entities that differ in spelling expand to the same one.** -/
theorem exists_expand (h : e.Respelled ns e') (hx : e.expand ns = ⟨x, none⟩) :
    ∃ x', e'.expand ns = ⟨x', none⟩ ∧ x.Same x' := by
  obtain ⟨hid, hproperties, hreferences, hdeleted⟩ := expand_eq_iff.mp hx
  obtain ⟨properties, hproperties', hsame⟩ :=
    h.properties.exists_expands (fun _ => rfl) hproperties
  obtain ⟨references, hreferences', hsame'⟩ :=
    h.references.exists_expands (Slot.mapE_eq ns.expand) hreferences
  exact ⟨⟨x.id, properties, references, e'.deleted⟩,
    expand_eq_iff.mpr ⟨h.id ▸ hid, hproperties', hreferences', rfl⟩,
    rfl, hsame, hsame', hdeleted.trans h.deleted⟩

end Entity.Respelled

/-! ## Documents in other spellings -/

namespace Document

/-- The identifier of an element. -/
def elementId? (element : Json) : Option String := (element.member? "id").bind readString?

/-- The table that an element leaves, which binds further labels if it is a context. -/
def tableAfter (ns : Namespaces) (element : Json) : Namespaces :=
  if elementId? element = some contextId then
    match readContext element with
    | .ok pairs => ns.bindAll pairs
    | .error _ => ns
  else ns

/-- The namespace table of a document. -/
def table (elements : List Json) : Namespaces := elements.foldl tableAfter .standard

/-- The members of an object-valued field. -/
def members? : Option Json → Option (List (String × Json))
  | none => some []
  | some (.object members) => some members
  | some _ => none

/-- Two fields that are malformed both, or hold the same members up to the spelling of their keys,
of which no two expand alike, and up to what a view of the values leaves out. -/
def RespelledField {α β : Type} (ns : Namespaces) (read : Json → Option α) (view : α → β)
    (v? w? : Option Json) : Prop :=
  Option.Rel (fun members members' => (members.map fun e => ns.expand e.1).Nodup ∧
    (members.map fun e => (ns.expand e.1, (read e.2).map view)).Perm
      (members'.map fun e => (ns.expand e.1, (read e.2).map view))) (members? v?) (members? w?)

/-- Two elements of documents: the same one, or two entities that differ in the spelling of
identifiers, predicates and targets only. -/
inductive RespelledElement (ns : Namespaces) : Json → Json → Prop
  | other {v : Json} (hother : ∀ id, elementId? v = some id → ¬ IsEntityId id) :
    RespelledElement ns v v
  | entity {v w : Json} {id id' : String} (hid : elementId? v = some id)
    (hid' : elementId? w = some id') (hentity : IsEntityId id) (hentity' : IsEntityId id')
    (hexpand : ns.expand id = ns.expand id')
    (hprops : RespelledField ns (Slot.ofJson? Literal.ofJson?) (fun slot => slot)
      (v.member? "props") (w.member? "props"))
    (hrefs : RespelledField ns (Slot.ofJson? readString?) (Slot.map ns.expand)
      (v.member? "refs") (w.member? "refs"))
    (hdeleted : v.member? "deleted" = w.member? "deleted") : RespelledElement ns v w

/-! ### Reading fields -/

section

variable {α β : Type} {read : Json → Option α} {view : α → β} {ns : Namespaces}
  {v? w? : Option Json}

theorem readTable_eq_ok_iff {expected : String} {pairs : List (String × α)} :
    readTable expected read v? = .ok pairs ↔ ∃ members, members? v? = some members ∧
      List.Forall₂ (fun e p => p.1 = e.1 ∧ read e.2 = some p.2) members pairs := by
  unfold readTable members?
  split
  · simp [eq_comm]
  · rename_i members
    rw [mapM_eq_ok_iff]
    constructor
    · refine fun h => ⟨members, rfl, h.imp fun e p hp => ?_⟩
      cases hread : read e.2 with
      | none => simp [hread] at hp
      | some a =>
        simp only [hread] at hp
        obtain rfl := Except.ok.inj hp
        exact ⟨rfl, rfl⟩
    · rintro ⟨_, ⟨⟩, h⟩
      refine h.imp fun e p hp => ?_
      obtain ⟨k, a⟩ := p
      simp only [hp.2, ← hp.1]
  · simp

theorem RespelledField.symm (h : RespelledField ns read view v? w?) :
    RespelledField ns read view w? v? := by
  unfold RespelledField at h ⊢
  generalize members? v? = x at h ⊢
  generalize members? w? = y at h ⊢
  cases h with
  | none => exact .none
  | some h =>
    refine .some ⟨?_, h.2.symm⟩
    have hkeys := (h.2.map Prod.fst).nodup_iff
    simp only [List.map_map] at hkeys
    exact hkeys.mp h.1

/-- What is read from members, seen by key and value. -/
theorem map_entries_of_read (ns : Namespaces) (view : α → β) {members : List (String × Json)}
    {pairs : List (String × α)}
    (h : List.Forall₂ (fun e p => p.1 = e.1 ∧ read e.2 = some p.2) members pairs) :
    (members.map fun e => (ns.expand e.1, (read e.2).map view)) =
      (pairs.map fun p => (ns.expand p.1, view p.2)).map (Prod.map (fun uri => uri) some) := by
  rw [List.map_map]
  refine map_eq_of_forall₂ h fun e p hep => ?_
  rw [hep.1.symm, hep.2]
  rfl

/-- **Fields that differ in spelling are read to tables that do.** -/
theorem RespelledField.exists_read (h : RespelledField ns read view v? w?) {expected : String}
    {pairs : List (String × α)} (hpairs : readTable expected read v? = .ok pairs) :
    ∃ pairs', readTable expected read w? = .ok pairs' ∧
      (OrderedMap.ofList pairs).Respelled ns view (.ofList pairs') := by
  obtain ⟨members, hmembers, hread⟩ := readTable_eq_ok_iff.mp hpairs
  unfold RespelledField at h
  rw [hmembers] at h
  generalize hmembers' : members? w? = x at h
  cases h with
  | @some _ members' h =>
    obtain ⟨hdistinct, hperm⟩ := h
    have hentries := map_entries_of_read ns view hread
    obtain ⟨pairs', hread'⟩ : ∃ pairs' : List (String × α),
        List.Forall₂ (fun e p => p.1 = e.1 ∧ read e.2 = some p.2) members' pairs' := by
      refine exists_forall₂_iff.mpr fun e' he' => ?_
      have hmem := hperm.mem_iff.mpr (List.mem_map_of_mem he')
      rw [hentries] at hmem
      obtain ⟨_, -, heq⟩ := List.mem_map.mp hmem
      obtain ⟨a, ha, -⟩ := Option.map_eq_some_iff.mp (Prod.mk.inj heq).2.symm
      exact ⟨(e'.1, a), rfl, ha⟩
    refine ⟨pairs', readTable_eq_ok_iff.mpr ⟨members', hmembers', hread'⟩, .ofList ?_ ?_⟩
    · have hkeys := congrArg (List.map Prod.fst) hentries
      simp only [List.map_map] at hkeys ⊢
      exact hkeys ▸ hdistinct
    · rw [hentries, map_entries_of_read ns view hread'] at hperm
      exact (List.map_perm_map_iff
        (Function.Injective.prodMap Function.injective_id (Option.some_injective β))).mp hperm

end

/-! ### Reading elements -/

/-- Parts of documents whose entities differ in spelling. -/
structure Parts.Respelled (ns : Namespaces) (parts parts' : Parts) : Prop where
  namespaces : parts.namespaces = parts'.namespaces
  continuation : parts.continuation = parts'.continuation
  entities : List.Forall₂ (Entity.Respelled ns) parts.entities parts'.entities

variable {ns : Namespaces}

theorem exists_readEntity {v w : Json} {id id' : String} (hexpand : ns.expand id = ns.expand id')
    (hprops : RespelledField ns (Slot.ofJson? Literal.ofJson?) (fun slot => slot)
      (v.member? "props") (w.member? "props"))
    (hrefs : RespelledField ns (Slot.ofJson? readString?) (Slot.map ns.expand)
      (v.member? "refs") (w.member? "refs"))
    (hdeleted : v.member? "deleted" = w.member? "deleted") {e : Entity}
    (he : readEntity id v = .ok e) : ∃ e', readEntity id' w = .ok e' ∧ e.Respelled ns e' := by
  unfold readEntity at he ⊢
  obtain ⟨props, hp, he⟩ := bind_eq_ok_iff.mp he
  obtain ⟨refs, hr, he⟩ := bind_eq_ok_iff.mp he
  obtain ⟨props', hp', hproperties⟩ := hprops.exists_read hp
  obtain ⟨refs', hr', hreferences⟩ := hrefs.exists_read hr
  rw [hp', hr', ← hdeleted, ok_bind, ok_bind]
  split at he
  · obtain rfl := Except.ok.inj he
    exact ⟨_, rfl, hexpand, hproperties, hreferences, rfl⟩
  · obtain rfl := Except.ok.inj he
    exact ⟨_, rfl, hexpand, hproperties, hreferences, rfl⟩
  · cases he

/-- **Entities that differ in spelling are read alike.** -/
theorem readEntity_together {v w : Json} {id id' : String}
    (hexpand : ns.expand id = ns.expand id')
    (hprops : RespelledField ns (Slot.ofJson? Literal.ofJson?) (fun slot => slot)
      (v.member? "props") (w.member? "props"))
    (hrefs : RespelledField ns (Slot.ofJson? readString?) (Slot.map ns.expand)
      (v.member? "refs") (w.member? "refs"))
    (hdeleted : v.member? "deleted" = w.member? "deleted") :
    Together (Entity.Respelled ns) (readEntity id v) (readEntity id' w) := by
  refine .of_forall (fun e => exists_readEntity hexpand hprops hrefs hdeleted) fun e' he' => ?_
  obtain ⟨e, he, -⟩ :=
    exists_readEntity hexpand.symm hprops.symm hrefs.symm hdeleted.symm he'
  exact ⟨e, he⟩

/-- **One element is read alike.** -/
theorem RespelledElement.read {v w : Json} (h : RespelledElement ns v w) {parts parts' : Parts}
    (hparts : parts.Respelled ns parts') (n : Nat) :
    Together (Parts.Respelled ns) (parts.read n v) (parts'.read n w) := by
  cases h with
  | other hother =>
    unfold Parts.read
    cases hid : (v.member? "id").bind readString? with
    | none => exact .error _ _
    | some id =>
      by_cases hcontext : id = contextId
      · simp only [if_pos hcontext]
        cases readContext v with
        | error err => exact .error _ _
        | ok pairs =>
          exact .ok ⟨congrArg (Namespaces.bindAll · pairs) hparts.namespaces,
            hparts.continuation, hparts.entities⟩
      · by_cases hcontinuation : id = continuationId
        · simp only [if_neg hcontext, if_pos hcontinuation]
          cases readContinuation v with
          | error err => exact .error _ _
          | ok token => exact .ok ⟨hparts.namespaces, rfl, hparts.entities⟩
        · exact absurd ⟨hcontext, hcontinuation⟩ (hother id hid)
  | entity hid hid' hentity hentity' hexpand hprops hrefs hdeleted =>
    have hread := readEntity_together hexpand hprops hrefs hdeleted
    unfold elementId? at hid hid'
    unfold Parts.read
    simp only [hid, hid', if_neg hentity.1, if_neg hentity.2, if_neg hentity'.1, if_neg hentity'.2]
    generalize readEntity _ v = x at hread ⊢
    generalize readEntity _ w = y at hread ⊢
    cases hread with
    | error err err' => exact .error _ _
    | ok he =>
      exact .ok ⟨hparts.namespaces, hparts.continuation,
        List.rel_append hparts.entities (.cons he .nil)⟩

/-- **Elements that differ in spelling are read alike**, one after another. -/
theorem ofElements_together {elements elements' : List Json}
    (h : List.Forall₂ (RespelledElement ns) elements elements') :
    Together (Parts.Respelled ns) (Parts.ofElements elements) (Parts.ofElements elements') := by
  have key : ∀ (n : Nat) (parts parts' : Parts), parts.Respelled ns parts' →
      Together (Parts.Respelled ns)
        ((elements.zipIdx n).foldlM (fun parts e => parts.read e.2 e.1) parts)
        ((elements'.zipIdx n).foldlM (fun parts e => parts.read e.2 e.1) parts') := by
    induction h with
    | nil => exact fun n parts parts' hparts => .ok hparts
    | cons hv _ ih =>
      intro n parts parts' hparts
      rw [List.zipIdx_cons, List.zipIdx_cons, List.foldlM_cons, List.foldlM_cons]
      exact (hv.read hparts n).bind fun _ _ hnext => ih (n + 1) _ _ hnext
  exact key 0 {} {} ⟨rfl, rfl, .nil⟩

/-- What reading an element does: it binds labels, sets the token or adds an entity. -/
theorem read_cases {parts next : Parts} {n : Nat} {v : Json} (h : parts.read n v = .ok next) :
    ∃ id, elementId? v = some id ∧
      ((id = contextId ∧ ∃ pairs, readContext v = .ok pairs ∧
          next = { parts with namespaces := parts.namespaces.bindAll pairs }) ∨
        (id = continuationId ∧ ∃ token, next = { parts with continuation := token }) ∨
        (IsEntityId id ∧ ∃ e, readEntity id v = .ok e ∧
          next = { parts with entities := parts.entities ++ [e] })) := by
  unfold Parts.read at h
  unfold elementId?
  generalize (v.member? "id").bind readString? = id? at h ⊢
  cases id? with
  | none => cases h
  | some id =>
    refine ⟨id, rfl, ?_⟩
    by_cases hcontext : id = contextId
    · simp only [if_pos hcontext] at h
      generalize readContext v = pairs? at h ⊢
      cases pairs? with
      | error err => cases h
      | ok pairs => exact Or.inl ⟨hcontext, pairs, rfl, (Except.ok.inj h).symm⟩
    · simp only [if_neg hcontext] at h
      by_cases hcontinuation : id = continuationId
      · simp only [if_pos hcontinuation] at h
        generalize readContinuation v = token? at h
        cases token? with
        | error err => cases h
        | ok token => exact Or.inr (Or.inl ⟨hcontinuation, token, (Except.ok.inj h).symm⟩)
      · simp only [if_neg hcontinuation] at h
        generalize readEntity id v = e? at h ⊢
        cases e? with
        | error err => cases h
        | ok e =>
          exact Or.inr (Or.inr ⟨⟨hcontext, hcontinuation⟩, e, rfl, (Except.ok.inj h).symm⟩)

/-- An element that is read leaves its table. -/
theorem namespaces_read {parts next : Parts} {n : Nat} {v : Json}
    (h : parts.read n v = .ok next) : next.namespaces = tableAfter parts.namespaces v := by
  unfold tableAfter
  obtain ⟨id, hid, ⟨rfl, pairs, hpairs, rfl⟩ | ⟨rfl, token, rfl⟩ | ⟨hentity, e, -, rfl⟩⟩ :=
    read_cases h
  · rw [if_pos hid, hpairs]
  · rw [hid, if_neg (by decide)]
  · rw [hid, if_neg fun heq => hentity.1 (Option.some.inj heq)]

theorem namespaces_foldlM_read {elements : List Json} {n : Nat} {parts last : Parts}
    (h : (elements.zipIdx n).foldlM (fun parts e => parts.read e.2 e.1) parts = .ok last) :
    last.namespaces = elements.foldl tableAfter parts.namespaces := by
  induction elements generalizing n parts with
  | nil =>
    rw [← Except.ok.inj h]
    rfl
  | cons v elements ih =>
    rw [List.zipIdx_cons, List.foldlM_cons] at h
    obtain ⟨next, hnext, hrest⟩ := bind_eq_ok_iff.mp h
    rw [ih hrest, namespaces_read hnext, List.foldl_cons]

/-- **The table of the parts is that of the document.** -/
theorem namespaces_ofElements {elements : List Json} {parts : Parts}
    (h : Parts.ofElements elements = .ok parts) : parts.namespaces = table elements :=
  namespaces_foldlM_read h

/-! ### Reading documents -/

theorem Parts.Respelled.symm {parts parts' : Parts} (h : parts.Respelled ns parts') :
    parts'.Respelled ns parts :=
  ⟨h.namespaces.symm, h.continuation.symm, h.entities.flip.imp fun _ _ he => he.symm⟩

theorem Parts.Respelled.exists_collect {parts parts' : Parts} (hns : parts.namespaces = ns)
    (h : parts.Respelled ns parts') {c : Collection} (hc : parts.collect = .ok c) :
    ∃ c', parts'.collect = .ok c' ∧ c.Same c' := by
  subst hns
  obtain ⟨es, hes, hnodup, rfl⟩ := collect_eq_ok_iff.mp hc
  obtain ⟨es', hes', hsame⟩ := exists_forall₂_of_forall₂ (U := Entity.Same) h.entities hes
    fun _ _ _ he hx => he.exists_expand hx
  have hids := map_eq_of_forall₂ hsame fun _ _ he => he.id
  refine ⟨_, collect_eq_ok_iff.mpr ⟨es', h.namespaces ▸ hes', hids ▸ hnodup, rfl⟩, ?_⟩
  rw [← h.namespaces, ← h.continuation]
  exact Collection.same_of_entities (fun _ => rfl) _ hsame

section

variable {text text' : String} {elements elements' : List Json}
  (htext : Json.sortedOfText text = .ok (.array elements))
  (htext' : Json.sortedOfText text' = .ok (.array elements'))
  (h : List.Forall₂ (RespelledElement (table elements)) elements elements')

include htext htext' h

/-- **Documents that differ in spelling are both accepted or neither, and what they hold is the
same.** -/
theorem parse_together : Together Collection.Same (parse text) (parse text') := by
  rw [parse_of_sortedOfText htext, parse_of_sortedOfText htext', ofJson, ofJson]
  have hboth := ofElements_together h
  cases hparts : Parts.ofElements elements with
  | error err =>
    rw [hparts] at hboth
    generalize Parts.ofElements elements' = y at hboth ⊢
    cases hboth
    exact .error _ _
  | ok parts =>
    have hns := namespaces_ofElements hparts
    rw [hparts] at hboth
    generalize Parts.ofElements elements' = y at hboth ⊢
    cases hboth with
    | ok hrel =>
      refine .of_forall (fun c hc => hrel.exists_collect hns hc) fun c' hc' => ?_
      obtain ⟨c, hc, -⟩ := hrel.symm.exists_collect (hrel.namespaces ▸ hns) hc'
      exact ⟨c, hc⟩

theorem ofEntityDocument_together :
    Together Schema.Same (Schema.ofEntityDocument text) (Schema.ofEntityDocument text') := by
  have hboth := parse_together htext htext' h
  unfold Schema.ofEntityDocument
  generalize parse text = x at hboth ⊢
  generalize parse text' = y at hboth ⊢
  cases hboth with
  | error err err' => exact .error _ _
  | ok hc => exact .ok hc.schema

/-- **Documents that differ in spelling cannot be told apart.** Both are accepted or neither, and
what they hold is the same. As schemas they agree, and every validation against them reports the
same, of entities, of a dataset and of the store, if rules take equal maps for equal. As data they
give the same error or the same multiset of findings, whatever the schema, if the entities are clear
to it. -/
theorem respelled_agree :
    Together Collection.Same (parse text) (parse text') ∧
    Together (fun s s' => s.Agrees s' ∧
        ∀ v : Validator (Except ValidationError), v.rules.Extensional →
          (∀ es, reported (v.validateEntities s es) = reported (v.validateEntities s' es)) ∧
          (∀ d, reported (v.validateDataset s d) = reported (v.validateDataset s' d)) ∧
          reported (v.validateStore s) = reported (v.validateStore s'))
      (Schema.ofEntityDocument text) (Schema.ofEntityDocument text') ∧
    ∀ c c', parse text = .ok c → parse text' = .ok c' →
      ∀ (v : Validator (Except ValidationError)) (col : Collection), v.rules.Unordered →
        (∀ e ∈ c.entities, e.Clear (.ofCollection col)) →
        tallied (v.validateCollection (.ofCollection col) c) =
          tallied (v.validateCollection (.ofCollection col) c') := by
  have hparse := parse_together htext htext' h
  refine ⟨hparse, ?_, fun c c' hc hc' v col hrules hclear => ?_⟩
  · refine (ofEntityDocument_together htext htext' h).imp fun s s' hs =>
      ⟨hs.agrees, fun v hrules => ⟨fun es => v.validateEntities_same hrules hs es,
        fun d => Validator.validateDataset_same hrules hs d, Validator.validateStore_same hs⟩⟩
  · rw [hc, hc'] at hparse
    exact Validator.validateEntities_interchanged hrules hparse.rel.entities hclear

end

/-! ### Clear documents -/

/-- **The entities of a document are clear** to a schema whose constraints name predicates in
canonical form. -/
theorem clear_of_parse {text : String} {c : Collection} (hc : parse text = .ok c)
    (hfull : c.namespaces.FullExpansions) {s : Schema}
    (hproperty : ∀ x ∈ s.constraints, ∀ p ∈ x.propertyClass.toOption, s.namespaces.canonical p = p)
    (hreference : ∀ x ∈ s.constraints, ∀ p ∈ x.referenceClass.toOption,
      s.namespaces.canonical p = p) : ∀ e ∈ c.entities, e.Clear s := by
  obtain ⟨-, parts, -, -, hcollect⟩ := exists_elements_of_parse hc
  obtain ⟨es, hes, -, rfl⟩ := collect_eq_ok_iff.mp hcollect
  intro e he
  obtain ⟨e₀, -, hexpand⟩ := exists_mem_of_forall₂ hes.flip he
  obtain ⟨-, hproperties, hreferences, -⟩ := Entity.expand_eq_iff.mp hexpand
  constructor
  · intro x hx _ p hp
    refine OrderedMap.clear_of_canonical hfull (fun _ => hproperties.exists_expand_of_mem_keys) ?_
    exact hproperty x hx p (by rw [hp]; rfl)
  · intro x hx _ p hp
    refine OrderedMap.clear_of_canonical hfull (fun _ => hreferences.exists_expand_of_mem_keys) ?_
    exact hreference x hx p (by rw [hp]; rfl)

/-! ### A register in two spellings -/

/-- The context of the register. -/
def registerContext : Json := .object [
  ("id", .string contextId), ("namespaces", .object [("z", .string "http://x/")])]

/-- The person of the register, its expansions written out or not. -/
def registerPerson (id name type : String) : Json := .object [
  ("id", .string id),
  ("props", .object (Json.sortMembers [
    (name, .array [.string "Ada", .string "Augusta"]), ("name", .string "Lovelace")])),
  ("refs", .object [(type, .string "urn:Person")])]

/-- The register with expansions written out. -/
def registerLong : String :=
  "[\x7b\"id\": \"@context\", \"namespaces\": \x7b\"z\": \"http://x/\"\x7d\x7d," ++
  "\x7b\"id\": \"http://x/ada\", \"props\": " ++
  "\x7b\"http://x/name\": [\"Ada\", \"Augusta\"], \"name\": \"Lovelace\"\x7d, \"refs\": " ++
  "\x7b\"http://www.w3.org/1999/02/22-rdf-syntax-ns#type\": \"urn:Person\"\x7d\x7d]"

/-- The register with labels. -/
def registerShort : String :=
  "[\x7b\"id\": \"@context\", \"namespaces\": \x7b\"z\": \"http://x/\"\x7d\x7d," ++
  "\x7b\"id\": \"z:ada\", \"props\": " ++
  "\x7b\"z:name\": [\"Ada\", \"Augusta\"], \"name\": \"Lovelace\"\x7d, \"refs\": " ++
  "\x7b\"rdf:type\": \"urn:Person\"\x7d\x7d]"

/-- The elements of the two. -/
def elementsLong : List Json :=
  [registerContext, registerPerson "http://x/ada" "http://x/name" Vocabulary.rdfType]

def elementsShort : List Json := [registerContext, registerPerson "z:ada" "z:name" "rdf:type"]

theorem sortedOfText_registerLong : Json.sortedOfText registerLong = .ok (.array elementsLong) := by
  unfold registerLong
  refine Json.sortedOfText_of_toList (toList_append_of (toList_append_of (toList_append_of
    String.toList_ofList String.toList_ofList) String.toList_ofList) String.toList_ofList) ?_
  decide +kernel

theorem sortedOfText_registerShort :
    Json.sortedOfText registerShort = .ok (.array elementsShort) := by
  unfold registerShort
  refine Json.sortedOfText_of_toList (toList_append_of (toList_append_of (toList_append_of
    String.toList_ofList String.toList_ofList) String.toList_ofList) String.toList_ofList) ?_
  decide +kernel

theorem respelled_register :
    List.Forall₂ (RespelledElement (table elementsLong)) elementsLong elementsShort := by
  have htable : table elementsLong = Namespaces.standard.bind "z" "http://x/" := by decide +kernel
  have hcontext : elementId? registerContext = some contextId := by decide +kernel
  rw [htable]
  refine .cons (.other fun id hid hentity => ?_) (.cons ?_ .nil)
  · rw [hcontext] at hid
    exact hentity.1 (Option.some.inj hid).symm
  · have hid : elementId? (registerPerson "http://x/ada" "http://x/name" Vocabulary.rdfType) =
        some "http://x/ada" := by decide +kernel
    have hid' : elementId? (registerPerson "z:ada" "z:name" "rdf:type") = some "z:ada" := by
      decide +kernel
    refine .entity hid hid' ⟨by decide, by decide⟩ ⟨by decide, by decide⟩ (by decide +kernel) ?_ ?_
      (by decide +kernel)
    · have hlong : members? ((registerPerson "http://x/ada" "http://x/name"
          Vocabulary.rdfType).member? "props") =
          some [("http://x/name", .array [.string "Ada", .string "Augusta"]),
            ("name", .string "Lovelace")] := by decide +kernel
      have hshort : members? ((registerPerson "z:ada" "z:name" "rdf:type").member? "props") =
          some [("name", .string "Lovelace"),
            ("z:name", .array [.string "Ada", .string "Augusta"])] := by decide +kernel
      unfold RespelledField
      rw [hlong, hshort]
      exact .some (by decide +kernel)
    · exact .some (by decide +kernel)

/-- The collection of the register, with the names of the person in the order of their keys. -/
def registered (names : List (String × Slot Literal)) : Collection :=
  let ada : Entity :=
    { id := "http://x/ada"
      properties := .ofList names
      references := .ofList [(Vocabulary.rdfType, .one "urn:Person")] }
  ⟨Namespaces.standard.bind "z" "http://x/", none, [ada], Collection.positions [ada]⟩

/-- The names of the person, the longer key first. -/
def adaNames : List (String × Slot Literal) :=
  [("http://x/name", .many [.string "Ada", .string "Augusta"]), ("name", .one (.string "Lovelace"))]

theorem parse_registerLong : parse registerLong = .ok (registered adaNames) :=
  (parse_of_sortedOfText sortedOfText_registerLong).trans (by decide +kernel)

/-- In the short spelling the keys stand the other way round. -/
theorem parse_registerShort : parse registerShort = .ok (registered adaNames.reverse) :=
  (parse_of_sortedOfText sortedOfText_registerShort).trans (by decide +kernel)

/-- The rule that a person has one value of a property, which is named as it is written. -/
def oneValue (property : String) : Collection :=
  let (draft, _) := SchemaBuilder.empty.startConstraint .property "urn:Person"
  { namespaces := (Namespaces.standard.bind Namespaces.bareLabel "http://x/").bind "ex" "http://x/"
    entities := [(draft.setBound Vocabulary.maxCard 1).entity.setProperty Vocabulary.propertyClass
      (.one (.string property))] }

open Validator (plain)

/-- Both spellings of the register are refused by the rule that a person has one name. -/
theorem respelled_agree_register :
    Json.sortedOfText registerLong = .ok (.array elementsLong) ∧
    Json.sortedOfText registerShort = .ok (.array elementsShort) ∧
    List.Forall₂ (RespelledElement (table elementsLong)) elementsLong elementsShort ∧
    ∃ c c' vs, parse registerLong = .ok c ∧ parse registerShort = .ok c' ∧ c.Same c' ∧
      plain.validateCollection (.ofCollection (oneValue "http://x/name")) c = .ok vs ∧
      vs.map Violation.kind = [.maxPropertyOccurrenceExceeded] ∧
      tallied (plain.validateCollection (.ofCollection (oneValue "http://x/name")) c') =
        tallied (.ok vs) := by
  have hfound : (plain.validateCollection (.ofCollection (oneValue "http://x/name"))
      (registered adaNames)).toOption.map (·.map Violation.kind) =
        some [.maxPropertyOccurrenceExceeded] := by
    decide +kernel
  have hclear : ∀ e ∈ (registered adaNames).entities,
      e.Clear (.ofCollection (oneValue "http://x/name")) :=
    clear_of_parse parse_registerLong (Namespaces.fullExpansions_of_bindings (by decide +kernel))
      (by decide +kernel) (by decide +kernel)
  obtain ⟨hparse, -, hdata⟩ :=
    respelled_agree sortedOfText_registerLong sortedOfText_registerShort respelled_register
  rw [parse_registerLong, parse_registerShort] at hparse
  obtain ⟨vs, hvs, hkinds⟩ := exists_ok_of_toOption_map hfound
  refine ⟨sortedOfText_registerLong, sortedOfText_registerShort, respelled_register, _, _, vs,
    parse_registerLong, parse_registerShort, hparse.rel, hvs, hkinds, ?_⟩
  rw [← hvs]
  exact (hdata _ _ parse_registerLong parse_registerShort plain _ (fun _ h => nomatch h)
    hclear).symm

/-- Not every schema takes two spellings for the same data: where a constraint names a property
short and two properties of a person denote it, the first one is taken, and which one this is
depends on how they are spelled. -/
theorem not_forall_respelled_agree :
    ¬ ∀ (text text' : String) (elements elements' : List Json) (c c' : Collection)
      (v : Validator (Except ValidationError)) (col : Collection),
      Json.sortedOfText text = .ok (.array elements) →
      Json.sortedOfText text' = .ok (.array elements') →
      (table elements).FullExpansions →
      List.Forall₂ (RespelledElement (table elements)) elements elements' →
      parse text = .ok c → parse text' = .ok c' → v.rules.entries = [] →
      tallied (v.validateCollection (.ofCollection col) c) =
        tallied (v.validateCollection (.ofCollection col) c') := by
  intro h
  have hlong : (plain.validateCollection (.ofCollection (oneValue "ex:name"))
      (registered adaNames)).toOption.map List.length = some 1 := by decide +kernel
  have hshort : (plain.validateCollection (.ofCollection (oneValue "ex:name"))
      (registered adaNames.reverse)).toOption.map List.length = some 0 := by decide +kernel
  have htallied := h _ _ _ _ _ _ plain (oneValue "ex:name") sortedOfText_registerLong
    sortedOfText_registerShort (Namespaces.fullExpansions_of_bindings (by decide +kernel))
    respelled_register parse_registerLong parse_registerShort rfl
  obtain ⟨vs, hvs, hlength⟩ := exists_ok_of_toOption_map hlong
  obtain ⟨ws, hws, hlength'⟩ := exists_ok_of_toOption_map hshort
  rw [hvs, hws] at htallied
  have hcard := congrArg Multiset.card (Except.ok.inj htallied)
  rw [Multiset.coe_card, Multiset.coe_card, List.length_map, List.length_map] at hcard
  omega

end Document

end EntityGraph
