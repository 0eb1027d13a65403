import EntityGraph.Proofs.Failure
import EntityGraph.Proofs.Shape

/-!
# The grammar of documents

Which JSON values are documents, what is read from them, and why the others are refused. A document
is accepted exactly if its elements are well formed, no two entities are written with the same
identifier, all identifiers expand by the table of all its contexts, and no two entities expand to
the same identifier. These conditions are checked in this order, and the first one that is violated
decides the error.

Results:
* `Entity.error?_expand`: the first identifier of an entity without expansion stops the expansion.
* `Document.names_of_readAs`: the identifiers of an element are those of its entity.
* `Document.exists_expand_iff`: when the entities of elements expand.
* `Document.exists_ofJson_iff`, `Document.holds_of_ofJson`, `Document.refusal_of_ofJson`: which
  documents are accepted, what they hold, and why the others are refused.
* `Document.ofJson_grammar`: these together, and that contexts can stand anywhere.
-/

namespace EntityGraph

/-! ## What stops a computation -/

/-- What stopped a computation. -/
def failure? {ε α : Type} : Except ε α → Option ε
  | .ok _ => none
  | .error err => some err

section

variable {ε α β : Type}

theorem failure?_eq_none_iff {x : Except ε α} : failure? x = none ↔ ∃ a, x = .ok a := by
  cases x <;> simp [failure?]

theorem failure?_eq_some_iff {x : Except ε α} {err : ε} :
    failure? x = some err ↔ x = .error err := by
  cases x <;> simp [failure?]

theorem failure?_mapM (f : α → Except ε β) (l : List α) :
    failure? (l.mapM f) = l.findSome? fun a => failure? (f a) := by
  induction l with
  | nil => rfl
  | cons a l ih =>
    rw [List.mapM_cons, List.findSome?_cons, ← ih]
    cases f a with
    | error err => rfl
    | ok b => cases l.mapM f <;> rfl

theorem failure?_mapE (f : α → Except ε β) (slot : Slot α) :
    failure? (slot.mapE f) = slot.toList.findSome? fun a => failure? (f a) := by
  cases slot with
  | one a =>
    rw [Slot.mapE, Slot.toList, List.findSome?_singleton]
    cases f a <;> rfl
  | many as =>
    rw [Slot.mapE, Slot.toList, ← failure?_mapM]
    cases as.mapM f <;> rfl

/-- A fold whose steps fail by their elements alone is stopped by the first that does. -/
theorem failure?_foldlM {f : β → α → Except ε β} {g : α → Option ε}
    (h : ∀ b a, failure? (f b a) = g a) (l : List α) (b : β) :
    failure? (l.foldlM f b) = l.findSome? g := by
  induction l generalizing b with
  | nil => rfl
  | cons a l ih =>
    rw [List.foldlM_cons, List.findSome?_cons, ← h b a]
    cases f b a with
    | error err => rfl
    | ok b' => exact ih b'

theorem findSome?_flatMap {γ : Type} (f : β → Option γ) (g : α → List β) (l : List α) :
    (l.flatMap g).findSome? f = l.findSome? fun a => (g a).findSome? f := by
  induction l with
  | nil => rfl
  | cons a l ih =>
    rw [List.flatMap_cons, List.findSome?_append, List.findSome?_cons, ih]
    cases (g a).findSome? f <;> rfl

end

/-! ## The identifiers of an entity -/

namespace Entity

/-- The identifiers of an entity in the order of their expansion: its own, the predicates of its
properties, and the targets of each reference before its predicate. -/
def names (e : Entity) : List String :=
  e.id :: (e.properties.keys ++ e.references.toList.flatMap fun x => x.2.toList ++ [x.1])

theorem failure?_expandProperties (ns : Namespaces) (m : OrderedMap String (Slot Literal)) :
    failure? (expandProperties ns m) = m.keys.findSome? fun s => failure? (ns.expand s) := by
  rw [OrderedMap.keys, List.findSome?_map]
  refine failure?_foldlM (fun acc x => ?_) _ _
  rw [Function.comp_apply]
  cases ns.expand x.1 <;> rfl

theorem failure?_expandReferences (ns : Namespaces) (m : OrderedMap String (Slot String)) :
    failure? (expandReferences ns m) = (m.toList.flatMap fun x =>
      x.2.toList ++ [x.1]).findSome? fun s => failure? (ns.expand s) := by
  rw [findSome?_flatMap]
  refine failure?_foldlM (fun acc x => ?_) _ _
  rw [List.findSome?_append, List.findSome?_singleton, ← failure?_mapE]
  cases x.2.mapE ns.expand with
  | error err => rfl
  | ok targets => cases ns.expand x.1 <;> rfl

/-- **The first identifier of an entity without expansion stops the expansion.** -/
theorem error?_expand (ns : Namespaces) (e : Entity) :
    (e.expand ns).error? = e.names.findSome? fun s => failure? (ns.expand s) := by
  rw [names, List.findSome?_cons, List.findSome?_append, ← failure?_expandProperties,
    ← failure?_expandReferences]
  unfold expand
  cases ns.expand e.id with
  | error err => rfl
  | ok id =>
    cases expandProperties ns e.properties with
    | error err => rfl
    | ok properties => cases expandReferences ns e.references <;> rfl

/-- An entity expands exactly if all its identifiers do. -/
theorem exists_expand_iff {ns : Namespaces} {e : Entity} :
    (∃ e', e.expand ns = ⟨e', none⟩) ↔ ∀ s ∈ e.names, ∃ uri, ns.expand s = .ok uri := by
  have hnone : (∃ e', e.expand ns = ⟨e', none⟩) ↔ (e.expand ns).error? = none := by
    constructor
    · rintro ⟨e', he'⟩
      rw [he']
    · exact fun h => ⟨(e.expand ns).value, by rw [← h]⟩
  rw [hnone, error?_expand, List.findSome?_eq_none_iff]
  simp only [failure?_eq_none_iff]

end Entity

/-- Entities are added up to the first whose identifier stands before. -/
theorem Collection.addAll_eq_error {ns : Namespaces} {es : List Entity} {err : EntityError}
    (h : (empty ns).addAll es = .error err) : ∃ before e after, es = before ++ e :: after ∧
      (before.map Entity.id).Nodup ∧ e.id ∈ before.map Entity.id ∧
      err = .duplicateEntity e.id := by
  obtain ⟨before, e, after, c, rfl, hbefore, hadd⟩ := foldlM_eq_error_iff.mp h
  obtain ⟨hnodup, rfl⟩ := addAll_eq_ok_iff.mp hbefore
  obtain ⟨hmem, rfl⟩ := add_eq_error_iff.mp hadd
  refine ⟨before, e, after, rfl, hnodup, ?_, rfl⟩
  rw [← keys_positions hnodup, OrderedMap.mem_keys_iff, ← Option.isSome_iff_exists]
  exact hmem

theorem Collection.expand_of_expanded {c : Collection} {err : EntityError}
    (h : c.expanded = .error err) : ∃ c', c.expand = ⟨c', some err⟩ := by
  unfold expanded at h
  split at h
  · cases h
  · rename_i c' err' hexpand
    obtain rfl := Except.error.inj h
    exact ⟨c', hexpand⟩

namespace Document

/-! ## The identifiers of an element -/

/-- The members of a field, none if it is absent. -/
def membersOf (v : Json) (field : String) : List (String × Json) :=
  (members? (v.member? field)).getD []

/-- The targets that a value writes. -/
def targets : Json → List String
  | .string s => [s]
  | .array items => items.filterMap readString?
  | _ => []

/-- The identifiers of an element in the order of their expansion: its own, the keys of its
properties, and the targets of each reference before its key. -/
def names (v : Json) : List String :=
  (elementId? v).toList ++ ((membersOf v "props").map Prod.fst ++
    (membersOf v "refs").flatMap fun e => targets e.2 ++ [e.1])

/-- No key stands twice in a field of an element. -/
def DistinctKeys (v : Json) : Prop := ∀ field, ((membersOf v field).map Prod.fst).Nodup

/-- Keys are distinct where members are sorted. -/
theorem distinctKeys_sorted (v : Json) : DistinctKeys v.sorted := by
  intro field
  unfold membersOf
  cases hmember : v.sorted.member? field with
  | none => exact List.nodup_nil
  | some w =>
    cases w with
    | object members =>
      cases v with
      | object fields =>
        rw [Json.sorted, Json.member?_object] at hmember
        have hmem := Json.mem_sortMembers (OrderedMap.mem_of_find hmember)
        rw [Json.sortedMembers_eq_map] at hmem
        obtain ⟨⟨k, w⟩, -, heq⟩ := List.mem_map.mp hmem
        obtain ⟨-, hw⟩ := Prod.mk.inj heq
        cases w with
        | object inner =>
          rw [Json.sorted] at hw
          rw [← Json.object.inj hw]
          exact Json.nodup_sortMembers _
        | _ => simp [Json.sorted] at hw
      | _ => simp [Json.sorted, Json.member?] at hmember
    | _ => exact List.nodup_nil

theorem distinctKeys_of_sorted_eq {v : Json} {elements : List Json}
    (h : v.sorted = .array elements) : ∀ w ∈ elements, DistinctKeys w := by
  cases v with
  | array items =>
    rw [Json.sorted, Json.sortedItems_eq_map] at h
    obtain rfl := Json.array.inj h
    intro w hw
    obtain ⟨w', -, rfl⟩ := List.mem_map.mp hw
    exact distinctKeys_sorted w'
  | _ => simp [Json.sorted] at h

theorem filterMap_of_mapM {α β : Type} {f : α → Option β} {l : List α} {out : List β}
    (h : l.mapM f = some out) : l.filterMap f = out := by
  induction l generalizing out with
  | nil => simpa using h
  | cons a l ih =>
    rw [List.mapM_cons] at h
    obtain ⟨b, hb, h⟩ := Option.bind_eq_some_iff.mp h
    obtain ⟨bs, hbs, h⟩ := Option.bind_eq_some_iff.mp h
    rw [List.filterMap_cons_some hb, ih hbs]
    exact Option.some.inj h

theorem toList_of_read {w : Json} {slot : Slot String}
    (h : Slot.ofJson? readString? w = some slot) : slot.toList = targets w := by
  cases w with
  | string s =>
    obtain rfl := Option.some.inj h
    rfl
  | array items =>
    obtain ⟨ss, hss, rfl⟩ := Option.map_eq_some_iff.mp h
    exact (filterMap_of_mapM hss).symm
  | _ => cases h

/-- What is read from a field with distinct keys is held in the table that is made of it. -/
theorem forall₂_membersOf {α : Type} {expected field : String} {read : Json → Option α} {v : Json}
    {pairs : List (String × α)} (hkeys : DistinctKeys v)
    (h : readTable expected read (v.member? field) = .ok pairs) :
    List.Forall₂ (fun e p => p.1 = e.1 ∧ read e.2 = some p.2) (membersOf v field)
      (OrderedMap.ofList pairs).toList := by
  obtain ⟨members, hmembers, hread⟩ := readTable_eq_ok_iff.mp h
  have hdistinct := hkeys field
  unfold membersOf at hdistinct ⊢
  rw [hmembers, Option.getD_some] at hdistinct ⊢
  rw [map_eq_of_forall₂ hread fun _ _ hp => hp.1.symm] at hdistinct
  rw [OrderedMap.toList_ofList_of_nodup hdistinct]
  exact hread

/-- **The identifiers of an element are those of its entity.** -/
theorem names_of_readAs {v : Json} {e : Entity} (hkeys : DistinctKeys v) (h : ReadAs v e) :
    names v = e.names := by
  obtain ⟨id, hid, hread⟩ := h
  obtain ⟨props, refs, hprops, hrefs, rfl, hp, hr⟩ := exists_of_readEntity hread
  have hpredicates := map_eq_of_forall₂ (f := Prod.fst) (g := Prod.fst)
    (forall₂_membersOf hkeys hprops) fun _ _ hm => hm.1.symm
  have htargets := map_eq_of_forall₂ (f := fun m => targets m.2 ++ [m.1])
    (g := fun x => x.2.toList ++ [x.1]) (forall₂_membersOf hkeys hrefs) fun _ _ hm => by
      rw [hm.1, toList_of_read hm.2]
  unfold names Entity.names
  rw [hid, hp, hr, OrderedMap.keys, List.flatMap_def, List.flatMap_def, hpredicates, htargets]
  rfl

theorem id_of_readAs {v : Json} {e : Entity} (h : ReadAs v e) : elementId? v = some e.id := by
  obtain ⟨id, hid, hread⟩ := h
  obtain ⟨_, _, -, -, rfl, -, -⟩ := exists_of_readEntity hread
  exact hid

theorem deleted_of_readAs {v : Json} {e : Entity} (h : ReadAs v e) :
    e.deleted = true ↔ v.member? "deleted" = some (.bool true) := by
  obtain ⟨id, -, hread⟩ := h
  unfold readEntity at hread
  obtain ⟨props, -, hread⟩ := bind_eq_ok_iff.mp hread
  obtain ⟨refs, -, hread⟩ := bind_eq_ok_iff.mp hread
  split at hread
  · rename_i habsent
    obtain rfl := Except.ok.inj hread
    simp [habsent]
  · rename_i b hflag
    obtain rfl := Except.ok.inj hread
    simp [hflag]
  · cases hread

/-! ## What an element describes -/

/-- The members of a field are held in a table: their keys are expanded, their values are read, and
they are inserted in order. -/
def HeldIn {β : Type} (ns : Namespaces) (reads : Json → β → Prop) (members : List (String × Json))
    (m : OrderedMap String β) : Prop :=
  ∃ es, List.Forall₂ (fun w e => ns.expand w.1 = .ok e.1 ∧ reads w.2 e.2) members es ∧
    m = .ofList es

/-- The value of a member writes a reference whose targets are expanded. -/
def WritesTargets (ns : Namespaces) (w : Json) (slot' : Slot String) : Prop :=
  ∃ slot, Slot.ofJson? readString? w = some slot ∧ slot.mapE ns.expand = .ok slot'

/-- An element describes an entity: its identifier and its fields are expanded to what the entity
has. -/
structure Describes (ns : Namespaces) (v : Json) (e : Entity) : Prop where
  id : ∃ id, elementId? v = some id ∧ ns.expand id = .ok e.id
  properties : HeldIn ns WritesProperty (membersOf v "props") e.properties
  references : HeldIn ns (WritesTargets ns) (membersOf v "refs") e.references
  deleted : e.deleted = true ↔ v.member? "deleted" = some (.bool true)

/-- A field that is read to a table is held in what the table expands to. -/
theorem heldIn_of_expands {α β : Type} {ns : Namespaces} {members : List (String × Json)}
    {m : OrderedMap String α} {m' : OrderedMap String β} {reads : Json → α → Prop}
    {reads' : Json → β → Prop} {read : α → Except UnknownLabel β}
    (hread : List.Forall₂ (fun w e => e.1 = w.1 ∧ reads w.2 e.2) members m.toList)
    (h : m.Expands ns read m') (hreads : ∀ w a b, reads w a → read a = .ok b → reads' w b) :
    HeldIn ns reads' members m' := by
  obtain ⟨es, hes, rfl⟩ := h
  exact ⟨es, forall₂_trans (fun _ _ _ hw he => ⟨hw.1 ▸ he.1, hreads _ _ _ hw.2 he.2⟩) hread hes,
    rfl⟩

/-- **An element that is read describes what its entity expands to.** -/
theorem describes_of_expand {ns : Namespaces} {v : Json} {e e' : Entity} (hkeys : DistinctKeys v)
    (hread : ReadAs v e) (h : e.expand ns = ⟨e', none⟩) : Describes ns v e' := by
  obtain ⟨huri, hproperties, hreferences, hdeleted⟩ := Entity.expand_eq_iff.mp h
  have hflag := deleted_of_readAs hread
  have hid := id_of_readAs hread
  obtain ⟨id, -, hentity⟩ := hread
  obtain ⟨props, refs, hprops, hrefs, -, hp, hr⟩ := exists_of_readEntity hentity
  rw [hp] at hproperties
  rw [hr] at hreferences
  refine ⟨⟨e.id, hid, huri⟩, ?_, ?_, hdeleted ▸ hflag⟩
  · exact heldIn_of_expands (forall₂_membersOf hkeys hprops) hproperties
      fun w slot slot' hw hslot => Except.ok.inj hslot ▸ hw
  · exact heldIn_of_expands (forall₂_membersOf hkeys hrefs) hreferences
      fun w slot slot' hw hslot => ⟨slot, hw, hslot⟩

/-! ## Accepted documents -/

/-- The identifiers of elements, as they are written. -/
def writtenIds (vs : List Json) : List String := vs.filterMap elementId?

/-- Elements expand: all identifiers do, and no two of their own expand alike. -/
structure Expandable (ns : Namespaces) (vs : List Json) : Prop where
  expands : ∀ v ∈ vs, ∀ s ∈ names v, ∃ uri, ns.expand s = .ok uri
  apart : ((writtenIds vs).map ns.expand).Nodup

/-- Elements make a document: they are well formed, no two entities are written with the same
identifier, and the entities expand by the table of all contexts. -/
structure Grammatical (elements : List Json) : Prop where
  wellFormed : ∀ v ∈ elements, wellFormed v = true
  distinct : (writtenIds (elements.filter describesEntity)).Nodup
  expandable : Expandable (table elements) (elements.filter describesEntity)

/-- A collection holds what the elements of a document describe. -/
structure Holds (elements : List Json) (c : Collection) : Prop where
  namespaces : c.namespaces = table elements
  continuation : c.continuation = token? elements
  entities : List.Forall₂ (Describes (table elements)) (elements.filter describesEntity) c.entities
  index : c.index = Collection.positions c.entities

section

variable {vs : List Json} {es : List Entity} {ns : Namespaces}

theorem writtenIds_eq (h : List.Forall₂ ReadAs vs es) : writtenIds vs = es.map Entity.id := by
  induction h with
  | nil => rfl
  | cons hv _ ih =>
    rw [writtenIds, List.filterMap_cons_some (id_of_readAs hv), List.map_cons, ← ih, writtenIds]

theorem map_names_eq (hkeys : ∀ v ∈ vs, DistinctKeys v) (h : List.Forall₂ ReadAs vs es) :
    vs.map names = es.map Entity.names :=
  map_eq_of_forall₂ ((List.forall₂_and_left _ _).mpr ⟨hkeys, h⟩) fun _ _ hv =>
    names_of_readAs hv.1 hv.2

theorem map_expand_writtenIds (h : List.Forall₂ ReadAs vs es) {out : List Entity}
    (hout : List.Forall₂ (fun e e' => e.expand ns = ⟨e', none⟩) es out) :
    (writtenIds vs).map ns.expand = (out.map Entity.id).map .ok := by
  rw [writtenIds_eq h, List.map_map, List.map_map]
  exact map_eq_of_forall₂ hout fun _ _ he => (Entity.expand_eq_iff.mp he).1

/-- **When the entities of elements expand**, no two of them to the same identifier. -/
theorem exists_expand_iff (hkeys : ∀ v ∈ vs, DistinctKeys v) (h : List.Forall₂ ReadAs vs es) :
    (∃ out, List.Forall₂ (fun e e' => e.expand ns = ⟨e', none⟩) es out ∧
      (out.map Entity.id).Nodup) ↔ Expandable ns vs := by
  have hall : (∃ out, List.Forall₂ (fun e e' => e.expand ns = ⟨e', none⟩) es out) ↔
      ∀ v ∈ vs, ∀ s ∈ names v, ∃ uri, ns.expand s = .ok uri := by
    rw [exists_forall₂_iff]
    simp only [Entity.exists_expand_iff]
    have hnames := map_names_eq hkeys h
    rw [← List.forall_mem_map (P := fun l => ∀ s ∈ l, ∃ uri, ns.expand s = .ok uri), ← hnames,
      List.forall_mem_map]
  have hids : ∀ out, List.Forall₂ (fun e e' => e.expand ns = ⟨e', none⟩) es out →
      ((out.map Entity.id).Nodup ↔ ((writtenIds vs).map ns.expand).Nodup) := by
    intro out hout
    rw [map_expand_writtenIds h hout, List.nodup_map_iff fun _ _ heq => Except.ok.inj heq]
  constructor
  · rintro ⟨out, hout, hnodup⟩
    exact ⟨hall.mp ⟨out, hout⟩, (hids out hout).mp hnodup⟩
  · rintro ⟨hexpands, hapart⟩
    obtain ⟨out, hout⟩ := hall.mpr hexpands
    exact ⟨out, hout, (hids out hout).mpr hapart⟩

end

section

variable {elements : List Json} (hkeys : ∀ v ∈ elements, DistinctKeys v)

include hkeys

theorem distinctKeys_filter : ∀ v ∈ elements.filter describesEntity, DistinctKeys v :=
  fun v hv => hkeys v (List.mem_filter.mp hv).1

/-- **Which documents are accepted.** -/
theorem exists_ofJson_iff : (∃ c, ofJson (.array elements) = .ok c) ↔ Grammatical elements := by
  constructor
  · rintro ⟨c, hc⟩
    obtain ⟨parts, hparts, hcollect⟩ := bind_eq_ok_iff.mp hc
    obtain ⟨hwell, hof⟩ := Parts.ofElements_eq_ok_iff.mp hparts
    obtain ⟨out, hout, hnodup, -⟩ := collect_eq_ok_iff.mp hcollect
    refine ⟨hwell, ?_, (exists_expand_iff (distinctKeys_filter hkeys) hof.entities).mp
      ⟨out, hof.namespaces ▸ hout, hnodup⟩⟩
    rw [writtenIds_eq hof.entities]
    exact Collection.nodup_ids_of_expand hout hnodup
  · rintro ⟨hwell, -, hexpandable⟩
    obtain ⟨parts, hparts⟩ : ∃ parts, Parts.ofElements elements = .ok parts :=
      exists_foldlM_read_iff.mpr hwell
    have hof := Parts.of_ofElements hparts
    obtain ⟨out, hout, hnodup⟩ :=
      (exists_expand_iff (distinctKeys_filter hkeys) hof.entities).mpr hexpandable
    rw [← hof.namespaces] at hout
    exact ⟨_, bind_eq_ok_iff.mpr ⟨parts, hparts, collect_eq_ok_iff.mpr ⟨out, hout, hnodup, rfl⟩⟩⟩

/-- **What an accepted document holds.** -/
theorem holds_of_ofJson {c : Collection} (h : ofJson (.array elements) = .ok c) :
    Holds elements c := by
  obtain ⟨parts, hparts, hcollect⟩ := bind_eq_ok_iff.mp h
  obtain ⟨hns, htoken, hread⟩ := Parts.of_ofElements hparts
  obtain ⟨out, hout, -, rfl⟩ := collect_eq_ok_iff.mp hcollect
  refine ⟨hns, htoken, ?_, rfl⟩
  rw [← hns]
  refine forall₂_trans (fun v e e' hv he => ?_)
    ((List.forall₂_and_left _ _).mpr ⟨distinctKeys_filter hkeys, hread⟩) hout
  exact describes_of_expand hv.1 hv.2 he

end

/-! ## Refused documents -/

/-- How an element is refused whose entity is expanded behind others: it has an identifier without
expansion, or its own expands to one that is taken. -/
inductive Blocked (ns : Namespaces) (before : List Json) (v : Json) : EntityError → Prop
  | unknownLabel {err : UnknownLabel}
    (h : (names v).findSome? (fun s => failure? (ns.expand s)) = some err) :
    Blocked ns before v (.ofUnknownLabel err)
  | duplicate {id uri : String} (h : ∀ s ∈ names v, ∃ uri, ns.expand s = .ok uri)
    (hid : elementId? v = some id) (huri : ns.expand id = .ok uri)
    (hmem : .ok uri ∈ (writtenIds before).map ns.expand) :
    Blocked ns before v (.duplicateEntity uri)

/-- Why a value is no document: it is no array; or else for its first malformed element; or else for
the first entity whose identifier is written before; or else for the first entity that does not
expand or expands to an identifier that is taken. -/
inductive Refusal : Json → EntityError → Prop
  | noArray {v : Json} (h : ∀ elements, v ≠ .array elements) :
    Refusal v (.malformedDocument "document must be a JSON array")
  | element {before after : List Json} {v : Json} {err : EntityError}
    (hbefore : ∀ w ∈ before, wellFormed w = true) (h : RefusedAt before.length v err) :
    Refusal (.array (before ++ v :: after)) err
  | repeated {elements before after : List Json} {v : Json} {id : String}
    (hwell : ∀ w ∈ elements, wellFormed w = true)
    (hsplit : elements.filter describesEntity = before ++ v :: after)
    (hbefore : (writtenIds before).Nodup) (hid : elementId? v = some id)
    (hmem : id ∈ writtenIds before) : Refusal (.array elements) (.duplicateEntity id)
  | expansion {elements before after : List Json} {v : Json} {err : EntityError}
    (hwell : ∀ w ∈ elements, wellFormed w = true)
    (hdistinct : (writtenIds (elements.filter describesEntity)).Nodup)
    (hsplit : elements.filter describesEntity = before ++ v :: after)
    (hbefore : Expandable (table elements) before) (h : Blocked (table elements) before v err) :
    Refusal (.array elements) err

/-- **Why the parts of a document are refused**, read from well-formed elements. -/
theorem refusal_of_collect {elements : List Json} (hkeys : ∀ v ∈ elements, DistinctKeys v)
    (hwell : ∀ v ∈ elements, wellFormed v = true) {parts : Parts} (hof : Parts.Of elements parts)
    {err : EntityError} (h : parts.collect = .error err) : Refusal (.array elements) err := by
  obtain ⟨hns, -, hread⟩ := hof
  unfold Parts.collect at h
  cases hadd : (Collection.empty parts.namespaces).addAll parts.entities with
  | error err' =>
    rw [hadd] at h
    obtain rfl := Except.error.inj h
    obtain ⟨before, e, after, hes, hnodup, hmem, rfl⟩ := Collection.addAll_eq_error hadd
    rw [hes] at hread
    obtain ⟨before', v, after', hsplit, hbefore, hv⟩ := exists_split_of_forall₂ hread
    rw [← writtenIds_eq hbefore] at hnodup hmem
    exact .repeated hwell hsplit hnodup (id_of_readAs hv) hmem
  | ok c =>
    rw [hadd, ok_bind] at h
    obtain ⟨hnodup, rfl⟩ := Collection.addAll_eq_ok_iff.mp hadd
    rw [← writtenIds_eq hread] at hnodup
    obtain ⟨c', hexpand⟩ := Collection.expand_of_expanded h
    obtain ⟨before, e, after, done, hes, ⟨hbefore, hapart, hhalts⟩, -⟩ :=
      Collection.expand_eq_error_iff.mp hexpand
    simp only at hes hbefore hhalts
    rw [hes] at hread
    obtain ⟨before', v, after', hsplit, hread', hv⟩ := exists_split_of_forall₂ hread
    have hkeys' := distinctKeys_filter hkeys
    rw [hsplit, List.forall_mem_append, List.forall_mem_cons] at hkeys'
    rw [hns] at hbefore hhalts
    refine .expansion hwell hnodup hsplit
      ((exists_expand_iff hkeys'.1 hread').mp ⟨done, hbefore, hapart⟩) ?_
    have hnames := names_of_readAs hkeys'.2.1 hv
    cases hhalts with
    | unknownLabel hu =>
      rw [Entity.error?_expand, ← hnames] at hu
      exact .unknownLabel hu
    | duplicate he hmem =>
      refine .duplicate (hnames ▸ Entity.exists_expand_iff.mp ⟨_, he⟩) (id_of_readAs hv)
        (Entity.expand_eq_iff.mp he).1 ?_
      rw [map_expand_writtenIds hread' hbefore]
      exact List.mem_map_of_mem hmem

/-- **Why a value is refused.** -/
theorem refusal_of_ofJson {v : Json} {err : EntityError} (h : ofJson v.sorted = .error err) :
    Refusal v.sorted err := by
  cases hv : v.sorted with
  | array elements =>
    rw [hv, ofJson] at h
    cases hparts : Parts.ofElements elements with
    | error err' =>
      rw [hparts] at h
      obtain rfl := Except.error.inj h
      obtain ⟨before, w, after, rfl, hbefore, hrefused⟩ := refusedAt_of_ofElements hparts
      exact .element hbefore hrefused
    | ok parts =>
      rw [hparts, ok_bind] at h
      obtain ⟨hwell, hof⟩ := Parts.ofElements_eq_ok_iff.mp hparts
      exact refusal_of_collect (distinctKeys_of_sorted_eq hv) hwell hof h
  | _ =>
    rw [hv] at h
    obtain rfl := Except.error.inj h
    exact .noArray fun _ => by simp

/-- **The grammar of documents.** Values are taken as a reader leaves them, with the members of
objects sorted by key. A value is accepted exactly if it is an array that is grammatical. Then the
collection holds the table of all contexts, the token of the last continuation and one entity for
each other element, in order. Contexts can stand anywhere among the other elements: the result is
the same. And a value that is refused is refused for the first reason there is. -/
theorem ofJson_grammar (v : Json) :
    ((∃ c, ofJson v.sorted = .ok c) ↔
      ∃ elements, v.sorted = .array elements ∧ Grammatical elements) ∧
    (∀ elements c, v.sorted = .array elements → ofJson v.sorted = .ok c → Holds elements c) ∧
    (∀ elements elements', v.sorted = .array elements → ContextsMoved elements elements' →
      ((∀ w ∈ elements, wellFormed w = true) →
        ofJson v.sorted = ofJson (.array elements')) ∧
      ∀ c, ofJson v.sorted = .ok c ↔ ofJson (.array elements') = .ok c) ∧
    ∀ err, ofJson v.sorted = .error err → Refusal v.sorted err := by
  refine ⟨⟨?_, ?_⟩, ?_, ?_, fun err => refusal_of_ofJson⟩
  · rintro ⟨c, hc⟩
    cases hv : v.sorted with
    | array elements =>
      rw [hv] at hc
      exact ⟨elements, rfl, (exists_ofJson_iff (distinctKeys_of_sorted_eq hv)).mp ⟨c, hc⟩⟩
    | _ => simp [hv, ofJson] at hc
  · rintro ⟨elements, hv, hgrammatical⟩
    rw [hv]
    exact (exists_ofJson_iff (distinctKeys_of_sorted_eq hv)).mpr hgrammatical
  · intro elements c hv hc
    rw [hv] at hc
    exact holds_of_ofJson (distinctKeys_of_sorted_eq hv) hc
  · intro elements elements' hv hmoved
    rw [hv]
    exact ofJson_moved hmoved

/-- The register is grammatical and holds its person, also with the context at its end. A value with
an element that is no object is refused for it. -/
theorem ofJson_grammar_register :
    Grammatical elementsShort ∧ Holds elementsShort (registered adaNames.reverse) ∧
    ofJson (.array elementsShort.reverse) = .ok (registered adaNames.reverse) ∧
    Refusal (.array [.null]) (.malformedDocument "element 0 has no string id") := by
  have hsorted : (Json.array elementsShort).sorted = .array elementsShort := by decide +kernel
  have hread : ofJson (Json.array elementsShort).sorted = .ok (registered adaNames.reverse) := by
    rw [hsorted, ← parse_of_sortedOfText sortedOfText_registerShort]
    exact parse_registerShort
  have hfilters : elementsShort.filter isContext = elementsShort.reverse.filter isContext ∧
      (elementsShort.filter fun v => !isContext v) =
        elementsShort.reverse.filter fun v => !isContext v := by
    decide +kernel
  obtain ⟨haccepted, hholds, hmoved, -⟩ := ofJson_grammar (.array elementsShort)
  obtain ⟨_, -, -, hrefused⟩ := ofJson_grammar (.array [.null])
  obtain ⟨elements, helements, hgrammatical⟩ := haccepted.mp ⟨_, hread⟩
  obtain rfl := Json.array.inj (hsorted.symm.trans helements)
  refine ⟨hgrammatical, hholds _ _ hsorted hread, ?_, hrefused _ (by decide +kernel)⟩
  exact ((hmoved _ _ hsorted ⟨hfilters.1, hfilters.2⟩).2 _).mp hread

end Document

end EntityGraph
