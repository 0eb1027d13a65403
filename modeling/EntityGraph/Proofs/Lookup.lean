import EntityGraph.Proofs.Grammar

/-!
# Looking up loaded entities

Loading a document expands every identifier in it. Where the table binds labels to full URIs only,
what was expanded stands for itself from then on: there is nothing left to expand, and an entity is
found under every spelling of its identifier, also under those that the document does not use.

Results:
* `Entity.settled_of_expand`: the identifiers of an expanded entity stand for themselves.
* `Entity.Settled.expand_eq`: an entity whose identifiers stand for themselves expands to itself.
* `Collection.Reindexed.get?_eq_some_iff`: which entity a look-up finds.
* `Document.settled_of_parse`: a loaded document has nothing left to expand, and its entities are
  found under every spelling.
-/

namespace EntityGraph

namespace OrderedMap

variable {α β : Type} {ns : Namespaces}

theorem mem_of_mem_ofList {κ ν : Type} [DecidableEq κ] {l : List (κ × ν)} {e : κ × ν}
    (h : e ∈ (ofList l).toList) : e ∈ l := by
  have hget := mem_toList_iff.mp (show (e.1, e.2) ∈ (ofList l).toList from h)
  rw [get?_ofList] at hget
  obtain ⟨e', hfind, hvalue⟩ := Option.map_eq_some_iff.mp hget
  have hkey : e'.1 = e.1 := by simpa using List.find?_some hfind
  rw [← Prod.ext hkey hvalue]
  exact List.mem_reverse.mp (List.mem_of_find?_eq_some hfind)

/-- An entry of an expanded table comes from one of the table that was expanded. -/
theorem Expands.exists_of_mem {read : α → Except UnknownLabel β} {m : OrderedMap String α}
    {m' : OrderedMap String β} (h : m.Expands ns read m') {e' : String × β} (he' : e' ∈ m'.toList) :
    ∃ e ∈ m.toList, ns.expand e.1 = .ok e'.1 ∧ read e.2 = .ok e'.2 := by
  obtain ⟨es, hes, rfl⟩ := h
  exact exists_mem_of_forall₂ hes.flip (mem_of_mem_ofList he')

/-- A table whose keys and values stand for themselves expands to itself. -/
theorem expands_self {read : α → Except UnknownLabel α} {m : OrderedMap String α}
    (h : ∀ e ∈ m.toList, ns.expand e.1 = .ok e.1 ∧ read e.2 = .ok e.2) : m.Expands ns read m :=
  ⟨m.toList, List.forall₂_same.mpr h, ext_toList (toList_ofList_of_nodup m.nodup).symm⟩

end OrderedMap

/-! ## Entities -/

theorem Slot.mapE_eq_self {ε α : Type} {f : α → Except ε α} {slot : Slot α}
    (h : ∀ a ∈ slot.toList, f a = .ok a) : slot.mapE f = .ok slot := by
  cases slot with
  | one a => rw [mapE, h a (List.mem_singleton_self a)]; rfl
  | many as =>
    have has : as.mapM f = .ok as := mapM_eq_ok_iff.mpr (List.forall₂_same.mpr h)
    rw [mapE, has]
    rfl

namespace Entity

variable {ns : Namespaces} {e e' : Entity}

/-- Every identifier of an entity stands for itself: its own, its predicates and its targets. -/
structure Settled (ns : Namespaces) (e : Entity) : Prop where
  id : ns.expand e.id = .ok e.id
  properties : ∀ p ∈ e.properties.keys, ns.expand p = .ok p
  references : ∀ p ∈ e.references.keys, ns.expand p = .ok p
  targets : ∀ p slot, e.reference? p = some slot → ∀ t ∈ slot.toList, ns.expand t = .ok t

/-- **The identifiers of an expanded entity stand for themselves.** -/
theorem settled_of_expand (hfull : ns.FullExpansions) (h : e.expand ns = ⟨e', none⟩) :
    e'.Settled ns := by
  obtain ⟨hid, hproperties, hreferences, -⟩ := expand_eq_iff.mp h
  refine ⟨Namespaces.expand_expand hfull hid, fun p hp => ?_, fun p hp => ?_,
    fun p slot' hslot' t ht => ?_⟩
  · obtain ⟨entry, hentry, rfl⟩ := List.mem_map.mp hp
    obtain ⟨_, -, hkey, -⟩ := hproperties.exists_of_mem hentry
    exact Namespaces.expand_expand hfull hkey
  · obtain ⟨entry, hentry, rfl⟩ := List.mem_map.mp hp
    obtain ⟨_, -, hkey, -⟩ := hreferences.exists_of_mem hentry
    exact Namespaces.expand_expand hfull hkey
  · obtain ⟨_, -, -, hslot⟩ := hreferences.exists_of_mem (OrderedMap.mem_toList_of_get? hslot')
    obtain ⟨target, -, htarget⟩ :=
      exists_mem_of_forall₂ (Slot.expandsTo_of_mapE hslot).flip ht
    exact Namespaces.expand_expand hfull htarget

/-- **An entity whose identifiers stand for themselves expands to itself.** -/
theorem Settled.expand_eq (h : e.Settled ns) : e.expand ns = ⟨e, none⟩ := by
  refine expand_eq_iff.mpr ⟨h.id, OrderedMap.expands_self fun entry hentry => ⟨?_, rfl⟩,
    OrderedMap.expands_self fun entry hentry => ⟨?_, Slot.mapE_eq_self ?_⟩, rfl⟩
  · exact h.properties _ (List.mem_map_of_mem hentry)
  · exact h.references _ (List.mem_map_of_mem hentry)
  · exact h.targets entry.1 entry.2 (OrderedMap.mem_toList_iff.mp hentry)

end Entity

/-! ## Collections -/

namespace Collection

variable {c c' : Collection}

/-- The entities have distinct identifiers, and the index is the one made of these. -/
structure Reindexed (c : Collection) : Prop where
  distinct : c.ids.Nodup
  index : c.index = positions c.entities

/-- The index leads from an identifier to the entity that has it. -/
theorem Reindexed.bind_index_eq_some_iff (h : c.Reindexed) {id : String} {e : Entity} :
    (c.index.get? id).bind (c.entities[·]?) = some e ↔ e ∈ c.entities ∧ e.id = id := by
  have hindex : ∀ i, c.index.get? id = some i ↔ (c.entities[i]?).map Entity.id = some id := by
    intro i
    rw [h.index, ← OrderedMap.mem_toList_iff, toList_positions h.distinct,
      List.mem_zipIdx_iff_getElem?, List.getElem?_map]
  simp only [Option.bind_eq_some_iff, hindex]
  constructor
  · rintro ⟨i, hid, he⟩
    rw [he] at hid
    exact ⟨List.mem_of_getElem? he, Option.some.inj hid⟩
  · rintro ⟨hmem, rfl⟩
    obtain ⟨i, hi⟩ := List.mem_iff_getElem?.mp hmem
    exact ⟨i, by rw [hi]; rfl, hi⟩

/-- **Which entity a look-up finds**: the one that has the canonical form of the identifier, where
the identifiers of entities are canonical. -/
theorem Reindexed.get?_eq_some_iff (h : c.Reindexed)
    (hcanonical : ∀ e ∈ c.entities, c.namespaces.canonical e.id = e.id) {x : String} {e : Entity} :
    c.get? x = some e ↔ e ∈ c.entities ∧ e.id = c.namespaces.canonical x := by
  rw [← h.bind_index_eq_some_iff]
  unfold get?
  cases hx : c.index.get? x with
  | none => rw [Option.none_or]
  | some i =>
    -- what is indexed is the identifier of an entity, and so its own canonical form
    have hmem : x ∈ c.ids := by
      rw [ids, ← keys_positions h.distinct, ← h.index]
      exact OrderedMap.mem_keys_iff.mpr ⟨i, hx⟩
    obtain ⟨e', he', rfl⟩ := List.mem_map.mp hmem
    rw [hcanonical e' he', hx, Option.some_or]

theorem Reindexed.get?_eq_none_iff (h : c.Reindexed)
    (hcanonical : ∀ e ∈ c.entities, c.namespaces.canonical e.id = e.id) {x : String} :
    c.get? x = none ↔ c.namespaces.canonical x ∉ c.ids := by
  simp only [Option.eq_none_iff_forall_ne_some, ne_eq, h.get?_eq_some_iff hcanonical, ids,
    List.mem_map, not_exists]

/-- There is nothing left to expand in a collection, and its entities are found under every spelling
of their identifiers. -/
structure Settled (c : Collection) : Prop where
  entities : ∀ e ∈ c.entities, e.Settled c.namespaces
  distinct : c.ids.Nodup
  expand : c.expand = ⟨c, none⟩
  found : ∀ x e, c.get? x = some e ↔ e ∈ c.entities ∧ e.id = c.namespaces.canonical x
  missing : ∀ x, c.get? x = none ↔ c.namespaces.canonical x ∉ c.ids

theorem expand_eq_of_expanded (h : c.expanded = .ok c') : c.expand = ⟨c', none⟩ := by
  unfold expanded at h
  split at h
  · rename_i c'' hexpand
    obtain rfl := Except.ok.inj h
    exact hexpand
  · cases h

/-- **There is nothing left to expand in an expanded collection.** -/
theorem settled_of_expanded (h : c.expanded = .ok c') (hfull : c'.namespaces.FullExpansions) :
    c'.Settled := by
  obtain ⟨es, hes, hnodup, rfl⟩ := expanded_eq_ok_iff.mp h
  have hentities : ∀ e ∈ es, e.Settled c.namespaces := by
    intro e he
    obtain ⟨_, -, hexpand⟩ := exists_mem_of_forall₂ hes.flip he
    exact Entity.settled_of_expand hfull hexpand
  have hreindexed : Reindexed ⟨c.namespaces, c.continuation, es, positions es⟩ := ⟨hnodup, rfl⟩
  have hcanonical : ∀ e ∈ es, c.namespaces.canonical e.id = e.id := fun e he =>
    Namespaces.canonical_of_expand (hentities e he).id
  exact {
    entities := hentities
    distinct := hnodup
    expand := expand_eq_of_expanded (expanded_eq_ok_iff.mpr
      ⟨es, List.forall₂_same.mpr fun e he => (hentities e he).expand_eq, hnodup, rfl⟩)
    found := fun x e => hreindexed.get?_eq_some_iff hcanonical
    missing := fun x => hreindexed.get?_eq_none_iff hcanonical }

end Collection

/-! ## Documents -/

namespace Document

/-- **A loaded document has nothing left to expand**, and its entities are found under every
spelling of their identifiers, where its table binds labels to full URIs only. -/
theorem settled_of_parse {text : String} {c : Collection} (h : parse text = .ok c)
    (hfull : c.namespaces.FullExpansions) : c.Settled := by
  obtain ⟨_, parts, -, -, hcollect⟩ := exists_elements_of_parse h
  obtain ⟨_, -, hexpanded⟩ := bind_eq_ok_iff.mp hcollect
  exact Collection.settled_of_expanded hexpanded hfull

/-- The person of the register is found under both spellings of its identifier, of which the
document uses the shorter one. -/
theorem settled_of_parse_register :
    parse registerShort = .ok (registered adaNames.reverse) ∧
    (registered adaNames.reverse).Settled ∧
    ((registered adaNames.reverse).get? "z:ada").map Entity.id = some "http://x/ada" ∧
    (registered adaNames.reverse).get? "z:ada" =
      (registered adaNames.reverse).get? "http://x/ada" ∧
    (registered adaNames.reverse).get? "z:bob" = none := by
  have hsettled : (registered adaNames.reverse).Settled :=
    settled_of_parse parse_registerShort (Namespaces.fullExpansions_of_bindings (by decide +kernel))
  have hids : (registered adaNames.reverse).ids = ["http://x/ada"] := by decide +kernel
  have hbob : (registered adaNames.reverse).namespaces.canonical "z:bob" = "http://x/bob" := by
    decide +kernel
  refine ⟨parse_registerShort, hsettled, by decide +kernel, by decide +kernel,
    (hsettled.missing _).mpr ?_⟩
  rw [hids, hbob]
  decide

end Document

end EntityGraph
