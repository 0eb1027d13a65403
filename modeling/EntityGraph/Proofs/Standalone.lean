import EntityGraph.Proofs.Agreement
import EntityGraph.Proofs.Compilation
import EntityGraph.Proofs.Writing
import EntityGraph.Schema.Source

/-!
# Constraints that stand alone

A class block of a compact document nests its constraints. The same schema can be written as a
JSON document in which every class and every constraint is an entity of its own. The two are read
by different readers, one of which sorts what it reads by key, and still give schemas that no
question tells apart.

Results:
* `Entity.Same.exists_expand`: entities that are the same expand alike.
* `Document.writable_of_parse`: a parsed document can be written in JSON.
* `Document.standalone_agrees`: nested and standalone constraints are equivalent.
* `Document.not_forall_standalone_agrees`: a rule that looks at the order of entries tells them
  apart.
-/

namespace EntityGraph

/-! ## Expanding entities that are the same -/

theorem Namespaces.expansion?_bindAll (ns : Namespaces) (pairs : List (String × String))
    (label : String) : (ns.bindAll pairs).expansion? label =
      ((OrderedMap.ofList pairs).get? label).or (ns.expansion? label) := by
  have hbindings : ∀ ns : Namespaces, (ns.bindAll pairs).bindings =
      pairs.foldl (fun m e => m.insert e.1 e.2) ns.bindings := by
    induction pairs with
    | nil => exact fun _ => rfl
    | cons e pairs ih => exact fun ns => ih _
  rw [expansion?, hbindings, OrderedMap.get?_foldl_insert]
  rfl

/-- Bindings make the same table in whatever order they are bound. -/
theorem Namespaces.same_bindAll_sorted (ns : Namespaces) (bindings : OrderedMap String String) :
    (ns.bindAll bindings.toList).Same (ns.bindAll (Json.sortMembers bindings.toList)) := by
  intro label
  rw [expansion?_bindAll, expansion?_bindAll, OrderedMap.get?_ofList_toList]
  exact congrArg (Option.or · _) (Json.get?_sortedTable bindings label).symm

/-- Predicates that are full URIs are so in whatever order they stand. -/
theorem Entity.FullKeys.of_same {e e' : Entity} (hfull : e.FullKeys) (h : e.Same e') :
    e'.FullKeys where
  properties := by
    intro p hp
    obtain ⟨slot, hslot⟩ := OrderedMap.mem_keys_iff.mp hp
    exact hfull.properties p (OrderedMap.mem_keys_iff.mpr ⟨slot, (h.property? p).trans hslot⟩)
  references := by
    intro p hp
    obtain ⟨slot, hslot⟩ := OrderedMap.mem_keys_iff.mp hp
    exact hfull.references p (OrderedMap.mem_keys_iff.mpr ⟨slot, (h.reference? p).trans hslot⟩)

/-- **Entities that are the same expand alike**, if their predicates are full URIs. -/
theorem Entity.Same.exists_expand {e e' x : Entity} {ns ns' : Namespaces} (h : e.Same e')
    (hns : ns.Same ns') (hfull : e.FullKeys) (hx : e.expand ns = ⟨x, none⟩) :
    ∃ x', e'.expand ns' = ⟨x', none⟩ ∧ x.Same x' := by
  have hfull' := hfull.of_same h
  obtain ⟨hid, hproperties, hreferences, hdeleted⟩ := expand_eq_iff.mp hx
  have hslots : ∀ entry ∈ e'.references.toList, ∃ slot, entry.2.mapE ns'.expand = .ok slot := by
    intro entry hentry
    have hget : e.reference? entry.1 = some entry.2 :=
      (h.reference? entry.1).trans (OrderedMap.mem_toList_iff.mp hentry)
    rw [← hns.expand_eq]
    exact (OrderedMap.exists_expands_iff.mp ⟨_, hreferences⟩ _
      (OrderedMap.mem_toList_of_get? hget)).2
  obtain ⟨x', hx'⟩ : ∃ x', e'.expand ns' = ⟨x', none⟩ := by
    refine exists_expand_eq_iff.mpr ⟨⟨x.id, ?_⟩, ?_, ?_⟩
    · rw [← h.id, ← hns.expand_eq]
      exact hid
    · refine OrderedMap.exists_expands_iff.mpr fun entry hentry => ⟨⟨entry.1, ?_⟩, _, rfl⟩
      exact Namespaces.expand_of_isFullUri
        (hfull'.properties _ (List.mem_map_of_mem hentry))
    · refine OrderedMap.exists_expands_iff.mpr fun entry hentry =>
        ⟨⟨entry.1, ?_⟩, hslots entry hentry⟩
      exact Namespaces.expand_of_isFullUri
        (hfull'.references _ (List.mem_map_of_mem hentry))
  refine ⟨x', hx', ?_, fun p => ?_, fun p => ?_, ?_⟩
  · have hid' := (expand_eq_iff.mp hx').1
    rw [← h.id, ← hns.expand_eq, hid] at hid'
    exact Except.ok.inj hid'
  · rw [hfull.property?_expand hx, hfull'.property?_expand hx', h.property?]
  · rw [hfull.reference?_expand hx, hfull'.reference?_expand hx', h.reference?, hns.expand_eq]
  · rw [hdeleted, (expand_eq_iff.mp hx').2.2.2, h.deleted]

/-- **What is read off entities that are the same is the same**, if it is read off at all. -/
theorem Collection.exists_same {ns ns' : Namespaces} (hns : ns.Same ns') {es es' out : List Entity}
    (h : List.Forall₂ Entity.Same es es') (hfull : ∀ e ∈ es, e.FullKeys)
    (hout : List.Forall₂ (fun e x => e.expand ns = ⟨x, none⟩) es out)
    (hnodup : (out.map Entity.id).Nodup) :
    ∃ out', List.Forall₂ (fun e x => e.expand ns' = ⟨x, none⟩) es' out' ∧
      (out'.map Entity.id).Nodup ∧
      (⟨ns, none, out, positions out⟩ : Collection).Same ⟨ns', none, out', positions out'⟩ := by
  obtain ⟨out', hout', hsame⟩ := exists_forall₂_of_forall₂ (U := Entity.Same)
    ((List.forall₂_and_left _ _).mpr ⟨hfull, h⟩) hout
    fun _ _ _ he hx => he.2.exists_expand hns he.1 hx
  have hids := map_eq_of_forall₂ hsame fun _ _ he => he.id
  exact ⟨out', hout', hids ▸ hnodup, same_of_entities hns none hsame⟩

namespace Compact

open Yaml (Value)

/-! ## What a parsed document holds -/

/-- Every literal of a constraint can be written. -/
def Part.Writable (part : Part) : Prop :=
  ∀ entry ∈ part.properties, ∀ slot ∈ entry.2, ∀ v ∈ slot.toList, v.Writable

theorem le_maxInt_of_integer {v : Value} {i : Int} (h : v.integer = .ok i) : i ≤ maxInt := by
  unfold Value.integer at h
  split at h
  · split at h
    · rename_i hlt
      obtain rfl := Except.ok.inj h
      unfold maxInt
      omega
    · cases h
  · cases h

theorem read_of_optional {α : Type} {read : Value → Except Yaml.Error α} {v : Value} {a : α}
    (h : Value.optional read v = .ok (some a)) : read v = .ok a := by
  unfold Value.optional at h
  split at h
  · cases h
  · obtain ⟨a', ha', heq⟩ := map_eq_ok_iff.mp h
    rwa [Option.some.inj heq] at ha'

/-- A bound that is read has 64 bits with sign. -/
theorem le_maxInt_of_field {es : List (String × Value)} {key : String} {bound : Option Int}
    (h : Value.field es key none (Value.optional Value.integer) = .ok bound) :
    ∀ i ∈ bound, i ≤ maxInt := by
  rintro i ⟨⟩
  unfold Value.field at h
  split at h
  · exact le_maxInt_of_integer (read_of_optional h)
  · cases h

theorem writable_bound {bound : Option Int} (h : ∀ i ∈ bound, i ≤ maxInt) :
    ∀ slot ∈ bound.map fun i => Slot.one (Literal.int i), ∀ v ∈ slot.toList, v.Writable := by
  intro slot hslot v hv
  obtain ⟨i, hi, rfl⟩ := Option.map_eq_some_iff.mp hslot
  obtain rfl := List.mem_singleton.mp hv
  exact h i hi

theorem writable_raised (flag : Bool) :
    ∀ slot ∈ raised flag, ∀ v ∈ slot.toList, v.Writable := by
  intro slot hslot v hv
  cases flag with
  | false => cases hslot
  | true =>
    obtain rfl := Option.some.inj hslot
    obtain rfl := List.mem_singleton.mp hv
    trivial

theorem PropertyBlock.writable_of_read {v : Value} {b : PropertyBlock} (h : read v = .ok b) :
    b.part.Writable := by
  unfold read at h
  obtain ⟨es, -, h⟩ := bind_eq_ok_iff.mp h
  obtain ⟨propertyClass, -, h⟩ := bind_eq_ok_iff.mp h
  obtain ⟨datatype, -, h⟩ := bind_eq_ok_iff.mp h
  obtain ⟨min, hmin, h⟩ := bind_eq_ok_iff.mp h
  obtain ⟨max, hmax, h⟩ := bind_eq_ok_iff.mp h
  obtain ⟨sortable, -, h⟩ := bind_eq_ok_iff.mp h
  obtain ⟨queryable, -, h⟩ := bind_eq_ok_iff.mp h
  obtain ⟨isUnique, -, h⟩ := bind_eq_ok_iff.mp h
  obtain rfl := Except.ok.inj h
  simp only [Part.Writable, part, List.forall_mem_cons]
  exact ⟨writable_bound (le_maxInt_of_field hmin), writable_bound (le_maxInt_of_field hmax),
    writable_raised _, writable_raised _, writable_raised _, List.forall_mem_nil _⟩

theorem ReferenceBlock.writable_of_read {v : Value} {b : ReferenceBlock} (h : read v = .ok b) :
    b.part.Writable := by
  unfold read at h
  obtain ⟨es, -, h⟩ := bind_eq_ok_iff.mp h
  obtain ⟨referenceClass, -, h⟩ := bind_eq_ok_iff.mp h
  obtain ⟨referencedEntityClass, -, h⟩ := bind_eq_ok_iff.mp h
  obtain ⟨min, hmin, h⟩ := bind_eq_ok_iff.mp h
  obtain ⟨max, hmax, h⟩ := bind_eq_ok_iff.mp h
  obtain ⟨inverseReferenceClass, -, h⟩ := bind_eq_ok_iff.mp h
  obtain ⟨inverseMin, hinverseMin, h⟩ := bind_eq_ok_iff.mp h
  obtain ⟨inverseMax, hinverseMax, h⟩ := bind_eq_ok_iff.mp h
  obtain rfl := Except.ok.inj h
  simp only [Part.Writable, part, List.forall_mem_cons]
  exact ⟨writable_bound (le_maxInt_of_field hmin), writable_bound (le_maxInt_of_field hmax),
    writable_bound (le_maxInt_of_field hinverseMin),
    writable_bound (le_maxInt_of_field hinverseMax), List.forall_mem_nil _⟩

/-- What is read from the items of a sequence is read from one of them. -/
theorem exists_read_of_field {α : Type} {es : List (String × Value)} {key : String}
    {read : Value → Except Yaml.Error α} {l : List α}
    (h : Value.field es key [] (Value.items read) = .ok l) : ∀ a ∈ l, ∃ v, read v = .ok a := by
  intro a ha
  unfold Value.field at h
  split at h
  · unfold Value.items at h
    split at h
    · obtain ⟨v, -, hv⟩ := exists_mem_of_forall₂ (mapM_eq_ok_iff.mp h).flip ha
      exact ⟨v, hv⟩
    · obtain rfl := Except.ok.inj h
      cases ha
    · cases h
  · obtain rfl := Except.ok.inj h
    cases ha

theorem ClassBlock.writable_of_read {v : Value} {b : ClassBlock} (h : read v = .ok (some b)) :
    ∀ part ∈ b.parts, part.Writable := by
  unfold read at h
  obtain ⟨es, -, h⟩ := bind_eq_ok_iff.mp h
  obtain ⟨id, -, h⟩ := bind_eq_ok_iff.mp h
  obtain ⟨superclasses, -, h⟩ := bind_eq_ok_iff.mp h
  obtain ⟨label, -, h⟩ := bind_eq_ok_iff.mp h
  obtain ⟨description, -, h⟩ := bind_eq_ok_iff.mp h
  obtain ⟨isAbstract, -, h⟩ := bind_eq_ok_iff.mp h
  obtain ⟨props, -, h⟩ := bind_eq_ok_iff.mp h
  obtain ⟨refs, -, h⟩ := bind_eq_ok_iff.mp h
  obtain ⟨properties, hproperties, h⟩ := bind_eq_ok_iff.mp h
  obtain ⟨references, hreferences, h⟩ := bind_eq_ok_iff.mp h
  obtain ⟨applications, -, h⟩ := bind_eq_ok_iff.mp h
  obtain ⟨id', -, rfl⟩ := Option.map_eq_some_iff.mp (Except.ok.inj h)
  intro part hpart
  unfold parts nested at hpart
  simp only [List.mem_append, List.mem_map] at hpart
  rcases hpart with habstract | (⟨p, hp, rfl⟩ | ⟨p, hp, rfl⟩) | ⟨p, -, rfl⟩
  · split at habstract
    · rw [List.mem_singleton.mp habstract]
      exact List.forall_mem_nil _
    · cases habstract
  · obtain ⟨v, hv⟩ := exists_read_of_field hproperties p hp
    exact p.writable_of_read hv
  · obtain ⟨v, hv⟩ := exists_read_of_field hreferences p hp
    exact p.writable_of_read hv
  · exact List.forall_mem_nil _

theorem writable_of_readBlocks {position : Nat} {values : List Value} {bs : List ClassBlock}
    (h : readBlocks position values = .ok bs) : ∀ b ∈ bs, ∀ part ∈ b.parts, part.Writable := by
  induction values generalizing position bs with
  | nil =>
    obtain rfl := Except.ok.inj h
    exact List.forall_mem_nil _
  | cons v rest ih =>
    rw [readBlocks] at h
    split at h
    · cases h
    · cases h
    · rename_i b hb
      obtain ⟨bs', hbs', rfl⟩ := map_eq_ok_iff.mp h
      exact List.forall_mem_cons.mpr ⟨b.writable_of_read hb, ih hbs'⟩

/-- **A parsed document can be written in JSON**: no bound is beyond 64 bits with sign. -/
theorem Document.writable_of_parse {source : String} {doc : Document}
    (h : Document.parse source = .ok doc) : ∀ b ∈ doc.classes, ∀ part ∈ b.parts, part.Writable := by
  unfold Document.parse at h
  split at h
  · cases h
  · unfold Document.ofValues at h
    split at h
    · cases h
    · split at h
      · cases h
      · cases h
      · obtain ⟨bs, hbs, rfl⟩ := map_eq_ok_iff.mp h
        exact writable_of_readBlocks hbs

/-! ## The document of standalone constraints -/

/-- A block without further properties and references, and with an identifier that an entity of a
document can have. -/
structure ClassBlock.Plain (b : ClassBlock) : Prop where
  props : b.props = ∅
  refs : b.refs = ∅
  id : EntityGraph.Document.IsEntityId b.id

theorem ClassBlock.Plain.bare_eq {b : ClassBlock} (h : b.Plain) : b.bare = b := by
  unfold bare
  rw [← h.props, ← h.refs]

/-- No constraint has a reserved identifier: all of them hold a hyphen. -/
theorem isEntityId_constraintId (cls : String) (n : Nat) :
    EntityGraph.Document.IsEntityId (SchemaBuilder.constraintId cls n) := by
  have hmem : '-' ∈ (SchemaBuilder.constraintId cls n).toList := by
    unfold SchemaBuilder.constraintId
    rw [String.toList_append, String.toList_append]
    refine List.mem_append_left _ (List.mem_append_right _ ?_)
    decide
  have hne : ∀ s : String, '-' ∉ s.toList → SchemaBuilder.constraintId cls n ≠ s :=
    fun s hs heq => hs (heq ▸ hmem)
  exact ⟨hne _ (by decide), hne _ (by decide)⟩

theorem ClassBlock.Plain.writable_entity {b : ClassBlock} (h : b.Plain) : b.entity.Writable := by
  rw [← h.bare_eq, bare_entity]
  intro entry hentry v hv
  rw [OrderedMap.toList_ofList_of_nodup b.nodup_given_texts] at hentry
  have hmem := OrderedMap.mem_given.mp hentry
  unfold texts at hmem
  have htext : ∃ text : Option String, text.map (fun s => Slot.one (Literal.string s)) =
      some entry.2 := by
    rcases List.mem_cons.mp hmem with heq | hmem
    · exact ⟨_, (Prod.mk.inj heq).2.symm⟩
    · exact ⟨_, (Prod.mk.inj (List.mem_singleton.mp hmem)).2.symm⟩
  obtain ⟨text, htext⟩ := htext
  obtain ⟨s, -, hs⟩ := Option.map_eq_some_iff.mp htext
  rw [← hs] at hv
  rw [List.mem_singleton.mp hv]
  trivial

theorem Part.Writable.writable_entity {part : Part} (h : part.Writable) (cls : String) (n : Nat) :
    (part.entity cls n).Writable := by
  intro entry hentry v hv
  unfold Part.entity at hentry
  rw [OrderedMap.toList_ofList_of_nodup part.nodup_given_properties] at hentry
  exact h _ (OrderedMap.mem_given.mp hentry) entry.2 rfl v hv

/-- The entities of blocks are their classes and their constraints. -/
theorem exists_of_mem_entitiesFrom {n : Nat} {bs : List ClassBlock} {e : Entity}
    (h : e ∈ entitiesFrom n bs) :
    ∃ b ∈ bs, e = b.entity ∨ ∃ part ∈ b.parts, ∃ i, e = part.entity b.id i := by
  induction bs generalizing n with
  | nil => cases h
  | cons b bs ih =>
    rw [entitiesFrom, ClassBlock.entities] at h
    rcases List.mem_append.mp h with h | h
    · refine ⟨b, List.mem_cons_self, ?_⟩
      rcases List.mem_cons.mp h with rfl | h
      · exact .inl rfl
      · obtain ⟨⟨part, i⟩, hpart, rfl⟩ := List.mem_map.mp h
        exact .inr ⟨part, List.fst_mem_of_mem_zipIdx hpart, i, rfl⟩
    · obtain ⟨b', hb', he⟩ := ih h
      exact ⟨b', List.mem_cons_of_mem b hb', he⟩

namespace Document

/-- The entity document of a compact document: the bindings, and then for each class block the
class and each of its constraints as an entity of its own. -/
def standalone (doc : Document) : Json :=
  EntityGraph.Document.write doc.namespaces doc.entities

/-- The entities of a plain document have full predicates and can stand in an entity document. -/
theorem entities_standalone {doc : Document} (hplain : ∀ b ∈ doc.classes, b.Plain)
    (hwritable : ∀ b ∈ doc.classes, ∀ part ∈ b.parts, part.Writable) :
    ∀ e ∈ doc.entities,
      e.FullKeys ∧ e.Writable ∧ EntityGraph.Document.IsEntityId e.id := by
  intro e he
  obtain ⟨b, hb, rfl | ⟨part, hpart, i, rfl⟩⟩ := exists_of_mem_entitiesFrom he
  · have hfull := b.fullKeys_bare
    rw [(hplain b hb).bare_eq] at hfull
    exact ⟨hfull, (hplain b hb).writable_entity, (hplain b hb).id⟩
  · exact ⟨part.fullKeys_entity b.id i, (hwritable b hb part hpart).writable_entity b.id i,
      isEntityId_constraintId b.id i⟩

theorem ofCompact_eq_ok_iff {source : String} {doc : Document}
    (hdoc : Document.parse source = .ok doc) {s : Schema} :
    Schema.ofCompact source = .ok s ↔ doc.schema = .ok s := by
  unfold Schema.ofCompact
  rw [hdoc]
  cases hschema : doc.schema <;> simp [hschema]

theorem ofEntityDocument_eq_ok_iff {text : String} {s : Schema} :
    Schema.ofEntityDocument text = .ok s ↔
      ∃ c, EntityGraph.Document.parse text = .ok c ∧ s = .ofCollection c := by
  unfold Schema.ofEntityDocument
  cases EntityGraph.Document.parse text <;> simp [eq_comm]

/-- The text of the standalone document gives the bindings and the entities of the document, read in
the order of their keys. -/
theorem parse_standalone {text : String} {doc : Document}
    (hentities : ∀ e ∈ doc.entities, e.Writable ∧ EntityGraph.Document.IsEntityId e.id)
    (htext : Json.sortedOfText text = .ok doc.standalone.sorted) :
    EntityGraph.Document.parse text = EntityGraph.Document.Parts.collect
      ⟨Namespaces.standard.bindAll (Json.sortMembers doc.namespaces.toList), none,
        doc.entities.map Entity.sortedByKey⟩ :=
  (EntityGraph.Document.parse_of_sortedOfText htext).trans
    (EntityGraph.Document.ofJson_write hentities)

/-- The text of the standalone document gives the schema of the entities that the document
writes, read in the order of their keys. -/
theorem ofEntityDocument_standalone {text : String} {doc : Document}
    (hentities : ∀ e ∈ doc.entities, e.Writable ∧ EntityGraph.Document.IsEntityId e.id)
    (htext : Json.sortedOfText text = .ok doc.standalone.sorted) {s : Schema} :
    Schema.ofEntityDocument text = .ok s ↔ ∃ es,
      List.Forall₂ (fun e e' => e.expand (Namespaces.standard.bindAll
        (Json.sortMembers doc.namespaces.toList)) = ⟨e', none⟩)
        (doc.entities.map Entity.sortedByKey) es ∧
      (es.map Entity.id).Nodup ∧
      s = .ofCollection ⟨Namespaces.standard.bindAll (Json.sortMembers doc.namespaces.toList),
        none, es, Collection.positions es⟩ := by
  rw [ofEntityDocument_eq_ok_iff, parse_standalone hentities htext]
  simp only [EntityGraph.Document.collect_eq_ok_iff]
  constructor
  · rintro ⟨_, ⟨es, hes, hnodup, rfl⟩, rfl⟩
    exact ⟨es, hes, hnodup, rfl⟩
  · rintro ⟨es, hes, hnodup, rfl⟩
    exact ⟨_, ⟨es, hes, hnodup, rfl⟩, rfl⟩

/-- **Nested and standalone constraints are equivalent.** A compact document and the entity document
that writes each of its classes and constraints as an entity of its own, in whatever layout and
order of members, both give no schema or give schemas that agree. -/
theorem standalone_agrees {source text : String} {doc : Document}
    (hdoc : Document.parse source = .ok doc) (hplain : ∀ b ∈ doc.classes, b.Plain)
    (htext : Json.sortedOfText text = .ok doc.standalone.sorted) :
    (∃ err err', Schema.ofCompact source = .error err ∧
        Schema.ofEntityDocument text = .error err') ∨
      ∃ s s', Schema.ofCompact source = .ok s ∧ Schema.ofEntityDocument text = .ok s' ∧
        s.Agrees s' := by
  have hentities := entities_standalone hplain (writable_of_parse hdoc)
  have hns : doc.table.Same _ := Namespaces.same_bindAll_sorted .standard doc.namespaces
  have hsame : List.Forall₂ Entity.Same doc.entities (doc.entities.map Entity.sortedByKey) :=
    List.forall₂_map_right_iff.mpr (List.forall₂_same.mpr fun e _ => e.same_sortedByKey)
  have hentityDocument := @ofEntityDocument_standalone text doc
    (fun e he => (hentities e he).2) htext
  rcases error_or_ok (Schema.ofCompact source) with ⟨err, herr⟩ | ⟨s, hs⟩
  · rcases error_or_ok (Schema.ofEntityDocument text) with ⟨err', herr'⟩ | ⟨s', hs'⟩
    · exact .inl ⟨err, err', herr, herr'⟩
    · -- what the entity document gives, the compact one gives as well
      obtain ⟨es', hes', hnodup, -⟩ := hentityDocument.mp hs'
      obtain ⟨es, hes, hnodup, -⟩ := Collection.exists_same hns.symm
        (List.forall₂_map_left_iff.mpr (List.forall₂_same.mpr fun e _ => e.same_sortedByKey.symm))
        (List.forall_mem_map.mpr fun e he => (hentities e he).1.of_same e.same_sortedByKey)
        hes' hnodup
      have hs := (ofCompact_eq_ok_iff hdoc).mpr (schema_eq_ok_iff.mpr ⟨es, hes, hnodup, rfl⟩)
      rw [herr] at hs
      cases hs
  · obtain ⟨es, hes, hnodup, rfl⟩ := schema_eq_ok_iff.mp ((ofCompact_eq_ok_iff hdoc).mp hs)
    obtain ⟨es', hes', hnodup', hcollection⟩ := Collection.exists_same hns hsame
      (fun e he => (hentities e he).1) hes hnodup
    exact .inr ⟨_, _, hs, hentityDocument.mpr ⟨es', hes', hnodup', rfl⟩, hcollection.schema.agrees⟩

/-- Guests of some kind or other, who have a name. -/
def lodging : Document where
  namespaces := .ofList [("ex", "http://ex/")]
  classes := [{
    id := "ex:Guest"
    isAbstract := true
    propertyConstraints := [{ propertyClass := some "ex:name", min := some 1 }] }]

/-- The document of guests as it is written. -/
def lodgingSource : String :=
  "- namespaces:\n    ex: http://ex/\n- id: ex:Guest\n  isAbstract: true\n" ++
  "  propertyConstraints:\n  - propertyClass: ex:name\n    minCard: 1\n"

/-- Guests and their constraints as entities, written with the constrained class in front. -/
def lodgingEntities : String :=
  "[\x7b\"id\": \"@context\", \"namespaces\": \x7b\"ex\": \"http://ex/\"\x7d\x7d," ++
  "\x7b\"id\": \"ex:Guest\", \"refs\": \x7b" ++
  "\"http://www.w3.org/1999/02/22-rdf-syntax-ns#type\": " ++
  "\"http://data.mimiro.io/egcl/EntityClass\"\x7d\x7d," ++
  "\x7b\"id\": \"ex:Guest-constraint-0\", \"refs\": \x7b" ++
  "\"http://data.mimiro.io/egcl/entityClass\": \"ex:Guest\"," ++
  "\"http://www.w3.org/1999/02/22-rdf-syntax-ns#type\": " ++
  "\"http://data.mimiro.io/egcl/IsAbstractConstraint\"\x7d\x7d," ++
  "\x7b\"id\": \"ex:Guest-constraint-1\", \"refs\": \x7b" ++
  "\"http://data.mimiro.io/egcl/entityClass\": \"ex:Guest\"," ++
  "\"http://data.mimiro.io/egcl/propertyClass\": \"ex:name\"," ++
  "\"http://www.w3.org/1999/02/22-rdf-syntax-ns#type\": " ++
  "\"http://data.mimiro.io/egcl/PropertyConstraint\"\x7d," ++
  "\"props\": \x7b\"http://data.mimiro.io/egcl/minCard\": 1\x7d\x7d]"

theorem standalone_agrees_lodging :
    ∃ s s', Schema.ofCompact lodgingSource = .ok s ∧
      Schema.ofEntityDocument lodgingEntities = .ok s' ∧ s.Agrees s' ∧
      s.constraints.length = 2 := by
  have hdoc : Document.parse lodgingSource = .ok lodging := by decide +kernel
  have hplain : ∀ b ∈ lodging.classes, b.Plain := by
    intro b hb
    rw [List.mem_singleton.mp hb]
    exact ⟨rfl, rfl, by decide, by decide⟩
  have htext : Json.sortedOfText lodgingEntities = .ok lodging.standalone.sorted := by
    unfold Json.sortedOfText Json.ofText Json.parse
    generalize hchars : lodgingEntities.toList = chars
    unfold lodgingEntities at hchars
    repeat rw [String.toList_append] at hchars
    simp only [String.reduceToList] at hchars
    subst hchars
    decide +kernel
  have hschema : lodging.schema.toOption.map (fun s => s.constraints.length) = some 2 := by
    decide +kernel
  obtain ⟨s₀, hok, hlength⟩ := exists_ok_of_toOption_map hschema
  have hs₀ := (ofCompact_eq_ok_iff hdoc).mpr hok
  rcases standalone_agrees hdoc hplain htext with ⟨err, err', herr, -⟩ | ⟨s, s', hs, hs', hagrees⟩
  · rw [hs₀] at herr
    cases herr
  · obtain rfl := Except.ok.inj (hs₀.symm.trans hs)
    exact ⟨s₀, s', hs, hs', hagrees, hlength⟩

/-- Guests whom the application greets. -/
def reception : Document where
  namespaces := .ofList [("ex", "http://ex/")]
  classes := [{ id := "ex:Guest", applicationConstraints := [{ rule := some "ex:greeted" }] }]

/-- The document of the reception as it is written. -/
def receptionSource : String :=
  "- namespaces:\n    ex: http://ex/\n- id: ex:Guest\n" ++
  "  applicationConstraints:\n  - rule: ex:greeted\n"

/-- The class and the rule as entities. -/
def receptionEntities : String := "\n".intercalate [
  "[\x7b\"id\": \"@context\", \"namespaces\": \x7b\"ex\": \"http://ex/\"\x7d\x7d,",
  "\x7b\"id\": \"ex:Guest\", \"refs\": \x7b",
  "\"http://www.w3.org/1999/02/22-rdf-syntax-ns#type\":",
  "\"http://data.mimiro.io/egcl/EntityClass\"\x7d\x7d,",
  "\x7b\"id\": \"ex:Guest-constraint-0\", \"refs\": \x7b",
  "\"http://www.w3.org/1999/02/22-rdf-syntax-ns#type\":",
  "\"http://data.mimiro.io/egcl/ApplicationConstraint\",",
  "\"http://data.mimiro.io/egcl/entityClass\": \"ex:Guest\",",
  "\"http://data.mimiro.io/egcl/rule\": \"ex:greeted\"\x7d\x7d]"]

/-- The entities of the reception as they are read, their references sorted by key. -/
def receptionSorted : List Entity := [
  { id := "ex:Guest", references := .ofList [
    (Vocabulary.rdfType, .one Vocabulary.entityClassType)] },
  { id := "ex:Guest-constraint-0", references := .ofList [
    (Vocabulary.entityClass, .one "ex:Guest"),
    (Vocabulary.rule, .one "ex:greeted"),
    (Vocabulary.rdfType, .one (Constraint.Kind.typeUri .application))] }]

/-- A rule that looks at the order of entries: it reports every entity, if the references of its
constraint begin with the type. -/
def typeFirst : Rule (Except ValidationError) := fun ctx _ =>
  .ok (if ctx.constraint.entity.references.keys.head? = some Vocabulary.rdfType then
    some "the type stands first" else none)

/-- The validator with this rule. -/
def receptionist : Validator (Except ValidationError) where
  rules := RuleRegistry.empty.register "ex:greeted" typeFirst
  signals := .quiet

/-- How often a guest is reported under a schema. -/
def reports (s : Schema) : Option Nat :=
  (reported (receptionist.validateEntity s (.ofType "ex:ada" "ex:Guest"))).toOption.map List.length

/-- Not every rule takes the two documents alike: one may look at the order of entries. The
references of a nested constraint begin with its type, those of a constraint of an entity document
stand in the order of their keys. -/
theorem not_forall_standalone_agrees :
    ¬ ∀ (source text : String) (doc : Document), Document.parse source = .ok doc →
      (∀ b ∈ doc.classes, b.Plain) → doc.table.FullExpansions →
      Json.sortedOfText text = .ok doc.standalone.sorted →
      (∃ err err', Schema.ofCompact source = .error err ∧
        Schema.ofEntityDocument text = .error err') ∨
      ∃ s s', Schema.ofCompact source = .ok s ∧ Schema.ofEntityDocument text = .ok s' ∧
        ∀ (v : Validator (Except ValidationError)) (e : Entity),
          reported (v.validateEntity s e) = reported (v.validateEntity s' e) := by
  intro h
  have hdoc : Document.parse receptionSource = .ok reception := by decide +kernel
  have hplain : ∀ b ∈ reception.classes, b.Plain := by
    intro b hb
    rw [List.mem_singleton.mp hb]
    exact ⟨rfl, rfl, by decide, by decide⟩
  have hfull : reception.table.FullExpansions :=
    Namespaces.fullExpansions_of_bindings (by decide +kernel)
  have htext : Json.sortedOfText receptionEntities = .ok reception.standalone.sorted := by
    refine Json.sortedOfText_of_toList String.toList_intercalate ?_
    decide +kernel
  have hsorted : Json.sortMembers reception.namespaces.toList = [("ex", "http://ex/")] ∧
      reception.entities.map Entity.sortedByKey = receptionSorted := by
    decide +kernel
  have hparse := parse_standalone
    (fun e he => (entities_standalone hplain (writable_of_parse hdoc) e he).2) htext
  rw [hsorted.1, hsorted.2] at hparse
  have hnested : reception.schema.toOption.map reports = some (some 1) := by decide +kernel
  have halone : (EntityGraph.Document.Parts.collect
      ⟨Namespaces.standard.bindAll [("ex", "http://ex/")], none, receptionSorted⟩).toOption.map
        (fun c => reports (.ofCollection c)) = some (some 0) := by
    decide +kernel
  obtain ⟨s₀, hok, hone⟩ := exists_ok_of_toOption_map hnested
  obtain ⟨c, hc, hzero⟩ := exists_ok_of_toOption_map halone
  have hs₀ := (ofCompact_eq_ok_iff hdoc).mpr hok
  have hs₁ := ofEntityDocument_eq_ok_iff.mpr ⟨c, hparse.trans hc, rfl⟩
  rcases h _ _ _ hdoc hplain hfull htext with ⟨err, err', herr, -⟩ | ⟨s, s', hs, hs', hsame⟩
  · rw [hs₀] at herr
    cases herr
  · obtain rfl := Except.ok.inj (hs₀.symm.trans hs)
    obtain rfl := Except.ok.inj (hs₁.symm.trans hs')
    have hreports : reports s₀ = reports (.ofCollection c) :=
      congrArg (fun run => run.toOption.map List.length)
        (hsame receptionist (.ofType "ex:ada" "ex:Guest"))
    rw [hone, hzero] at hreports
    cases hreports

end Document

end Compact

end EntityGraph
