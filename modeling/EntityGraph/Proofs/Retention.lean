import EntityGraph.Proofs.Respelling

/-!
# What expansion keeps

An entity is expanded by rewriting its predicates and putting its slots into new tables. Identifiers
that meet on the way are refused, predicates are not: where two of them expand alike, the later slot
takes the place of the earlier one, and what that held is gone without an error. Nothing is lost
exactly if this happens nowhere, for a single entity as for the elements of a document.

Results:
* `OrderedMap.size_ofList_eq_iff`: a table has as many entries as were inserted exactly if their
  keys are distinct.
* `Entity.retained_iff`: an entity keeps its slots exactly if no two predicates expand alike.
* `Document.retained_iff`: an element that is read keeps its members under the same condition.
* `Document.expansion_retains_iff`: both together, for all that a document declares.
-/

namespace EntityGraph

/-! ## Tables -/

namespace OrderedMap

section

variable {κ ν : Type} [DecidableEq κ]

theorem size_insert (m : OrderedMap κ ν) (k : κ) (v : ν) :
    (m.insert k v).size = if k ∈ m.keys then m.size else m.size + 1 := by
  have hsize : ∀ m : OrderedMap κ ν, m.size = m.keys.length := fun m =>
    (List.length_map Prod.fst).symm
  rw [hsize, keys_insert]
  split
  · exact (hsize m).symm
  · rw [List.length_append, hsize m, List.length_singleton]

theorem size_ofList_le (l : List (κ × ν)) : (ofList l).size ≤ l.length := by
  induction l using List.reverseRecOn with
  | nil => exact Nat.le_refl 0
  | append_singleton l e ih =>
    rw [ofList_concat, size_insert, List.length_append, List.length_singleton]
    split <;> omega

/-- **A table has as many entries as were inserted exactly if their keys are distinct.** -/
theorem size_ofList_eq_iff {l : List (κ × ν)} :
    (ofList l).size = l.length ↔ (l.map Prod.fst).Nodup := by
  constructor
  · induction l using List.reverseRecOn with
    | nil => exact fun _ => List.nodup_nil
    | append_singleton l e ih =>
      rw [ofList_concat, size_insert, List.length_append, List.length_singleton]
      -- An insertion adds one entry at most, and so none of them may have added less.
      have hle := size_ofList_le l
      split
      · omega
      · rename_i hnew
        intro hsize
        have hl := ih (by omega)
        rw [keys_ofList_of_nodup hl] at hnew
        rw [List.map_append, List.map_singleton, List.nodup_append]
        refine ⟨hl, List.nodup_singleton _, fun k hk k' hk' heq => hnew ?_⟩
        rw [← List.mem_singleton.mp hk', ← heq]
        exact hk
  · intro hl
    rw [size, toList_ofList_of_nodup hl]

end

variable {α β γ : Type} {ns : Namespaces}

/-- A table retains entries: it has as many, and what each value stands for is held at the expansion
of its key. -/
structure Retains (ns : Namespaces) (reads : α → β → Prop) (entries : List (String × α))
    (x : OrderedMap String β) : Prop where
  size : x.size = entries.length
  held : ∀ e ∈ entries, ∃ uri v, ns.expand e.1 = .ok uri ∧ reads e.2 v ∧ x.get? uri = some v

/-- Entries that are expanded and inserted are retained exactly if no two keys expand alike. -/
theorem retains_ofList_iff {reads : α → β → Prop} {entries : List (String × α)}
    {es : List (String × β)}
    (h : List.Forall₂ (fun e e' => ns.expand e.1 = .ok e'.1 ∧ reads e.2 e'.2) entries es) :
    Retains ns reads entries (ofList es) ↔ (entries.map fun e => ns.expand e.1).Nodup := by
  rw [← nodup_map_fst_iff (h.imp fun _ _ he => he.1)]
  constructor
  · exact fun hx => size_ofList_eq_iff.mp (hx.size.trans h.length_eq)
  · intro hes
    refine ⟨(size_ofList_eq_iff.mpr hes).trans h.length_eq.symm, fun e he => ?_⟩
    obtain ⟨e', he', hk, hv⟩ := exists_mem_of_forall₂ h he
    refine ⟨e'.1, e'.2, hk, hv, mem_toList_iff.mp ?_⟩
    rw [toList_ofList_of_nodup hes]
    exact he'

section

variable {m : OrderedMap String α} {x : OrderedMap String β} {read : α → Except UnknownLabel β}

theorem Expands.size_le (h : m.Expands ns read x) : x.size ≤ m.size := by
  obtain ⟨es, hes, rfl⟩ := h
  exact (size_ofList_le es).trans_eq hes.length_eq.symm

/-- An expanded table retains the entries of the other one exactly if no two keys expand alike. -/
theorem Expands.retains_iff (h : m.Expands ns read x) {reads : α → β → Prop}
    (hread : ∀ a b, read a = .ok b → reads a b) :
    Retains ns reads m.toList x ↔ (m.keys.map ns.expand).Nodup := by
  obtain ⟨es, hes, rfl⟩ := h
  rw [keys, List.map_map]
  exact retains_ofList_iff (hes.imp fun _ _ he => ⟨he.1, hread _ _ he.2⟩)

/-- The same of written entries, out of which the other table was made: none of them is lost before
the expansion either. -/
theorem Expands.retains_written_iff {written : List (String × γ)} {pairs : List (String × α)}
    {reads : γ → α → Prop} {reads' : γ → β → Prop}
    (hwritten : List.Forall₂ (fun e p => p.1 = e.1 ∧ reads e.2 p.2) written pairs)
    (h : (ofList pairs).Expands ns read x)
    (hread : ∀ c a b, reads c a → read a = .ok b → reads' c b) :
    Retains ns reads' written x ↔ (written.map fun e => ns.expand e.1).Nodup := by
  by_cases hpairs : (pairs.map Prod.fst).Nodup
  · obtain ⟨es, hes, rfl⟩ := h
    rw [toList_ofList_of_nodup hpairs] at hes
    exact retains_ofList_iff (forall₂_trans
      (fun _ _ _ hp he => ⟨hp.1 ▸ he.1, hread _ _ _ hp.2 he.2⟩) hwritten hes)
  · -- Two keys are written alike, so that there are fewer entries from the start.
    refine iff_of_false (fun hx => hpairs ?_) fun hnodup => hpairs ?_
    · refine size_ofList_eq_iff.mp (Nat.le_antisymm (size_ofList_le pairs) ?_)
      rw [← hwritten.length_eq, ← hx.size]
      exact h.size_le
    · have hkeys : written.map Prod.fst = pairs.map Prod.fst :=
        map_eq_of_forall₂ hwritten fun _ _ hp => hp.1.symm
      rw [← hkeys]
      refine List.Nodup.of_map ns.expand ?_
      rwa [List.map_map]

end

end OrderedMap

/-! ## Entities -/

/-- The targets of a slot expand to those of another one, in order. -/
def Slot.ExpandsTo (ns : Namespaces) (slot slot' : Slot String) : Prop :=
  List.Forall₂ (fun target uri => ns.expand target = .ok uri) slot.toList slot'.toList

theorem Slot.expandsTo_of_mapE {ns : Namespaces} {slot slot' : Slot String}
    (h : slot.mapE ns.expand = .ok slot') : slot.ExpandsTo ns slot' := by
  unfold ExpandsTo
  cases slot with
  | one target =>
    obtain ⟨uri, huri, rfl⟩ := map_eq_ok_iff.mp h
    exact .cons huri .nil
  | many targets =>
    obtain ⟨uris, huris, rfl⟩ := map_eq_ok_iff.mp h
    exact mapM_eq_ok_iff.mp huris

namespace Entity

/-- An entity is retained in another one: there are as many properties and as many references, each
property has its values at the expansion of its predicate, and each reference its expanded
targets. -/
structure Retained (ns : Namespaces) (e e' : Entity) : Prop where
  properties : OrderedMap.Retains ns (fun slot slot' => slot' = slot) e.properties.toList
    e'.properties
  references : OrderedMap.Retains ns (Slot.ExpandsTo ns) e.references.toList e'.references

/-- No two properties of an entity expand alike, and no two references. -/
structure Apart (ns : Namespaces) (e : Entity) : Prop where
  properties : (e.properties.keys.map ns.expand).Nodup
  references : (e.references.keys.map ns.expand).Nodup

/-- **An entity keeps its slots exactly if no two predicates expand alike.** -/
theorem retained_iff {ns : Namespaces} {e e' : Entity} (h : e.expand ns = ⟨e', none⟩) :
    e.Retained ns e' ↔ e.Apart ns := by
  obtain ⟨-, hproperties, hreferences, -⟩ := expand_eq_iff.mp h
  have hproperties := hproperties.retains_iff fun _ _ hread => (Except.ok.inj hread).symm
  have hreferences := hreferences.retains_iff fun _ _ => Slot.expandsTo_of_mapE
  exact ⟨fun he => ⟨hproperties.mp he.properties, hreferences.mp he.references⟩,
    fun he => ⟨hproperties.mpr he.properties, hreferences.mpr he.references⟩⟩

end Entity

/-! ## Documents -/

namespace Document

/-- Whether an element describes an entity. -/
def describesEntity (v : Json) : Bool :=
  (elementId? v).any fun id => decide (id ≠ contextId ∧ id ≠ continuationId)

theorem describesEntity_eq {v : Json} {id : String} (h : elementId? v = some id) :
    describesEntity v = decide (id ≠ contextId ∧ id ≠ continuationId) := by
  unfold describesEntity
  rw [h, Option.any_some]

/-- The value of a member writes a property. -/
def WritesProperty (w : Json) (slot : Slot Literal) : Prop :=
  Slot.ofJson? Literal.ofJson? w = some slot

/-- The value of a member writes a reference, up to the expansion of its targets. -/
def WritesReference (ns : Namespaces) (w : Json) (slot' : Slot String) : Prop :=
  ∃ slot, Slot.ofJson? readString? w = some slot ∧ slot.ExpandsTo ns slot'

/-- What an element describes is retained in an entity: the identifier is expanded, and what each
member of its two tables writes is held at the expansion of its key, no two of them at one. -/
structure Retained (ns : Namespaces) (v : Json) (e : Entity) : Prop where
  id : ∃ id, elementId? v = some id ∧ ns.expand id = .ok e.id
  properties : ∃ members, members? (v.member? "props") = some members ∧
    OrderedMap.Retains ns WritesProperty members e.properties
  references : ∃ members, members? (v.member? "refs") = some members ∧
    OrderedMap.Retains ns (WritesReference ns) members e.references

/-- No two members of a field expand alike. -/
def ApartIn (ns : Namespaces) (v : Json) (field : String) : Prop :=
  ∀ members ∈ members? (v.member? field), (members.map fun e => ns.expand e.1).Nodup

/-- An element is read as an entity. -/
def ReadAs (v : Json) (e : Entity) : Prop :=
  ∃ id, elementId? v = some id ∧ readEntity id v = .ok e

theorem exists_of_readEntity {id : String} {v : Json} {e : Entity} (h : readEntity id v = .ok e) :
    ∃ props refs, readTable "a property" (Slot.ofJson? Literal.ofJson?) (v.member? "props") =
        .ok props ∧
      readTable "a reference" (Slot.ofJson? readString?) (v.member? "refs") = .ok refs ∧
      e.id = id ∧ e.properties = .ofList props ∧ e.references = .ofList refs := by
  unfold readEntity at h
  obtain ⟨props, hprops, h⟩ := bind_eq_ok_iff.mp h
  obtain ⟨refs, hrefs, h⟩ := bind_eq_ok_iff.mp h
  have hentity : ∃ deleted, e = ⟨id, .ofList props, .ofList refs, deleted⟩ := by
    split at h
    · exact ⟨_, (Except.ok.inj h).symm⟩
    · exact ⟨_, (Except.ok.inj h).symm⟩
    · cases h
  obtain ⟨deleted, rfl⟩ := hentity
  exact ⟨props, refs, hprops, hrefs, rfl, rfl, rfl⟩

/-- **An element that is read keeps its members exactly if no two of a field expand alike.** -/
theorem retained_iff {ns : Namespaces} {v : Json} {e e' : Entity} (hread : ReadAs v e)
    (hexpand : e.expand ns = ⟨e', none⟩) :
    Retained ns v e' ↔ ApartIn ns v "props" ∧ ApartIn ns v "refs" := by
  obtain ⟨id, hid, hentity⟩ := hread
  obtain ⟨props, refs, hprops, hrefs, rfl, hp, hr⟩ := exists_of_readEntity hentity
  obtain ⟨written, hwritten, hreads⟩ := readTable_eq_ok_iff.mp hprops
  obtain ⟨written', hwritten', hreads'⟩ := readTable_eq_ok_iff.mp hrefs
  obtain ⟨huri, hproperties, hreferences, -⟩ := Entity.expand_eq_iff.mp hexpand
  rw [hp] at hproperties
  rw [hr] at hreferences
  have hproperties : OrderedMap.Retains ns WritesProperty written e'.properties ↔
      (written.map fun m => ns.expand m.1).Nodup :=
    hproperties.retains_written_iff hreads fun w slot slot' hw hslot => Except.ok.inj hslot ▸ hw
  have hreferences : OrderedMap.Retains ns (WritesReference ns) written' e'.references ↔
      (written'.map fun m => ns.expand m.1).Nodup :=
    hreferences.retains_written_iff hreads' fun w slot slot' hw hslot =>
      ⟨slot, hw, Slot.expandsTo_of_mapE hslot⟩
  unfold ApartIn
  rw [hwritten, hwritten']
  simp only [Option.mem_some_iff, forall_eq']
  rw [← hproperties, ← hreferences]
  constructor
  · rintro ⟨-, ⟨_, hmembers, hkept⟩, _, hmembers', hkept'⟩
    rw [hwritten] at hmembers
    rw [hwritten'] at hmembers'
    rw [Option.some.inj hmembers, Option.some.inj hmembers']
    exact ⟨hkept, hkept'⟩
  · exact fun h => ⟨⟨_, hid, huri⟩, ⟨_, hwritten, h.1⟩, _, hwritten', h.2⟩

/-- An element that is read adds an entity if it describes one. -/
theorem entities_read {parts next : Parts} {n : Nat} {v : Json} (h : parts.read n v = .ok next) :
    ∃ es, next.entities = parts.entities ++ es ∧
      List.Forall₂ ReadAs ([v].filter describesEntity) es := by
  obtain ⟨id, hid, ⟨rfl, pairs, -, rfl⟩ | ⟨rfl, token, rfl⟩ | ⟨hentity, e, he, rfl⟩⟩ :=
    read_cases h
  · rw [List.filter_singleton, describesEntity_eq hid, decide_eq_false fun hne => hne.1 rfl]
    exact ⟨[], (List.append_nil _).symm, .nil⟩
  · rw [List.filter_singleton, describesEntity_eq hid, decide_eq_false fun hne => hne.2 rfl]
    exact ⟨[], (List.append_nil _).symm, .nil⟩
  · rw [List.filter_singleton, describesEntity_eq hid, decide_eq_true ⟨hentity.1, hentity.2⟩]
    exact ⟨[e], rfl, .cons ⟨id, hid, he⟩ .nil⟩

theorem entities_foldlM_read {elements : List Json} {n : Nat} {parts last : Parts}
    (h : (elements.zipIdx n).foldlM (fun parts e => parts.read e.2 e.1) parts = .ok last) :
    ∃ es, last.entities = parts.entities ++ es ∧
      List.Forall₂ ReadAs (elements.filter describesEntity) es := by
  induction elements generalizing n parts with
  | nil =>
    rw [← Except.ok.inj h]
    exact ⟨[], (List.append_nil _).symm, .nil⟩
  | cons v elements ih =>
    rw [List.zipIdx_cons, List.foldlM_cons] at h
    obtain ⟨next, hnext, hrest⟩ := bind_eq_ok_iff.mp h
    obtain ⟨es, hes, hread⟩ := entities_read hnext
    obtain ⟨es', hes', hread'⟩ := ih hrest
    refine ⟨es ++ es', by rw [hes', hes, List.append_assoc], ?_⟩
    rw [← List.singleton_append, List.filter_append]
    exact List.rel_append hread hread'

/-- **The entities of a document are its elements that describe one**, read and expanded. -/
theorem exists_entities_of_parse {text : String} {elements : List Json} {c : Collection}
    (htext : Json.sortedOfText text = .ok (.array elements)) (h : parse text = .ok c) :
    List.Forall₂ (fun v e' => ∃ e, ReadAs v e ∧ e.expand c.namespaces = ⟨e', none⟩)
      (elements.filter describesEntity) c.entities := by
  obtain ⟨elements', parts, htext', hparts, hcollect⟩ := exists_elements_of_parse h
  obtain rfl := Json.array.inj (Except.ok.inj (htext.symm.trans htext'))
  obtain ⟨es, hes, hread⟩ := entities_foldlM_read hparts
  obtain ⟨es', hexpand, -, rfl⟩ := collect_eq_ok_iff.mp hcollect
  have hentities : parts.entities = es := hes.trans (List.nil_append es)
  rw [hentities] at hexpand
  exact forall₂_trans (fun v e e' hv he => ⟨e, hv, he⟩) hread hexpand

/-- **Expansion by a table loses nothing exactly where no two predicates expand alike.** An entity
that expands is retained in what it expands to under just this condition on its properties and on
its references. And the entities of a document that is accepted and binds the table retain, one
after another, what its elements declare exactly if no two members of a table of properties or of
references expand alike in any of them. -/
theorem expansion_retains_iff (ns : Namespaces) :
    (∀ e e' : Entity, e.expand ns = ⟨e', none⟩ → (e.Retained ns e' ↔ e.Apart ns)) ∧
    ∀ (text : String) (elements : List Json) (c : Collection),
      Json.sortedOfText text = .ok (.array elements) → parse text = .ok c → c.namespaces = ns →
      (List.Forall₂ (Retained ns) (elements.filter describesEntity) c.entities ↔
        ∀ v ∈ elements.filter describesEntity, ApartIn ns v "props" ∧ ApartIn ns v "refs") := by
  constructor
  · exact fun e e' h => Entity.retained_iff h
  · rintro text elements c htext hc rfl
    refine forall₂_iff_forall (exists_entities_of_parse htext hc) ?_
    rintro v e' ⟨e, hread, hexpand⟩
    exact retained_iff hread hexpand

/-- The table of the register. -/
def registerTable : Namespaces := Namespaces.standard.bind "z" "http://x/"

/-- A person whose name is written with a label and, where a second one is given, also in full. -/
def personNamed (second? : Option String) : Entity :=
  { id := "z:ada"
    properties := .ofList (("z:name", .one (.string "Ada")) ::
      (second?.map fun name => ("http://x/name", Slot.one (.string name))).toList)
    references := .ofList [("rdf:type", .one "urn:Person")] }

/-- The person with one name is retained, and so are the two names of the register, of which one has
no label. -/
theorem expansion_retains_iff_register :
    (∃ e', (personNamed none).expand registerTable = ⟨e', none⟩ ∧
      (personNamed none).Retained registerTable e') ∧
    ∃ c, parse registerShort = .ok c ∧
      List.Forall₂ (Retained c.namespaces) (elementsShort.filter describesEntity) c.entities := by
  have hfacts : ((personNamed none).expand registerTable).error? = none ∧
      ((personNamed none).properties.keys.map registerTable.expand).Nodup ∧
      ((personNamed none).references.keys.map registerTable.expand).Nodup ∧
      ∀ v ∈ elementsShort.filter describesEntity, ∀ field ∈ ["props", "refs"],
        ∀ members ∈ members? (v.member? field),
          (members.map fun e => registerTable.expand e.1).Nodup := by
    decide +kernel
  obtain ⟨hexpand, hproperties, hreferences, hapart⟩ := hfacts
  have hnone : (personNamed none).expand registerTable =
      ⟨((personNamed none).expand registerTable).value, none⟩ := by rw [← hexpand]
  obtain ⟨hentities, hdocuments⟩ := expansion_retains_iff registerTable
  refine ⟨⟨_, hnone, (hentities _ _ hnone).mpr ⟨hproperties, hreferences⟩⟩, _,
    parse_registerShort, ?_⟩
  refine (hdocuments _ _ _ sortedOfText_registerShort parse_registerShort rfl).mpr ?_
  exact fun v hv => ⟨hapart v hv "props" (by simp), hapart v hv "refs" (by simp)⟩

/-- Not every entity that expands is retained: of two names, one written with a label and one in
full, the second takes the place of the first. -/
theorem not_forall_retained :
    ¬ ∀ (ns : Namespaces) (e e' : Entity), e.expand ns = ⟨e', none⟩ → e.Retained ns e' := by
  intro h
  have hfacts : ((personNamed (some "Augusta")).expand registerTable).error? = none ∧
      ((personNamed (some "Augusta")).expand registerTable).value.properties.size = 1 ∧
      (personNamed (some "Augusta")).properties.toList.length = 2 := by
    decide +kernel
  obtain ⟨hexpand, hone, htwo⟩ := hfacts
  have hretained := h registerTable (personNamed (some "Augusta")) _ (by rw [← hexpand])
  have hsize := hretained.properties.size
  omega

end Document

end EntityGraph
