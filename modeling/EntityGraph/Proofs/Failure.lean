import EntityGraph.Proofs.Declarations

/-!
# What a failed expansion leaves

An entity is expanded in place, its identifier first, and a table of slots is emptied before it is
filled again. So an expansion that fails on the way has done something already, unless it is the
identifier of the entity that does not expand. A collection is expanded entity by entity, and only
its index waits for the end: after a failure the index holds the identifiers that the entities had
before.

Results:
* `Entity.unchanged_iff`: when a failed expansion leaves an entity as it was.
* `Collection.expand_eq_error_iff`: where the expansion of a collection fails, and what it leaves.
* `Collection.Reachable.numbered`: what the index of every collection is like.
* `Collection.Reachable.ids_eq_keys`: when it holds the current identifiers.
* `Collection.expand_unchanged_iff`: these together.
-/

namespace EntityGraph

namespace Entity

variable {ns : Namespaces} {e e' : Entity} {err : UnknownLabel}

/-- **How the expansion of an entity fails**: at the identifier, and then nothing has been done; or
in a table of slots that is not empty, and then this table is left empty. -/
theorem expand_error_cases (h : e.expand ns = ⟨e', some err⟩) :
    (ns.expand e.id = .error err ∧ e' = e) ∨
    ∃ id, ns.expand e.id = .ok id ∧
      ((e.properties ≠ ∅ ∧ e' = { e with id, properties := ∅ }) ∨
        ∃ properties, e.references ≠ ∅ ∧ e' = { e with id, properties, references := ∅ }) := by
  unfold expand at h
  cases hid : ns.expand e.id with
  | error err' =>
    simp only [hid] at h
    cases h
    exact Or.inl ⟨rfl, rfl⟩
  | ok id =>
    simp only [hid] at h
    refine Or.inr ⟨id, rfl, ?_⟩
    cases hproperties : expandProperties ns e.properties with
    | error err' =>
      simp only [hproperties] at h
      cases h
      refine Or.inl ⟨fun hempty => ?_, rfl⟩
      rw [hempty] at hproperties
      cases hproperties
    | ok properties =>
      simp only [hproperties] at h
      cases hreferences : expandReferences ns e.references with
      | ok references =>
        simp only [hreferences] at h
        cases h
      | error err' =>
        simp only [hreferences] at h
        cases h
        refine Or.inr ⟨properties, fun hempty => ?_, rfl⟩
        rw [hempty] at hreferences
        cases hreferences

/-- **When a failed expansion leaves an entity as it was**: exactly if its identifier does not
expand. -/
theorem unchanged_iff (h : e.expand ns = ⟨e', some err⟩) :
    e' = e ↔ ∃ err, ns.expand e.id = .error err := by
  rcases expand_error_cases h with ⟨hid, rfl⟩ | ⟨id, hid, hlost⟩
  · exact iff_of_true rfl ⟨err, hid⟩
  · refine iff_of_false ?_ (by simp [hid])
    rintro rfl
    rcases hlost with ⟨hslots, heq⟩ | ⟨properties, hslots, heq⟩
    · exact hslots (congrArg Entity.properties heq)
    · exact hslots (congrArg Entity.references heq)

end Entity

namespace Collection

/-! ## Where the expansion of a collection fails -/

/-- An entity stops the expansion of a collection: it does not expand, or it expands to an
identifier that is taken. -/
inductive Halts (ns : Namespaces) (taken : List String) (e : Entity) : EntityError → Prop
  | unknownLabel {err : UnknownLabel} (h : (e.expand ns).error? = some err) :
    Halts ns taken e (.ofUnknownLabel err)
  | duplicate {e' : Entity} (h : e.expand ns = ⟨e', none⟩) (hmem : e'.id ∈ taken) :
    Halts ns taken e (.duplicateEntity e'.id)

section

variable {ns : Namespaces} {e e' : Entity} {es out : List Entity} {n : Nat}
  {idx : OrderedMap String Nat} {taken : List String} {err : EntityError}

theorem halts_of_error {u : UnknownLabel} (h : e.expand ns = ⟨e', some u⟩) :
    Halts ns taken e err ↔ err = .ofUnknownLabel u := by
  constructor
  · intro hhalts
    cases hhalts with
    | unknownLabel hu =>
      rw [h] at hu
      rw [Option.some.inj hu]
    | duplicate hok =>
      rw [h] at hok
      cases hok
  · rintro rfl
    exact .unknownLabel (by rw [h])

theorem halts_of_ok (h : e.expand ns = ⟨e', none⟩) :
    Halts ns taken e err ↔ e'.id ∈ taken ∧ err = .duplicateEntity e'.id := by
  constructor
  · intro hhalts
    cases hhalts with
    | unknownLabel hu =>
      rw [h] at hu
      cases hu
    | duplicate hok hmem =>
      rw [h] at hok
      cases hok
      exact ⟨hmem, rfl⟩
  · rintro ⟨hmem, rfl⟩
    exact .duplicate h hmem

/-- The expansion of a list fails at its first entity or behind it. -/
theorem expandFrom_cons_error_iff (hidx : ∀ id, idx.get? id = none ↔ id ∉ taken) :
    (∃ idx', expandFrom ns n idx (e :: es) = ⟨(out, idx'), some err⟩) ↔
      (Halts ns taken e err ∧ out = (e.expand ns).value :: es) ∨
      ∃ e' out', e.expand ns = ⟨e', none⟩ ∧ e'.id ∉ taken ∧ out = e' :: out' ∧
        ∃ idx', expandFrom ns (n + 1) (idx.insert e'.id n) es = ⟨(out', idx'), some err⟩ := by
  rw [expandFrom]
  cases hexp : e.expand ns with
  | mk value error? =>
    cases error? with
    | some u =>
      rw [halts_of_error hexp]
      simp [eq_comm, and_comm]
    | none =>
      have hcontains : idx.contains value.id = true ↔ value.id ∈ taken := by
        rw [OrderedMap.contains, Option.isSome_iff_ne_none, ne_eq, hidx, Decidable.not_not]
      rw [halts_of_ok hexp]
      by_cases hmem : value.id ∈ taken
      · simp [hcontains.mpr hmem, hmem, eq_comm, and_comm]
      · simp only [hcontains.not.mpr hmem, Bool.false_eq_true, if_false]
        constructor
        · cases hmore : expandFrom ns (n + 1) (idx.insert value.id n) es with
          | mk more error? =>
            rintro ⟨idx', heq⟩
            cases heq
            exact Or.inr ⟨value, more.1, rfl, hmem, rfl, more.2, hmore⟩
        · rintro (⟨⟨htaken, -⟩, -⟩ | ⟨e', out', heq, -, rfl, idx', hmore⟩)
          · exact absurd htaken hmem
          · cases heq
            rw [hmore]
            exact ⟨idx', rfl⟩

/-- Entities expand one after another to others with identifiers that are new, until one of them
stops the expansion. -/
structure FailsAt (ns : Namespaces) (taken : List String) (before done : List Entity) (e : Entity)
    (err : EntityError) : Prop where
  expand : List.Forall₂ (fun a a' => a.expand ns = ⟨a', none⟩) before done
  nodup : (taken ++ done.map Entity.id).Nodup
  halts : Halts ns (taken ++ done.map Entity.id) e err

theorem failsAt_nil (htaken : taken.Nodup) {done : List Entity} :
    FailsAt ns taken [] done e err ↔ done = [] ∧ Halts ns taken e err := by
  constructor
  · rintro ⟨hexpand, -, hhalts⟩
    obtain rfl := List.forall₂_nil_left_iff.mp hexpand
    exact ⟨rfl, by simpa using hhalts⟩
  · rintro ⟨rfl, hhalts⟩
    exact ⟨.nil, by simpa using htaken, by simpa using hhalts⟩

theorem failsAt_cons {a : Entity} {before done : List Entity} :
    FailsAt ns taken (a :: before) done e err ↔ ∃ a' done', a.expand ns = ⟨a', none⟩ ∧
      done = a' :: done' ∧ FailsAt ns (taken ++ [a'.id]) before done' e err := by
  constructor
  · rintro ⟨hexpand, hnodup, hhalts⟩
    obtain ⟨a', done', ha, hrest, rfl⟩ := List.forall₂_cons_left_iff.mp hexpand
    exact ⟨a', done', ha, rfl, hrest, by simpa using hnodup, by simpa using hhalts⟩
  · rintro ⟨a', done', ha, rfl, hexpand, hnodup, hhalts⟩
    exact ⟨.cons ha hexpand, by simpa using hnodup, by simpa using hhalts⟩

/-- **Where the expansion of a list fails.** -/
theorem expandFrom_error_iff (htaken : taken.Nodup) (hidx : ∀ id, idx.get? id = none ↔ id ∉ taken) :
    (∃ idx', expandFrom ns n idx es = ⟨(out, idx'), some err⟩) ↔
      ∃ before e after done, es = before ++ e :: after ∧ FailsAt ns taken before done e err ∧
        out = done ++ (e.expand ns).value :: after := by
  induction es generalizing n idx taken out with
  | nil => simp [expandFrom]
  | cons a es ih =>
    have hinsert : ∀ a' : Entity, ∀ id,
        (idx.insert a'.id n).get? id = none ↔ id ∉ taken ++ [a'.id] := by
      intro a' id
      rw [OrderedMap.get?_insert_eq_none_iff, hidx]
      simp [and_comm, eq_comm]
    have hconcat : ∀ id, (taken ++ [id]).Nodup ↔ id ∉ taken ∧ taken.Nodup := fun id =>
      List.nodup_append_comm.trans List.nodup_cons
    rw [expandFrom_cons_error_iff hidx]
    constructor
    · rintro (⟨hhalts, rfl⟩ | ⟨a', out', ha, hnew, rfl, hmore⟩)
      · exact ⟨[], a, es, [], rfl, (failsAt_nil htaken).mpr ⟨rfl, hhalts⟩, rfl⟩
      · obtain ⟨before, e, after, done, rfl, hfails, rfl⟩ :=
          (ih ((hconcat _).mpr ⟨hnew, htaken⟩) (hinsert a')).mp hmore
        exact ⟨a :: before, e, after, a' :: done, rfl,
          failsAt_cons.mpr ⟨a', done, ha, rfl, hfails⟩, rfl⟩
    · rintro ⟨_ | ⟨b, before⟩, e, after, done, heq, hfails, rfl⟩
      · obtain ⟨rfl, rfl⟩ := List.cons.inj heq
        obtain ⟨rfl, hhalts⟩ := (failsAt_nil htaken).mp hfails
        exact Or.inl ⟨hhalts, rfl⟩
      · obtain ⟨rfl, rfl⟩ := List.cons.inj heq
        obtain ⟨a', done', ha, rfl, hrest⟩ := failsAt_cons.mp hfails
        have htaken' : (taken ++ [a'.id]).Nodup := (List.nodup_append.mp hrest.nodup).1
        exact Or.inr ⟨a', _, ha, ((hconcat _).mp htaken').1, rfl, (ih htaken' (hinsert a')).mpr
          ⟨before, e, after, done', rfl, hrest, rfl⟩⟩

end

/-- **Where the expansion of a collection fails, and what it leaves**: the entities before the one
that stops it are expanded, that one as far as it goes, and nothing else is changed. -/
theorem expand_eq_error_iff {c c' : Collection} {err : EntityError} :
    c.expand = ⟨c', some err⟩ ↔ ∃ before e after done, c.entities = before ++ e :: after ∧
      FailsAt c.namespaces [] before done e err ∧
      c' = { c with entities := done ++ (e.expand c.namespaces).value :: after } := by
  have hfrom : ∀ out, (∃ idx', expandFrom c.namespaces 0 ∅ c.entities = ⟨(out, idx'), some err⟩) ↔
      ∃ before e after done, c.entities = before ++ e :: after ∧
        FailsAt c.namespaces [] before done e err ∧
        out = done ++ (e.expand c.namespaces).value :: after :=
    fun out => expandFrom_error_iff List.nodup_nil (by simp)
  unfold expand
  constructor
  · intro h
    cases hexp : expandFrom c.namespaces 0 ∅ c.entities with
    | mk value error? =>
      simp only [hexp] at h
      cases error? with
      | none => cases h
      | some err' =>
        cases h
        obtain ⟨before, e, after, done, hes, hfails, hout⟩ := (hfrom value.1).mp ⟨value.2, hexp⟩
        exact ⟨before, e, after, done, hes, hfails, by rw [hout]⟩
  · rintro ⟨before, e, after, done, hes, hfails, rfl⟩
    obtain ⟨idx', hexp⟩ := (hfrom _).mpr ⟨before, e, after, done, hes, hfails, rfl⟩
    rw [hexp]

/-- **When a failed expansion leaves a collection as it was.** -/
theorem unchanged_iff {c c' : Collection} {err : EntityError} (h : c.expand = ⟨c', some err⟩) :
    c' = c ↔ ∃ before e after, c.entities = before ++ e :: after ∧
      (∀ b ∈ before, b.expand c.namespaces = ⟨b, none⟩) ∧ (before.map Entity.id).Nodup ∧
      ((∃ err, c.namespaces.expand e.id = .error err) ∨
        e.expand c.namespaces = ⟨e, none⟩ ∧ e.id ∈ before.map Entity.id) := by
  constructor
  · intro heq
    obtain ⟨before, e, after, done, hes, hfails, hc'⟩ := expand_eq_error_iff.mp h
    have hentities := congrArg Collection.entities (heq.symm.trans hc')
    rw [hes] at hentities
    obtain ⟨hdone, hrest⟩ := List.append_inj hentities hfails.expand.length_eq
    have hvalue := (List.cons.inj hrest).1
    obtain ⟨hexpand, hnodup, hhalts⟩ := hfails
    rw [← hdone] at hexpand hnodup hhalts
    refine ⟨before, e, after, hes, List.forall₂_same.mp hexpand, hnodup, ?_⟩
    cases hhalts with
    | unknownLabel hu =>
      exact Or.inl ((Entity.unchanged_iff (by rw [← hu])).mp hvalue.symm)
    | duplicate hok hmem =>
      rw [hok] at hvalue
      subst hvalue
      exact Or.inr ⟨hok, hmem⟩
  · rintro ⟨before, e, after, hes, hexpand, hnodup, hstops⟩
    obtain ⟨err', hhalts, hvalue⟩ : ∃ err', Halts c.namespaces (before.map Entity.id) e err' ∧
        (e.expand c.namespaces).value = e := by
      rcases hstops with ⟨u, hu⟩ | ⟨hok, hmem⟩
      · refine ⟨.ofUnknownLabel u, .unknownLabel ?_, ?_⟩ <;> simp [Entity.expand, hu]
      · exact ⟨_, .duplicate hok hmem, by rw [hok]⟩
    have hsame := expand_eq_error_iff.mpr
      ⟨before, e, after, before, hes, ⟨List.forall₂_same.mpr hexpand, hnodup, hhalts⟩, rfl⟩
    rw [hvalue, ← hes, h] at hsame
    exact congrArg Rewritten.value hsame

/-! ## Collections in use -/

/-- The identifiers of the entities, in order. -/
def ids (c : Collection) : List String := c.entities.map Entity.id

/-- One use of a collection: an entity is added, a label is bound, or the collection is expanded.
What a failed expansion leaves is used further where this is tolerated. -/
inductive Step (tolerated : Collection → Collection → Prop) : Collection → Collection → Prop
  | add {c c' : Collection} {e : Entity} (h : c.add e = .ok c') : Step tolerated c c'
  | bind (c : Collection) (label expansion : String) :
    Step tolerated c { c with namespaces := c.namespaces.bind label expansion }
  | expand {c c' : Collection} (h : c.expand = ⟨c', none⟩) : Step tolerated c c'
  | fail {c c' : Collection} {err : EntityError} (h : c.expand = ⟨c', some err⟩)
    (htolerated : tolerated c c') : Step tolerated c c'

/-- The collections that come out of an empty one. -/
inductive Reachable (tolerated : Collection → Collection → Prop) : Collection → Prop
  | empty (ns : Namespaces) : Reachable tolerated (.empty ns)
  | step {c c' : Collection} (h : Reachable tolerated c) (hstep : Step tolerated c c') :
    Reachable tolerated c'

/-- Every failure is tolerated. -/
def AnyFailure (_ _ : Collection) : Prop := True

/-- Failures are tolerated that leave every identifier as it is. -/
def IdsKept (c c' : Collection) : Prop := c'.ids = c.ids

/-- The index numbers as many identifiers as there are entities. -/
structure Numbered (c : Collection) : Prop where
  length : c.index.keys.length = c.entities.length
  toList : c.index.toList = c.index.keys.zipIdx

/-- The identifier that each entity has is indexed to the entity. -/
def Indexed (c : Collection) : Prop :=
  ∀ i e, c.entities[i]? = some e → c.index.get? e.id = some i

/-- An entity is refused exactly if one with its identifier is present. -/
def Guarded (c : Collection) : Prop :=
  ∀ e : Entity, (∃ err, c.add e = .error err) ↔ e.id ∈ c.ids

section

variable {c c' : Collection} {tolerated : Collection → Collection → Prop}

theorem Numbered.get?_eq_some_iff (h : c.Numbered) {id : String} {i : Nat} :
    c.index.get? id = some i ↔ c.index.keys[i]? = some id := by
  rw [← OrderedMap.mem_toList_iff, h.toList, List.mem_zipIdx_iff_getElem?]

/-- **Entities are indexed exactly if the index holds their identifiers**, in order. -/
theorem Numbered.indexed_iff (h : c.Numbered) : c.Indexed ↔ c.ids = c.index.keys := by
  unfold Indexed ids
  simp only [h.get?_eq_some_iff]
  constructor
  · intro hindexed
    refine List.ext_getElem? fun i => ?_
    rw [List.getElem?_map]
    cases he : c.entities[i]? with
    | none =>
      rw [List.getElem?_eq_none_iff, ← h.length] at he
      rw [List.getElem?_eq_none_iff.mpr he]
      rfl
    | some e => rw [hindexed i e he, Option.map_some]
  · intro hids i e he
    rw [← hids, List.getElem?_map, he, Option.map_some]

theorem exists_add_eq_error_iff {e : Entity} :
    (∃ err, c.add e = .error err) ↔ e.id ∈ c.index.keys := by
  rw [OrderedMap.mem_keys_iff, ← Option.isSome_iff_exists]
  simp [add_eq_error_iff, OrderedMap.contains]

theorem guarded_iff : c.Guarded ↔ ∀ id, id ∈ c.index.keys ↔ id ∈ c.ids := by
  unfold Guarded
  simp only [exists_add_eq_error_iff]
  exact ⟨fun h id => h { id }, fun h e => h e.id⟩

theorem toList_positions {es : List Entity} (h : (es.map Entity.id).Nodup) :
    (positions es).toList = (es.map Entity.id).zipIdx :=
  OrderedMap.toList_ofList_of_nodup (by rwa [List.zipIdx_map_fst])

theorem keys_positions {es : List Entity} (h : (es.map Entity.id).Nodup) :
    (positions es).keys = es.map Entity.id := by
  rw [OrderedMap.keys, toList_positions h, List.zipIdx_map_fst]

/-- What a successful expansion leaves is indexed anew. -/
theorem index_of_expand (h : c.expand = ⟨c', none⟩) :
    c'.ids.Nodup ∧ c'.index = positions c'.entities := by
  have hexpanded : c.expanded = .ok c' := by
    unfold expanded
    rw [h]
  obtain ⟨es, -, hnodup, rfl⟩ := expanded_eq_ok_iff.mp hexpanded
  exact ⟨hnodup, rfl⟩

/-- A failed expansion leaves the index as it was. -/
theorem index_of_expand_error {err : EntityError} (h : c.expand = ⟨c', some err⟩) :
    c'.index = c.index := by
  obtain ⟨_, _, _, _, -, -, rfl⟩ := expand_eq_error_iff.mp h
  rfl

theorem not_mem_keys_of_add {e : Entity} (h : c.add e = .ok c') : e.id ∉ c.index.keys := by
  rw [← exists_add_eq_error_iff, h]
  simp

/-- Every use of a collection keeps the index numbered. -/
theorem Step.numbered (hstep : Step tolerated c c') (h : c.Numbered) : c'.Numbered := by
  cases hstep with
  | add hadd =>
    obtain ⟨hentities, hindex⟩ := entities_add hadd
    have hnew := not_mem_keys_of_add hadd
    have hkeys := OrderedMap.keys_insert c.index
    constructor
    · rw [hindex, hentities, hkeys, if_neg hnew]
      simp [h.length]
    · rw [hindex, OrderedMap.toList_insert_of_not_mem hnew, hkeys, if_neg hnew, h.toList,
        List.zipIdx_append, ← h.length]
      simp
  | bind label expansion => exact ⟨h.length, h.toList⟩
  | expand hexpand =>
    obtain ⟨hnodup, hindex⟩ := index_of_expand hexpand
    constructor
    · rw [hindex, keys_positions hnodup, List.length_map]
    · rw [hindex, keys_positions hnodup, toList_positions hnodup]
  | fail hexpand _ =>
    have hlength := length_entities_expand c
    rw [hexpand] at hlength
    constructor
    · rw [index_of_expand_error hexpand, hlength, h.length]
    · rw [index_of_expand_error hexpand, h.toList]

/-- **What the index of every collection is like**, failed expansions or not. -/
theorem Reachable.numbered (h : Reachable tolerated c) : c.Numbered := by
  induction h with
  | empty ns => exact ⟨rfl, rfl⟩
  | step _ hstep ih => exact hstep.numbered ih

/-- The index goes on holding the identifiers of the entities unless a failed expansion rewrites
them. -/
theorem Step.ids_eq_keys (hstep : Step IdsKept c c') (h : c.ids = c.index.keys) :
    c'.ids = c'.index.keys := by
  cases hstep with
  | add hadd =>
    obtain ⟨hentities, hindex⟩ := entities_add hadd
    rw [hindex, OrderedMap.keys_insert, if_neg (not_mem_keys_of_add hadd), ← h]
    unfold ids
    rw [hentities]
    simp
  | bind label expansion => exact h
  | expand hexpand =>
    obtain ⟨hnodup, hindex⟩ := index_of_expand hexpand
    rw [hindex, keys_positions hnodup]
    rfl
  | fail hexpand hkept => rw [hkept, h, index_of_expand_error hexpand]

/-- **When the index holds the current identifiers**: as long as each failed expansion leaves the
identifiers alone. -/
theorem Reachable.ids_eq_keys (h : Reachable IdsKept c) : c.ids = c.index.keys := by
  induction h with
  | empty ns => rfl
  | step _ hstep ih => exact hstep.ids_eq_keys ih

/-- Entities with distinct identifiers make a collection that comes out of an empty one. -/
theorem reachable_of_nodup (ns : Namespaces) {es : List Entity} (h : (es.map Entity.id).Nodup) :
    Reachable tolerated ⟨ns, none, es, positions es⟩ := by
  induction es using List.reverseRecOn with
  | nil => exact .empty ns
  | append_singleton es e ih =>
    rw [List.map_append, List.nodup_append] at h
    have hnew : (positions es).contains e.id = false := by
      rw [OrderedMap.contains, Option.isSome_eq_false_iff, Option.isNone_iff_eq_none]
      exact get?_foldl_zipIdx_eq_none_iff.mpr ⟨fun hmem => h.2.2 _ hmem _ (by simp) rfl, rfl⟩
    refine .step (ih h.1) (.add (e := e) ?_)
    simp only [add, hnew, Bool.false_eq_true, if_false, positions_concat]

theorem guarded_of_ids_eq_keys (h : c.ids = c.index.keys) : c.Guarded :=
  guarded_iff.mpr fun id => by rw [h]

end

/-- **What a failed expansion leaves.** An entity is as it was exactly if its identifier does not
expand. A collection is as it was exactly if the entities before the one that stops the expansion
expand to themselves, and that one has an identifier that does not expand, or expands to itself and
repeats an identifier. Where each entity is indexed by its identifier, this remains so after a
failure exactly if the failure leaves all identifiers, and additions go on being refused exactly for
the identifiers that are present exactly if these are the same ones in some order. So both hold in
every collection that comes out of an empty one without a failed expansion that rewrites
identifiers. -/
theorem expand_unchanged_iff (ns : Namespaces) (e : Entity) (c : Collection) :
    (∀ e' err, e.expand ns = ⟨e', some err⟩ → (e' = e ↔ ∃ err, ns.expand e.id = .error err)) ∧
    (∀ c' err, c.expand = ⟨c', some err⟩ → (c' = c ↔
      ∃ before e after, c.entities = before ++ e :: after ∧
        (∀ b ∈ before, b.expand c.namespaces = ⟨b, none⟩) ∧ (before.map Entity.id).Nodup ∧
        ((∃ err, c.namespaces.expand e.id = .error err) ∨
          e.expand c.namespaces = ⟨e, none⟩ ∧ e.id ∈ before.map Entity.id))) ∧
    (Reachable AnyFailure c → c.Indexed → ∀ c' err, c.expand = ⟨c', some err⟩ →
      (c'.Indexed ↔ c'.ids = c.ids) ∧ (c'.Guarded ↔ ∀ id, id ∈ c'.ids ↔ id ∈ c.ids)) ∧
    (Reachable IdsKept c → c.Indexed ∧ c.Guarded) := by
  refine ⟨fun e' err h => Entity.unchanged_iff h, fun c' err h => unchanged_iff h, ?_,
    fun h => ?_⟩
  · intro hreach hindexed c' err h
    have hnumbered := hreach.numbered
    have hids := hnumbered.indexed_iff.mp hindexed
    have hstep : Step AnyFailure c c' := .fail h trivial
    have hnumbered' := hstep.numbered hnumbered
    rw [hnumbered'.indexed_iff, guarded_iff, index_of_expand_error h, ← hids]
    exact ⟨Iff.rfl, forall_congr' fun id => iff_comm⟩
  · exact ⟨h.numbered.indexed_iff.mpr h.ids_eq_keys, guarded_of_ids_eq_keys h.ids_eq_keys⟩

/-! ### Friends -/

/-- The table of the friends. -/
def friendsTable : Namespaces := Namespaces.standard.bind "ex" "http://x/"

/-- Friends, to whom the identifiers lead that they have. -/
def friends (es : List Entity) : Collection := ⟨friendsTable, none, es, positions es⟩

/-- A friend whose identifier is written in full, and one with a label that is not bound. -/
def strangers : List Entity := [{ id := "http://x/ada" }, { id := "no:bob" }]

/-- The expansion of the two friends fails at the identifier of the second one and changes
nothing. -/
theorem expand_unchanged_iff_strangers :
    (∃ err, Entity.expand friendsTable { id := "no:bob" } = ⟨{ id := "no:bob" }, some err⟩) ∧
    (∃ err, (friends strangers).expand = ⟨friends strangers, some err⟩) ∧
    (friends strangers).Indexed ∧ (friends strangers).Guarded := by
  have hfacts : (Entity.expand friendsTable { id := "no:bob" }).error? = some ⟨"no", "no:bob"⟩ ∧
      (friends strangers).expand.error? = some (.unknownLabel "no" "no:bob") ∧
      friendsTable.expand "no:bob" = .error ⟨"no", "no:bob"⟩ ∧
      (Entity.expand friendsTable { id := "http://x/ada" }).error? = none ∧
      (Entity.expand friendsTable { id := "http://x/ada" }).value = { id := "http://x/ada" } ∧
      (strangers.map Entity.id).Nodup := by
    decide +kernel
  obtain ⟨hentity, hcollection, hbob, hada, hvalue, hnodup⟩ := hfacts
  obtain ⟨hkeeps, hkeeps', hafter, hsound⟩ :=
    expand_unchanged_iff friendsTable { id := "no:bob" } (friends strangers)
  obtain ⟨hindexed, hguarded⟩ := hsound (reachable_of_nodup friendsTable hnodup)
  have hfail : (friends strangers).expand =
      ⟨(friends strangers).expand.value, some (.unknownLabel "no" "no:bob")⟩ := by
    rw [← hcollection]
  have hsame : (friends strangers).expand.value = friends strangers := by
    refine (hkeeps' _ _ hfail).mpr ⟨[{ id := "http://x/ada" }], { id := "no:bob" }, [], rfl, ?_⟩
    refine ⟨fun b hb => ?_, List.nodup_singleton _, Or.inl ⟨_, hbob⟩⟩
    rw [List.mem_singleton.mp hb, ← hada]
    exact congrArg (Rewritten.mk · _) hvalue
  refine ⟨⟨⟨"no", "no:bob"⟩, ?_⟩, ⟨_, hfail.trans (by rw [hsame])⟩, hindexed, hguarded⟩
  have hentity' : Entity.expand friendsTable { id := "no:bob" } =
      ⟨(Entity.expand friendsTable { id := "no:bob" }).value, some ⟨"no", "no:bob"⟩⟩ := by
    rw [← hentity]
  rw [hentity', (hkeeps _ _ hentity').mpr ⟨_, hbob⟩]

/-- Two friends with labels, of whom the second one has a property with a label that is not
bound. -/
def acquaintances : List Entity :=
  [{ id := "ex:ada", properties := .ofList [("ex:name", .one (.string "Ada"))] },
    { id := "ex:bob", properties := .ofList [("no:name", .one (.string "Bob"))] }]

/-- Not every failed expansion changes nothing. That of the second friend rewrites the identifier
and takes the property away. That of the collection leaves both friends with identifiers that are
not indexed, and so the first one can be added once more. -/
theorem not_forall_expand_unchanged :
    (¬ ∀ (ns : Namespaces) (e e' : Entity) (err : UnknownLabel),
      e.expand ns = ⟨e', some err⟩ → e' = e) ∧
    (¬ ∀ (c c' : Collection) (err : EntityError), Reachable AnyFailure c →
      c.expand = ⟨c', some err⟩ → c' = c) ∧
    (¬ ∀ c, Reachable AnyFailure c → c.Indexed) ∧ ¬ ∀ c, Reachable AnyFailure c → c.Guarded := by
  have hfacts : (acquaintances[1].expand friendsTable).error? = some ⟨"no", "no:name"⟩ ∧
      (acquaintances[1].expand friendsTable).value = { id := "http://x/bob" } ∧
      (friends acquaintances).expand.error? = some (.unknownLabel "no" "no:name") ∧
      (friends acquaintances).expand.value.ids = ["http://x/ada", "http://x/bob"] ∧
      (friends acquaintances).expand.value.index.keys = ["ex:ada", "ex:bob"] ∧
      (friends acquaintances).ids = ["ex:ada", "ex:bob"] ∧ (acquaintances.map Entity.id).Nodup := by
    decide +kernel
  obtain ⟨hentity, hvalue, hcollection, hids, hkeys, hids', hnodup⟩ := hfacts
  have hreach : Reachable AnyFailure (friends acquaintances) :=
    reachable_of_nodup friendsTable hnodup
  have hfail : (friends acquaintances).expand =
      ⟨(friends acquaintances).expand.value, some (.unknownLabel "no" "no:name")⟩ := by
    rw [← hcollection]
  have hreach' : Reachable AnyFailure (friends acquaintances).expand.value :=
    hreach.step (.fail hfail trivial)
  refine ⟨fun h => ?_, fun h => ?_, fun h => ?_, fun h => ?_⟩
  · have hsame := h friendsTable acquaintances[1] { id := "http://x/bob" } ⟨"no", "no:name"⟩ (by
      rw [← hvalue, ← hentity])
    exact absurd (congrArg Entity.id hsame) (by decide)
  · have hsame := congrArg ids (h _ _ _ hreach hfail)
    rw [hids, hids'] at hsame
    exact absurd hsame (by decide)
  · have hindexed := hreach'.numbered.indexed_iff.mp (h _ hreach')
    rw [hids, hkeys] at hindexed
    exact absurd hindexed (by decide)
  · have hguarded := (guarded_iff.mp (h _ hreach') "http://x/ada").mpr
    rw [hids, hkeys] at hguarded
    exact absurd (hguarded (by decide)) (by decide)

end Collection

end EntityGraph
