import EntityGraph.Proofs.Refinement
import EntityGraph.Proofs.Targets

/-!
# One step away

Which entities are one step away is looked up in one of three indexes: in the targets of a source,
in the sources of a target, or, for the instances of a type, in an index of their own. Whichever
answers, the entities delivered are those that a search through all datasets finds. The index of
types could even be left out, as the sources of a type list the same identifiers in the same order:
the two are kept apart but go through the same listings, removals and new listings.

Results:
* `Reachable.names_eq_of_mirrors`: indexes to which all records contribute alike list alike.
* `Reachable.mem_hop_ids_iff`: which identifiers a hop delivers, forwards and backwards.
* `replay_scanned`: a hop delivers what a search through the datasets finds, each identifier once.
* `replay_byType_eq_inbound`: the index of types lists what the index of sources does, in order.
-/

namespace EntityGraph

/-- The first elements of a list up to a limit, or all of them. -/
def atMost {α : Type} (limit : Option Nat) (l : List α) : List α := limit.elim l l.take

@[simp] theorem atMost_none {α : Type} (l : List α) : atMost none l = l := rfl

@[simp] theorem atMost_some {α : Type} (n : Nat) (l : List α) : atMost (some n) l = l.take n := rfl

theorem atMost_sublist {α : Type} (limit : Option Nat) (l : List α) :
    (atMost limit l).Sublist l := by
  cases limit with
  | none => exact List.Sublist.refl l
  | some n => exact List.take_sublist n l

theorem map_atMost {α β : Type} (f : α → β) (limit : Option Nat) (l : List α) :
    (atMost limit l).map f = atMost limit (l.map f) := by
  cases limit with
  | none => rfl
  | some n => exact List.map_take

/-! ## The order of an index -/

namespace Index

variable {κ : Type} [DecidableEq κ]

theorem nodup_names (idx : Index κ) (k : κ) : (idx.names k).Nodup := by
  unfold names
  cases idx.table.get? k with
  | none => exact List.nodup_nil
  | some set => exact set.nodup

/-- The names that pairs of a key and a name have at a key, in order. -/
def namesAt (l : List (κ × String)) (k : κ) : List String :=
  (l.filter fun x => x.1 = k).map Prod.snd

theorem namesAt_cons (x : κ × String) (l : List (κ × String)) (k : κ) :
    namesAt (x :: l) k = if x.1 = k then x.2 :: namesAt l k else namesAt l k := by
  unfold namesAt
  by_cases h : x.1 = k <;> simp [h]

/-- A list with a name at its end, unless it is there already. -/
def listed (names : List String) (name : String) : List String :=
  if name ∈ names then names else names ++ [name]

/-- What pairs do to the list of a key depends on their names at it. -/
theorem names_addAll (idx : Index κ) (l : List (κ × String)) (k : κ) :
    (idx.addAll l).names k = (namesAt l k).foldl listed (idx.names k) := by
  induction l generalizing idx with
  | nil => rfl
  | cons x l ih =>
    have hstep : (idx.addAll (x :: l)).names k = ((idx.add x.1 x.2).addAll l).names k := rfl
    rw [hstep, ih, names_add, namesAt_cons]
    by_cases hk : x.1 = k
    · subst hk
      rw [if_pos rfl, List.foldl_cons]
      by_cases hmem : x.2 ∈ idx.names x.1 <;> simp [listed, hmem]
    · rw [if_neg hk, if_neg fun h => hk h.1.symm]

theorem names_dropAll (idx : Index κ) (l : List (κ × String)) (k : κ) :
    (idx.dropAll l).names k = (idx.names k).filter fun name => name ∉ namesAt l k := by
  induction l generalizing idx with
  | nil => exact (List.filter_eq_self.mpr fun _ _ => rfl).symm
  | cons x l ih =>
    have hstep : (idx.dropAll (x :: l)).names k = ((idx.drop x.1 x.2).dropAll l).names k := rfl
    rw [hstep, ih, names_drop, namesAt_cons]
    by_cases hk : x.1 = k
    · subst hk
      rw [if_pos rfl, if_pos rfl, List.filter_filter]
      refine List.filter_congr fun name _ => ?_
      simp only [List.mem_cons, not_or, Bool.decide_and, Bool.and_comm]
    · rw [if_neg hk, if_neg (Ne.symm hk)]

end Index

namespace OrderedMap

variable {κ ν : Type} [DecidableEq κ]

/-- What is made of the entries at a key alone is made of what is stored there. -/
theorem flatMap_toList_ite {α : Type} (m : OrderedMap κ ν) (k : κ) (f : ν → List α) :
    (m.toList.flatMap fun b => if b.1 = k then f b.2 else []) = (m.get? k).elim [] f := by
  have hfind : ∀ l : List (κ × ν), (l.map Prod.fst).Nodup →
      (l.flatMap fun b => if b.1 = k then f b.2 else []) = (find k l).elim [] f := by
    intro l hl
    induction l with
    | nil => rfl
    | cons b l ih =>
      rw [List.map_cons, List.nodup_cons] at hl
      rw [List.flatMap_cons, ih hl.2, find]
      by_cases hk : b.1 = k
      · rw [if_pos hk, if_pos hk, find_eq_none_iff.mpr (hk ▸ hl.1)]
        exact List.append_nil _
      · rw [if_neg hk, if_neg hk, List.nil_append]
  exact hfind m.toList m.nodup

end OrderedMap

namespace Store

/-- The edges with a predicate are those to the targets at it, in order. -/
theorem filter_edges (e : Entity) (predicate : String) :
    ((edges e).filter fun edge => edge.1 = predicate) =
      (e.referenceValues predicate).map fun target => (predicate, target) := by
  unfold edges Entity.referenceValues Entity.reference?
  have hslot : ∀ b ∈ e.references.toList,
      ((b.2.toList.map fun target => (b.1, target)).filter fun edge => edge.1 = predicate) =
        if b.1 = predicate then b.2.toList.map fun target => (predicate, target) else [] := by
    intro b _
    by_cases hk : b.1 = predicate
    · rw [if_pos hk, ← hk, List.filter_eq_self]
      intro edge hedge
      obtain ⟨target, -, rfl⟩ := List.mem_map.mp hedge
      exact decide_eq_true rfl
    · rw [if_neg hk, List.filter_eq_nil_iff]
      intro edge hedge
      obtain ⟨target, -, rfl⟩ := List.mem_map.mp hedge
      exact fun h => hk (of_decide_eq_true h)
  rw [List.filter_flatMap, List.flatMap_congr hslot,
    OrderedMap.flatMap_toList_ite e.references predicate fun slot =>
      slot.toList.map fun target => (predicate, target)]
  cases e.references.get? predicate <;> rfl

/-! ## Indexes that mirror each other -/

namespace Aspect

variable {κ κ' : Type} [DecidableEq κ] [DecidableEq κ'] {a : Aspect κ} {b : Aspect κ'} {k : κ}
  {k' : κ'}

/-- Every record contributes the same names, in the same order, at one key of an index and at a key
of another. -/
def Mirrors (a : Aspect κ) (b : Aspect κ') (k : κ) (k' : κ') : Prop :=
  ∀ r, Index.namesAt (a.entries r) k = Index.namesAt (b.entries r) k'

theorem Mirrors.listRecord (h : a.Mirrors b k k') {σ : Store}
    (heq : (a.index σ).names k = (b.index σ).names k') (r : Record) :
    (a.index (σ.listRecord r.dataset r.entity)).names k =
      (b.index (σ.listRecord r.dataset r.entity)).names k' := by
  rw [a.index_listRecord, b.index_listRecord, Index.names_addAll, Index.names_addAll, h r, heq]

theorem Mirrors.foldl_listRecord (h : a.Mirrors b k k') (rs : List Record) {σ : Store}
    (heq : (a.index σ).names k = (b.index σ).names k') :
    (a.index (rs.foldl (fun s r => s.listRecord r.dataset r.entity) σ)).names k =
      (b.index (rs.foldl (fun s r => s.listRecord r.dataset r.entity) σ)).names k' := by
  induction rs generalizing σ with
  | nil => exact heq
  | cons r rs ih => exact ih (h.listRecord heq r)

/-- A removal drops the same names from both lists and lists the same ones again. -/
theorem Mirrors.remove (h : a.Mirrors b k k') {σ : Store}
    (heq : (a.index σ).names k = (b.index σ).names k') (dataset id : String) :
    (a.index (σ.remove dataset id).2).names k = (b.index (σ.remove dataset id).2).names k' := by
  cases hrec : σ.record? dataset id with
  | none =>
    rw [remove_of_none hrec]
    exact heq
  | some e =>
    rw [remove_of_some hrec, discard_eq]
    -- What is listed again is read off the datasets, and so is the same for both indexes.
    refine h.foldl_listRecord _ ?_
    rw [a.index_withdrawn, b.index_withdrawn, Index.names_dropAll, Index.names_dropAll, h, heq]

theorem Mirrors.put (h : a.Mirrors b k k') {σ : Store}
    (heq : (a.index σ).names k = (b.index σ).names k') (dataset : String) (e : Entity) :
    (a.index (σ.put dataset e)).names k = (b.index (σ.put dataset e)).names k' := by
  have hremoved := h.remove heq dataset e.id
  cases hdel : e.deleted with
  | true =>
    rw [put_of_deleted hdel]
    exact hremoved
  | false =>
    rw [a.index_put _ _ hdel, b.index_put _ _ hdel, Index.names_addAll, Index.names_addAll, h,
      hremoved]

/-- The types of a record are its targets through the predicate for types. -/
theorem types_mirrors_inbound (type : String) :
    types.Mirrors inbound type (type, Vocabulary.rdfType) := by
  intro r
  have hedges :
      ((edges r.entity).filter fun edge => (edge.2, edge.1) = (type, Vocabulary.rdfType)) =
        ((edges r.entity).filter fun edge => edge.1 = Vocabulary.rdfType).filter
          fun edge => edge.2 = type := by
    rw [List.filter_filter]
    refine List.filter_congr fun edge _ => ?_
    simp only [Prod.mk.injEq, Bool.decide_and]
  unfold Index.namesAt types inbound
  simp only [List.filter_map, List.map_map, Function.comp_def]
  rw [hedges, filter_edges, List.filter_map, List.map_map]
  rfl

end Aspect

/-- **Indexes to which all records contribute alike list alike**, in the same order, in every
reachable store. -/
theorem Reachable.names_eq_of_mirrors {κ κ' : Type} [DecidableEq κ] [DecidableEq κ']
    {a : Aspect κ} {b : Aspect κ'} {k : κ} {k' : κ'} (hm : a.Mirrors b k k') {σ : Store}
    (h : σ.Reachable) : (a.index σ).names k = (b.index σ).names k' := by
  refine h.of_writes (P := fun σ => (a.index σ).names k = (b.index σ).names k') ?_
    (fun dataset _ ih => ?_) (fun dataset e _ ih => hm.put ih dataset e)
    fun dataset id _ ih => hm.remove ih dataset id
  · rw [a.index_empty, b.index_empty]
    rfl
  · unfold Store.create
    rw [a.index_datasets, b.index_datasets]
    exact ih

/-! ## Visiting identifiers -/

variable {σ : Store}

/-- The stored entities of identifiers, merged, at most `limit` of them. -/
def visit (σ : Store) (ids : List String) (limit : Option Nat) : List Entity :=
  atMost limit (ids.filterMap fun id => (σ.stored? id).map StoredEntity.merged)

theorem hop_eq_visit (source predicate : String) (inverse : Bool) (limit : Option Nat) :
    σ.hop source predicate inverse limit =
      σ.visit (σ.neighbours source predicate inverse) limit := by
  cases limit <;> rfl

theorem hop_eq_atMost (source predicate : String) (inverse : Bool) (limit : Option Nat) :
    σ.hop source predicate inverse limit =
      atMost limit (σ.hop source predicate inverse none) := by
  cases limit <;> rfl

/-- An entity is delivered as it is stored, merged. -/
theorem exists_of_mem_hop {source predicate : String} {inverse : Bool} {limit : Option Nat}
    {e : Entity} (h : e ∈ σ.hop source predicate inverse limit) :
    ∃ stored, σ.stored? e.id = some stored ∧ e = stored.merged := by
  rw [hop_eq_visit] at h
  obtain ⟨id, -, hid⟩ := List.mem_filterMap.mp ((atMost_sublist _ _).subset h)
  obtain ⟨stored, hstored, rfl⟩ := Option.map_eq_some_iff.mp hid
  refine ⟨stored, ?_, rfl⟩
  rw [StoredEntity.id_merged, id_of_stored? hstored]
  exact hstored

/-- What is not stored is passed over and does not count against the limit. -/
theorem map_id_visit (ids : List String) (limit : Option Nat) :
    (σ.visit ids limit).map Entity.id =
      atMost limit (ids.filter fun id => (σ.stored? id).isSome) := by
  have hid : ∀ id ∈ ids, ((σ.stored? id).map StoredEntity.merged).map Entity.id =
      Option.guard (fun id => (σ.stored? id).isSome) id := by
    intro id _
    cases hstored : σ.stored? id with
    | none => simp [Option.guard, hstored]
    | some stored => simp [Option.guard, hstored, id_of_stored? hstored]
  unfold visit
  rw [map_atMost, List.map_filterMap, List.filterMap_congr hid, List.filterMap_eq_filter]

/-! ## A hop is a search -/

/-- Some record of an identifier refers to a target through a predicate. -/
def Refers (σ : Store) (id predicate target : String) : Prop :=
  ∃ d e, σ.record? d id = some e ∧ target ∈ e.referenceValues predicate

theorem nodup_neighbours (source predicate : String) (inverse : Bool) :
    (σ.neighbours source predicate inverse).Nodup := by
  unfold neighbours
  split
  · exact Index.nodup_names _ _
  · split
    · exact Index.nodup_names _ _
    · exact Index.nodup_names _ _

theorem neighbours_rdfType (type : String) :
    σ.neighbours type Vocabulary.rdfType true = σ.ofType type := by
  unfold neighbours
  rw [Bool.true_and, if_pos (beq_self_eq_true _)]
  rfl

/-- Whichever index answers, the sources are those that refer. -/
theorem Reachable.mem_neighbours_iff (h : σ.Reachable) {id predicate target : String} :
    id ∈ σ.neighbours target predicate true ↔ σ.Refers id predicate target := by
  unfold Refers
  by_cases htype : predicate = Vocabulary.rdfType
  · rw [htype, neighbours_rdfType]
    exact h.indexed.byType target id
  · unfold neighbours
    rw [Bool.true_and, if_neg (mt beq_iff_eq.mp htype), if_pos rfl, h.indexed.inbound]

/-- Backwards nothing is passed over, as all that refer are stored. -/
theorem Reachable.map_id_hop (h : σ.Reachable) (target predicate : String) :
    (σ.hop target predicate true none).map Entity.id = σ.neighbours target predicate true := by
  rw [hop_eq_visit, map_id_visit, atMost_none, List.filter_eq_self]
  intro id hid
  obtain ⟨d, e, hrec, -⟩ := h.mem_neighbours_iff.mp hid
  exact h.sound.isSome_stored?_iff.mpr ⟨d, e, hrec⟩

/-- Forwards the targets with a record are found, backwards all that refer. -/
theorem Reachable.mem_hop_ids_iff (h : σ.Reachable) {source predicate id : String} :
    (id ∈ (σ.hop source predicate false none).map Entity.id ↔
      (∃ d e, σ.record? d id = some e) ∧ σ.Refers source predicate id) ∧
    (id ∈ (σ.hop source predicate true none).map Entity.id ↔ σ.Refers id predicate source) := by
  constructor
  · have hforward : id ∈ σ.neighbours source predicate false ↔ σ.Refers source predicate id :=
      h.indexed.outbound source predicate id
    rw [hop_eq_visit, map_id_visit, atMost_none, List.mem_filter, hforward,
      h.sound.isSome_stored?_iff, and_comm]
  · rw [h.map_id_hop, h.mem_neighbours_iff]

/-- An entity is delivered backwards exactly if it is what is stored under an identifier that
refers. -/
theorem Reachable.mem_hop_iff (h : σ.Reachable) {target predicate : String} {referrer : Entity} :
    referrer ∈ σ.hop target predicate true none ↔
      ∃ id stored, σ.Refers id predicate target ∧ σ.stored? id = some stored ∧
        referrer = stored.merged := by
  unfold hop
  simp only [List.mem_filterMap, h.mem_neighbours_iff, Option.map_eq_some_iff]
  constructor
  · rintro ⟨id, hid, stored, hstored, rfl⟩
    exact ⟨id, stored, hid, hstored, rfl⟩
  · rintro ⟨id, stored, hid, hstored, rfl⟩
    exact ⟨id, hid, stored, hstored, rfl⟩

/-- What hops deliver is what a search through the datasets finds. -/
structure Scanned (σ : Store) : Prop where
  /-- Each entity delivered is merged from the records that the datasets hold of it. -/
  merged : ∀ source predicate inverse limit, ∀ e ∈ σ.hop source predicate inverse limit,
    ∃ stored, σ.stored? e.id = some stored ∧ e = stored.merged ∧
      ∀ r, r ∈ stored.records ↔ σ.record? r.dataset e.id = some r.entity
  nodup : ∀ source predicate inverse limit,
    ((σ.hop source predicate inverse limit).map Entity.id).Nodup
  /-- Forwards all targets with a record are found. -/
  forward : ∀ source predicate id, id ∈ (σ.hop source predicate false none).map Entity.id ↔
    (∃ d e, σ.record? d id = some e) ∧ σ.Refers source predicate id
  /-- Backwards all that refer are found. -/
  inverse : ∀ source predicate id, id ∈ (σ.hop source predicate true none).map Entity.id ↔
    σ.Refers id predicate source
  limited : ∀ source predicate inverse n, σ.hop source predicate inverse (some n) =
    (σ.hop source predicate inverse none).take n
  /-- The two directions agree about what has a record. -/
  symmetric : ∀ source predicate target, (∃ d e, σ.record? d target = some e) →
    (target ∈ (σ.hop source predicate false none).map Entity.id ↔
      source ∈ (σ.hop target predicate true none).map Entity.id)

theorem Reachable.scanned (h : σ.Reachable) : σ.Scanned where
  merged source predicate inverse limit e he := by
    obtain ⟨stored, hstored, heq⟩ := exists_of_mem_hop he
    refine ⟨stored, hstored, heq, fun r => ?_⟩
    rw [(records_of_stored? hstored).1]
    exact h.sound.mem_records_iff
  nodup source predicate inverse limit := by
    rw [hop_eq_visit, map_id_visit]
    exact ((nodup_neighbours source predicate inverse).filter _).sublist (atMost_sublist _ _)
  forward source predicate id := h.mem_hop_ids_iff.1
  inverse source predicate id := h.mem_hop_ids_iff.2
  limited source predicate inverse n := hop_eq_atMost source predicate inverse (some n)
  symmetric source predicate target htarget := by
    rw [h.mem_hop_ids_iff.1, h.mem_hop_ids_iff.2, and_iff_right htarget]

/-- **What hops deliver is what a search through the datasets finds**, after any journal: forwards
the targets that have a record, backwards whoever refers, each identifier once and merged. -/
theorem replay_scanned (journal : List Operation) : (replay journal).Scanned :=
  (reachable_replay journal).scanned

/-! ## The instances of a type -/

theorem Reachable.ofType_eq_names_inbound (h : σ.Reachable) (type : String) :
    σ.ofType type = σ.inbound.names (type, Vocabulary.rdfType) :=
  h.names_eq_of_mirrors (Aspect.types_mirrors_inbound type)

/-- **The index of types lists what the index of sources does**, after any journal: the same
identifiers in the same order. Whichever is asked for the instances of a type, a hop delivers the
same entities, and these are the listed identifiers up to the limit. -/
theorem replay_byType_eq_inbound (journal : List Operation) (type : String) :
    (replay journal).ofType type =
        (replay journal).inbound.names (type, Vocabulary.rdfType) ∧
      ∀ limit,
        (replay journal).hop type Vocabulary.rdfType true limit =
          (replay journal).visit ((replay journal).inbound.names (type, Vocabulary.rdfType))
            limit ∧
        ((replay journal).hop type Vocabulary.rdfType true limit).map Entity.id =
          atMost limit ((replay journal).ofType type) := by
  have h := reachable_replay journal
  have hsame := h.ofType_eq_names_inbound type
  refine ⟨hsame, fun limit => ⟨?_, ?_⟩⟩
  · rw [hop_eq_visit, neighbours_rdfType, hsame]
  · rw [hop_eq_atMost, map_atMost, h.map_id_hop, neighbours_rdfType]

end Store

end EntityGraph
