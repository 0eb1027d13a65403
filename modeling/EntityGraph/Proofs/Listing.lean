import EntityGraph.Proofs.Journal

/-!
# What the indexes list

Four indexes are kept over the records of a store. What a record contributes to one of them is an
aspect of the record, and an index lists exactly the entries of the records that are held. Taking a
record out drops all its entries, those it shares with other records too; but an entry tells the
identifier of its record, so that only records of the same identifier can have lost one, and these
are listed again.

Results:
* `mem_records_withdrawn`: the records listed again are the other ones of the identifier.
* `Reachable.lists`: every index of a reachable store lists what the records held contribute.
* `Reachable.indexed`, `replay_indexed`: the indexes describe exactly the records held, in every
  reachable store and so after any journal.
-/

namespace EntityGraph

namespace Index

variable {κ : Type} [DecidableEq κ]

/-- Lists pairs of a key and a name one after another. -/
def addAll (idx : Index κ) (l : List (κ × String)) : Index κ :=
  l.foldl (fun idx x => idx.add x.1 x.2) idx

/-- Takes pairs of a key and a name out one after another. -/
def dropAll (idx : Index κ) (l : List (κ × String)) : Index κ :=
  l.foldl (fun idx x => idx.drop x.1 x.2) idx

theorem mem_names_addAll {idx : Index κ} {l : List (κ × String)} {k : κ} {n : String} :
    n ∈ (idx.addAll l).names k ↔ (k, n) ∈ l ∨ n ∈ idx.names k := by
  induction l generalizing idx with
  | nil => simp [addAll]
  | cons x l ih =>
    rw [addAll, List.foldl_cons, ← addAll, ih, mem_names_add, List.mem_cons, Prod.ext_iff,
      or_left_comm, or_assoc]

theorem mem_names_dropAll {idx : Index κ} {l : List (κ × String)} {k : κ} {n : String} :
    n ∈ (idx.dropAll l).names k ↔ n ∈ idx.names k ∧ (k, n) ∉ l := by
  induction l generalizing idx with
  | nil => simp [dropAll]
  | cons x l ih =>
    rw [dropAll, List.foldl_cons, ← dropAll, ih, mem_names_drop, List.mem_cons, Prod.ext_iff,
      not_or, and_assoc]

/-- No key keeps an empty list. -/
def Tight (idx : Index κ) : Prop :=
  ∀ k set, idx.table.get? k = some set → set.toList ≠ []

theorem tight_empty : (∅ : Index κ).Tight := fun _ _ h => nomatch h

theorem Tight.add {idx : Index κ} (h : idx.Tight) (k : κ) (name : String) :
    (idx.add k name).Tight := by
  intro j set hset
  unfold Index.add at hset
  rw [OrderedMap.get?_insert] at hset
  split at hset
  · obtain rfl := Option.some.inj hset
    exact List.ne_nil_of_mem (OrderedSet.mem_toList_insert.mpr (Or.inl rfl))
  · exact h j set hset

theorem Tight.drop {idx : Index κ} (h : idx.Tight) (k : κ) (name : String) :
    (idx.drop k name).Tight := by
  intro j set hset
  unfold Index.drop at hset
  split at hset
  · exact h j set hset
  · rename_i old _
    simp only at hset
    split at hset
    · rw [OrderedMap.get?_erase] at hset
      split at hset
      · cases hset
      · exact h j set hset
    · rename_i hkept
      rw [OrderedMap.get?_insert] at hset
      split at hset
      · obtain rfl := Option.some.inj hset
        exact fun hnil => hkept (List.isEmpty_iff.mpr hnil)
      · exact h j set hset

theorem Tight.addAll {idx : Index κ} (h : idx.Tight) (l : List (κ × String)) :
    (idx.addAll l).Tight := by
  induction l generalizing idx with
  | nil => exact h
  | cons x l ih => exact ih (h.add x.1 x.2)

theorem Tight.dropAll {idx : Index κ} (h : idx.Tight) (l : List (κ × String)) :
    (idx.dropAll l).Tight := by
  induction l generalizing idx with
  | nil => exact h
  | cons x l ih => exact ih (h.drop x.1 x.2)

end Index

namespace Store

/-- The edges of an entity are its references with their targets. -/
theorem mem_edges {e : Entity} {p t : String} : (p, t) ∈ edges e ↔ t ∈ e.referenceValues p := by
  unfold edges Entity.referenceValues Entity.reference?
  simp only [List.mem_flatMap, List.mem_map, Prod.mk.injEq]
  constructor
  · rintro ⟨⟨p', slot⟩, hslot, t', ht, rfl, rfl⟩
    rw [OrderedMap.mem_toList_iff.mp hslot]
    exact ht
  · intro h
    cases hslot : e.references.get? p with
    | none => simp [hslot] at h
    | some slot =>
      rw [hslot] at h
      exact ⟨(p, slot), OrderedMap.mem_toList_iff.mpr hslot, t, h, rfl, rfl⟩

/-- A record stands in its dataset under its own identifier. -/
def Holds (σ : Store) (r : Record) : Prop := σ.record? r.dataset r.entity.id = some r.entity

/-! ## Aspects -/

/-- What records contribute to an index of the store. Every entry tells the identifier of the
record that it comes from. -/
structure Aspect (κ : Type) [DecidableEq κ] where
  index : Store → Index κ
  entries : Record → List (κ × String)
  subject : κ × String → String
  subject_of_mem : ∀ {r x}, x ∈ entries r → subject x = r.entity.id
  index_empty : index empty = ∅
  index_datasets : ∀ σ datasets, index { σ with datasets } = index σ
  index_listRecord : ∀ σ d e, index (σ.listRecord d e) = (index σ).addAll (entries ⟨d, e⟩)
  index_unlistRecord : ∀ σ d e, index (σ.unlistRecord d e) = (index σ).dropAll (entries ⟨d, e⟩)

namespace Aspect

/-- The dataset of a record under its identifier. -/
def holders : Aspect String where
  index := Store.holders
  entries r := [(r.entity.id, r.dataset)]
  subject x := x.1
  subject_of_mem h := by rw [List.mem_singleton.mp h]
  index_empty := rfl
  index_datasets _ _ := rfl
  index_listRecord _ _ _ := rfl
  index_unlistRecord _ _ _ := rfl

/-- The identifier of a record under its types. -/
def types : Aspect String where
  index := byType
  entries r := r.entity.types.map fun type => (type, r.entity.id)
  subject x := x.2
  subject_of_mem h := by
    obtain ⟨type, -, rfl⟩ := List.mem_map.mp h
    rfl
  index_empty := rfl
  index_datasets _ _ := rfl
  index_listRecord _ _ _ := by rw [Index.addAll, List.foldl_map]; rfl
  index_unlistRecord _ _ _ := by rw [Index.dropAll, List.foldl_map]; rfl

/-- The targets of a record under its identifier and their predicate. -/
def outbound : Aspect (String × String) where
  index := Store.outbound
  entries r := (edges r.entity).map fun edge => ((r.entity.id, edge.1), edge.2)
  subject x := x.1.1
  subject_of_mem h := by
    obtain ⟨edge, -, rfl⟩ := List.mem_map.mp h
    rfl
  index_empty := rfl
  index_datasets _ _ := rfl
  index_listRecord _ _ _ := by rw [Index.addAll, List.foldl_map]; rfl
  index_unlistRecord _ _ _ := by rw [Index.dropAll, List.foldl_map]; rfl

/-- The identifier of a record under its targets and their predicate. -/
def inbound : Aspect (String × String) where
  index := Store.inbound
  entries r := (edges r.entity).map fun edge => ((edge.2, edge.1), r.entity.id)
  subject x := x.2
  subject_of_mem h := by
    obtain ⟨edge, -, rfl⟩ := List.mem_map.mp h
    rfl
  index_empty := rfl
  index_datasets _ _ := rfl
  index_listRecord _ _ _ := by rw [Index.addAll, List.foldl_map]; rfl
  index_unlistRecord _ _ _ := by rw [Index.dropAll, List.foldl_map]; rfl

variable {κ : Type} [DecidableEq κ] (a : Aspect κ)

theorem mem_names_foldl_listRecord {rs : List Record} {σ : Store} {k : κ} {n : String} :
    n ∈ (a.index (rs.foldl (fun s r => s.listRecord r.dataset r.entity) σ)).names k ↔
      (∃ r ∈ rs, (k, n) ∈ a.entries r) ∨ n ∈ (a.index σ).names k := by
  induction rs generalizing σ with
  | nil => simp
  | cons r rs ih =>
    rw [List.foldl_cons, ih, a.index_listRecord, Index.mem_names_addAll]
    simp only [List.mem_cons, exists_eq_or_imp, or_left_comm, or_assoc]

theorem tight_foldl_listRecord {rs : List Record} {σ : Store} (h : (a.index σ).Tight) :
    (a.index (rs.foldl (fun s r => s.listRecord r.dataset r.entity) σ)).Tight := by
  induction rs generalizing σ with
  | nil => exact h
  | cons r rs ih =>
    refine ih ?_
    rw [a.index_listRecord]
    exact h.addAll _

/-- The index of an aspect lists exactly what the records held contribute. -/
structure Lists (σ : Store) : Prop where
  tight : (a.index σ).Tight
  mem_iff : ∀ k n, n ∈ (a.index σ).names k ↔ ∃ r, σ.Holds r ∧ (k, n) ∈ a.entries r

end Aspect

/-! ## Taking a record out -/

/-- The store with the record `e` taken out and its entries dropped, before any record of the same
identifier is listed again. -/
def withdrawn (σ : Store) (dataset id : String) (e : Entity) : Store :=
  ({ σ with datasets := σ.datasets.alter dataset fun held =>
    (held.getD ∅).erase id } : Store).unlistRecord dataset e

theorem discard_eq (σ : Store) (dataset id : String) (e : Entity) :
    σ.discard dataset id e = ((σ.withdrawn dataset id e).records id).foldl
      (fun s r => s.listRecord r.dataset r.entity) (σ.withdrawn dataset id e) := rfl

theorem remove_of_some {σ : Store} {dataset id : String} {e : Entity}
    (h : σ.record? dataset id = some e) : (σ.remove dataset id).2 = σ.discard dataset id e := by
  unfold Store.remove
  rw [h]

theorem remove_of_none {σ : Store} {dataset id : String} (h : σ.record? dataset id = none) :
    (σ.remove dataset id).2 = σ := by
  unfold Store.remove
  rw [h]

theorem record?_withdrawn {σ : Store} {dataset id : String} {e : Entity}
    (h : σ.record? dataset id = some e) (d i : String) :
    (σ.withdrawn dataset id e).record? d i =
      if d = dataset ∧ i = id then none else σ.record? d i := by
  rw [← record?_remove, remove_of_some h]
  unfold record?
  rw [discard_eq, datasets_foldl_listRecord]

/-- **The records listed again are those of the same identifier in other datasets.** -/
theorem mem_records_withdrawn {σ : Store} (hσ : σ.Sound) {dataset id : String} {e : Entity}
    (h : σ.record? dataset id = some e) {r : Record} :
    r ∈ (σ.withdrawn dataset id e).records id ↔
      σ.Holds r ∧ r.entity.id = id ∧ r.dataset ≠ dataset := by
  have hholders : r.dataset ∈ (σ.withdrawn dataset id e).holders.names id ↔
      r.dataset ∈ σ.holders.names id ∧ ¬ (id = e.id ∧ r.dataset = dataset) := Index.mem_names_drop
  rw [mem_records, record?_withdrawn h, hholders, hσ.holders]
  unfold Holds
  constructor
  · rintro ⟨⟨-, hne⟩, hrec⟩
    split at hrec
    · cases hrec
    · have hid := hσ.keyed hrec
      exact ⟨by rw [hid]; exact hrec, hid, fun hd => hne ⟨(hσ.keyed h).symm, hd⟩⟩
  · rintro ⟨hrec, rfl, hne⟩
    rw [if_neg fun hk => hne hk.1, hrec]
    exact ⟨⟨rfl, fun hk => hne hk.2⟩, rfl⟩

theorem holds_remove_iff {σ : Store} {dataset id : String} {r : Record} :
    (σ.remove dataset id).2.Holds r ↔ σ.Holds r ∧ ¬ (r.dataset = dataset ∧ r.entity.id = id) := by
  unfold Holds
  rw [record?_remove]
  split <;> simp_all

theorem holds_put_iff {σ : Store} {dataset : String} {e : Entity} {r : Record} :
    (σ.put dataset e).Holds r ↔
      r = ⟨dataset, e⟩ ∧ e.deleted = false ∨ (σ.remove dataset e.id).2.Holds r := by
  rw [holds_remove_iff]
  unfold Holds
  rw [record?_put]
  obtain ⟨d, e'⟩ := r
  by_cases hk : d = dataset ∧ e'.id = e.id
  · cases hdel : e.deleted <;> simp [hk, eq_comm]
  · have hne : ¬ (⟨d, e'⟩ : Record) = ⟨dataset, e⟩ := fun heq => by
      cases heq
      exact hk ⟨rfl, rfl⟩
    simp [hk, hne]

/-! ## The single operations -/

theorem put_of_deleted {σ : Store} {dataset : String} {e : Entity} (h : e.deleted = true) :
    σ.put dataset e = (σ.remove dataset e.id).2 := by
  unfold Store.put
  rw [h]
  rfl

section

variable {κ : Type} [DecidableEq κ] (a : Aspect κ)

/-- Taking a record out drops its entries. -/
theorem Aspect.index_withdrawn (σ : Store) (dataset id : String) (e : Entity) :
    a.index (σ.withdrawn dataset id e) = (a.index σ).dropAll (a.entries ⟨dataset, e⟩) := by
  unfold withdrawn
  rw [a.index_unlistRecord, a.index_datasets]

/-- A put lists the entries of its record after the old record was removed. -/
theorem Aspect.index_put (σ : Store) (dataset : String) {e : Entity} (h : e.deleted = false) :
    a.index (σ.put dataset e) =
      (a.index (σ.remove dataset e.id).2).addAll (a.entries ⟨dataset, e⟩) := by
  unfold Store.put
  rw [h]
  simp only [Bool.false_eq_true, if_false]
  rw [a.index_datasets, a.index_listRecord]

end

namespace Aspect.Lists

variable {κ : Type} [DecidableEq κ] {a : Aspect κ} {σ : Store}

theorem congr {σ' : Store} (h : a.Lists σ) (hindex : a.index σ' = a.index σ)
    (hholds : ∀ r, σ'.Holds r ↔ σ.Holds r) : a.Lists σ' where
  tight := by rw [hindex]; exact h.tight
  mem_iff k n := by simp only [hindex, h.mem_iff, hholds]

/-- What a record taken out shares with records of its identifier is listed again, and no other
record can have lost an entry. -/
theorem remove (h : a.Lists σ) (hσ : σ.Sound) (dataset id : String) :
    a.Lists (σ.remove dataset id).2 := by
  cases hrec : σ.record? dataset id with
  | none => rwa [remove_of_none hrec]
  | some e =>
    have hid : e.id = id := hσ.keyed hrec
    constructor
    · rw [remove_of_some hrec, discard_eq]
      refine a.tight_foldl_listRecord ?_
      rw [a.index_withdrawn]
      exact h.tight.dropAll _
    · intro k n
      simp only [holds_remove_iff]
      rw [remove_of_some hrec, discard_eq, a.mem_names_foldl_listRecord, a.index_withdrawn,
        Index.mem_names_dropAll, h.mem_iff]
      simp only [mem_records_withdrawn hσ hrec]
      constructor
      · rintro (⟨r, ⟨hr, -, hne⟩, hentry⟩ | ⟨⟨r, hr, hentry⟩, hdropped⟩)
        · exact ⟨r, ⟨hr, fun hk => hne hk.1⟩, hentry⟩
        · refine ⟨r, ⟨hr, fun hk => hdropped ?_⟩, hentry⟩
          have heq : r = ⟨dataset, e⟩ := by
            unfold Holds at hr
            rw [hk.1, hk.2, hrec] at hr
            rw [← hk.1, Option.some.inj hr]
          exact heq ▸ hentry
      · rintro ⟨r, ⟨hr, hne⟩, hentry⟩
        by_cases hsame : r.entity.id = id
        · exact Or.inl ⟨r, ⟨hr, hsame, fun hd => hne ⟨hd, hsame⟩⟩, hentry⟩
        · refine Or.inr ⟨⟨r, hr, hentry⟩, fun hdropped => hsame ?_⟩
          rw [← a.subject_of_mem hentry, a.subject_of_mem hdropped, hid]

theorem put (h : a.Lists σ) (hσ : σ.Sound) (dataset : String) (e : Entity) :
    a.Lists (σ.put dataset e) := by
  have hremoved := h.remove hσ dataset e.id
  cases hdel : e.deleted with
  | true =>
    refine hremoved.congr ?_ fun r => ?_
    · rw [put_of_deleted hdel]
    · rw [holds_put_iff, hdel]
      simp
  | false =>
    have hindex := a.index_put σ dataset hdel
    constructor
    · rw [hindex]
      exact hremoved.tight.addAll _
    · intro k n
      simp only [hindex, Index.mem_names_addAll, hremoved.mem_iff, holds_put_iff, hdel, and_true,
        or_and_right, exists_or, exists_eq_left]

end Aspect.Lists

/-! ## Reachable stores -/

theorem not_holds_empty (r : Record) : ¬ empty.Holds r := fun h => nomatch h

theorem holds_create_iff {σ : Store} {dataset : String} {r : Record} :
    (σ.create dataset).Holds r ↔ σ.Holds r := by
  unfold Holds
  rw [record?_create]

/-- **Every index of a reachable store lists exactly what the records held contribute.** -/
theorem Reachable.lists {κ : Type} [DecidableEq κ] (a : Aspect κ) {σ : Store} (h : σ.Reachable) :
    a.Lists σ := by
  refine h.of_writes ?_ (fun dataset _ ih => ?_) (fun dataset e h ih => ih.put h.sound dataset e)
    fun dataset id h ih => ih.remove h.sound dataset id
  · constructor
    · rw [a.index_empty]
      exact Index.tight_empty
    · intro k n
      rw [a.index_empty]
      simp [not_holds_empty]
  · exact ih.congr (a.index_datasets _ _) fun r => holds_create_iff

/-- No record of a reachable store is marked as deleted. -/
theorem Reachable.not_deleted {σ : Store} (h : σ.Reachable) :
    ∀ r, σ.Holds r → r.entity.deleted = false := by
  refine of_writes (P := fun σ => ∀ r, σ.Holds r → r.entity.deleted = false)
    (fun r hr => absurd hr (not_holds_empty r))
    (fun dataset _ ih r hr => ih r (holds_create_iff.mp hr))
    (fun dataset e _ ih r hr => ?_) (fun dataset id _ ih r hr => ih r (holds_remove_iff.mp hr).1) h
  rcases holds_put_iff.mp hr with ⟨rfl, hdel⟩ | hr
  · exact hdel
  · exact ih r (holds_remove_iff.mp hr).1

/-- The indexes describe exactly the records that the datasets hold, and these are stored under
their own identifiers and not marked as deleted. -/
structure Indexed (σ : Store) : Prop where
  byType : ∀ type id, id ∈ σ.byType.names type ↔
    ∃ d e, σ.record? d id = some e ∧ type ∈ e.types
  outbound : ∀ source predicate target, target ∈ σ.outbound.names (source, predicate) ↔
    ∃ d e, σ.record? d source = some e ∧ target ∈ e.referenceValues predicate
  inbound : ∀ source predicate target, source ∈ σ.inbound.names (target, predicate) ↔
    ∃ d e, σ.record? d source = some e ∧ target ∈ e.referenceValues predicate
  holders : ∀ d id, d ∈ σ.holders.names id ↔ ∃ e, σ.record? d id = some e
  tight : σ.byType.Tight ∧ σ.outbound.Tight ∧ σ.inbound.Tight ∧ σ.holders.Tight
  keyed : ∀ d id e, σ.record? d id = some e → e.id = id ∧ e.deleted = false

theorem Sound.exists_holds_iff {σ : Store} (hσ : σ.Sound) {id : String} {P : Entity → Prop} :
    (∃ r, σ.Holds r ∧ r.entity.id = id ∧ P r.entity) ↔ ∃ d e, σ.record? d id = some e ∧ P e := by
  constructor
  · rintro ⟨r, hr, rfl, hP⟩
    exact ⟨r.dataset, r.entity, hr, hP⟩
  · rintro ⟨d, e, hrec, hP⟩
    refine ⟨⟨d, e⟩, ?_, hσ.keyed hrec, hP⟩
    unfold Holds
    rw [hσ.keyed hrec]
    exact hrec

/-- **The indexes of a reachable store describe exactly the records held.** -/
theorem Reachable.indexed {σ : Store} (h : σ.Reachable) : σ.Indexed := by
  have hσ := h.sound
  refine ⟨fun type id => ?_, fun source predicate target => ?_, fun source predicate target => ?_,
    fun d id => ?_, ⟨(h.lists .types).tight, (h.lists .outbound).tight, (h.lists .inbound).tight,
      (h.lists .holders).tight⟩, fun d id e hrec => ?_⟩
  · rw [← hσ.exists_holds_iff (P := fun e => type ∈ e.types)]
    refine ((h.lists .types).mem_iff type id).trans
      (exists_congr fun r => and_congr_right fun _ => ?_)
    simp [Aspect.types, and_comm]
  · rw [← hσ.exists_holds_iff (P := fun e => target ∈ e.referenceValues predicate)]
    refine ((h.lists .outbound).mem_iff (source, predicate) target).trans
      (exists_congr fun r => and_congr_right fun _ => ?_)
    simp only [Aspect.outbound, List.mem_map, Prod.ext_iff, ← mem_edges]
    constructor
    · rintro ⟨⟨p, t⟩, hedge, ⟨hsource, rfl⟩, rfl⟩
      exact ⟨hsource, hedge⟩
    · rintro ⟨hsource, hedge⟩
      exact ⟨(predicate, target), hedge, ⟨hsource, rfl⟩, rfl⟩
  · rw [← hσ.exists_holds_iff (P := fun e => target ∈ e.referenceValues predicate)]
    refine ((h.lists .inbound).mem_iff (target, predicate) source).trans
      (exists_congr fun r => and_congr_right fun _ => ?_)
    simp only [Aspect.inbound, List.mem_map, Prod.ext_iff, ← mem_edges]
    constructor
    · rintro ⟨⟨p, t⟩, hedge, ⟨rfl, rfl⟩, hsource⟩
      exact ⟨hsource, hedge⟩
    · rintro ⟨hsource, hedge⟩
      exact ⟨(predicate, target), hedge, ⟨rfl, rfl⟩, hsource⟩
  · rw [hσ.holders, Option.isSome_iff_exists]
  · have hid := hσ.keyed hrec
    refine ⟨hid, h.not_deleted ⟨d, e⟩ ?_⟩
    unfold Holds
    rw [hid]
    exact hrec

/-- **The indexes describe exactly the records held**, after any journal of operations. -/
theorem replay_indexed (journal : List Operation) : (replay journal).Indexed :=
  (reachable_replay journal).indexed

end Store

end EntityGraph
