import EntityGraph.Store.Basic

/-!
# Reachable stores

The stores that creating datasets, loading, putting and removing lead to from the empty store.
What they hold is known under the right identifiers, and the index of holders says where.

Results:
* `Reachable.of_writes`: an invariant is kept by loading if it is by creating and by putting.
* `record?_create`: creating a dataset changes nothing that is held.
* `Reachable.sound`: every reachable store is sound.
* `Sound.mem_records_iff`: the records found under an identifier are those that some dataset holds.
-/

namespace EntityGraph.Store

/-- The stores reached from the empty store. -/
inductive Reachable : Store → Prop
  | empty : Reachable empty
  | create {σ : Store} (h : Reachable σ) (dataset : String) : Reachable (σ.create dataset)
  | load {σ : Store} (h : Reachable σ) (dataset : String) (es : List Entity) :
      Reachable (σ.load dataset es)
  | put {σ : Store} (h : Reachable σ) (dataset : String) (e : Entity) : Reachable (σ.put dataset e)
  | remove {σ : Store} (h : Reachable σ) (dataset id : String) :
      Reachable (σ.remove dataset id).2

/-- What the empty store has, and creating, putting and removing keep, every reachable store has: a
load is made of these. -/
theorem Reachable.of_writes {P : Store → Prop} (hempty : P Store.empty)
    (hcreate : ∀ {σ : Store} (dataset : String), σ.Reachable → P σ → P (σ.create dataset))
    (hput : ∀ {σ : Store} (dataset : String) (e : Entity), σ.Reachable → P σ → P (σ.put dataset e))
    (hremove : ∀ {σ : Store} (dataset id : String),
      σ.Reachable → P σ → P (σ.remove dataset id).2) {σ : Store} (h : σ.Reachable) : P σ := by
  induction h with
  | empty => exact hempty
  | create h dataset ih => exact hcreate dataset h ih
  | load h dataset es ih =>
    have hfold : ∀ (es : List Entity) {σ : Store}, σ.Reachable → P σ →
        P (es.foldl (fun s e => s.put dataset e) σ) := by
      intro es
      induction es with
      | nil => exact fun _ hσ => hσ
      | cons e es ih => exact fun h hσ => ih (h.put dataset e) (hput dataset e h hσ)
    exact hfold es (h.create dataset) (hcreate dataset h ih)
  | put h dataset e ih => exact hput dataset e h ih
  | remove h dataset id ih => exact hremove dataset id h ih

/-- Records are held under their own identifiers, and the index of holders lists exactly the
datasets that hold a record. -/
structure Sound (σ : Store) : Prop where
  keyed : ∀ {d id : String} {e : Entity}, σ.record? d id = some e → e.id = id
  holders : ∀ {d id : String}, d ∈ σ.holders.names id ↔ (σ.record? d id).isSome = true

/-! ## Records found -/

theorem mem_records {σ : Store} {id : String} {r : Record} :
    r ∈ σ.records id ↔
      r.dataset ∈ σ.holders.names id ∧ σ.record? r.dataset id = some r.entity := by
  obtain ⟨d, e⟩ := r
  unfold records
  simp only [List.mem_filterMap, Option.map_eq_some_iff, Record.mk.injEq]
  constructor
  · rintro ⟨d', hd, e', he, rfl, rfl⟩
    exact ⟨hd, he⟩
  · rintro ⟨hd, he⟩
    exact ⟨d, hd, e, he, rfl, rfl⟩

theorem stored?_eq_none_iff {σ : Store} {id : String} :
    σ.stored? id = none ↔ σ.records id = [] := by
  unfold stored?
  cases σ.records id <;> simp

/-- A record found comes from a dataset of the store. -/
theorem dataset_mem_names {σ : Store} {id : String} {r : Record} (h : r ∈ σ.records id) :
    r.dataset ∈ σ.names := by
  have hrec := (mem_records.mp h).2
  unfold record? at hrec
  obtain ⟨held, hheld, -⟩ := Option.bind_eq_some_iff.mp hrec
  exact OrderedMap.mem_keys_iff.mpr ⟨held, hheld⟩

/-- **The records found under an identifier are those that some dataset holds.** -/
theorem Sound.mem_records_iff {σ : Store} (h : σ.Sound) {id : String} {r : Record} :
    r ∈ σ.records id ↔ σ.record? r.dataset id = some r.entity := by
  rw [mem_records, h.holders]
  refine and_iff_right_of_imp fun hrec => ?_
  rw [hrec]
  rfl

/-! ## The single operations -/

/-- Creating a dataset changes nothing that is held. -/
theorem record?_create (σ : Store) (dataset d i : String) :
    (σ.create dataset).record? d i = σ.record? d i := by
  unfold create record? OrderedMap.alter
  rw [OrderedMap.get?_insert]
  by_cases h : dataset = d
  · subst h
    cases σ.datasets.get? dataset <;> simp
  · rw [if_neg h]

theorem mem_holders_foldl_listRecord (rs : List Record) (σ : Store) (d i : String) :
    d ∈ (rs.foldl (fun s r => s.listRecord r.dataset r.entity) σ).holders.names i ↔
      d ∈ σ.holders.names i ∨ ∃ r ∈ rs, d = r.dataset ∧ i = r.entity.id := by
  induction rs generalizing σ with
  | nil => simp
  | cons r rs ih =>
    have hr : d ∈ (σ.listRecord r.dataset r.entity).holders.names i ↔
        (i = r.entity.id ∧ d = r.dataset) ∨ d ∈ σ.holders.names i := Index.mem_names_add
    rw [List.foldl_cons, ih, hr]
    simp only [List.mem_cons, exists_eq_or_imp]
    rw [and_comm (a := i = r.entity.id), or_comm (a := d = r.dataset ∧ i = r.entity.id), or_assoc]

theorem sound_empty : empty.Sound where
  keyed h := by cases h
  holders := by
    intro d id
    simp [empty, record?]

theorem Sound.create {σ : Store} (h : σ.Sound) (dataset : String) : (σ.create dataset).Sound where
  keyed hrec := h.keyed (by rwa [record?_create] at hrec)
  holders := by
    intro d id
    rw [record?_create]
    exact h.holders

/-- Taking a record out of the indexes drops its dataset from the holders and nothing else. What is
listed again for the identifier was listed before. -/
theorem Sound.mem_holders_discard {σ : Store} (h : σ.Sound) {dataset id : String} {e : Entity}
    (hrec : σ.record? dataset id = some e) {d i : String} :
    d ∈ (σ.discard dataset id e).holders.names i ↔
      d ∈ σ.holders.names i ∧ ¬ (d = dataset ∧ i = id) := by
  let τ := ({ σ with
    datasets := σ.datasets.alter dataset fun held =>
      (held.getD ∅).erase id }).unlistRecord dataset e
  have hdrop : ∀ {d i : String}, d ∈ τ.holders.names i ↔
      d ∈ σ.holders.names i ∧ ¬ (i = e.id ∧ d = dataset) := Index.mem_names_drop
  have hheld : ∀ d i, τ.record? d i = (σ.remove dataset id).2.record? d i := by
    intro d i
    unfold Store.remove
    rw [hrec]
    unfold record?
    simp only [discard, datasets_foldl_listRecord]
    rfl
  have hagain : ∀ r ∈ τ.records id, r.dataset ∈ τ.holders.names r.entity.id := by
    intro r hr
    obtain ⟨hd, hr⟩ := mem_records.mp hr
    rw [hheld, record?_remove] at hr
    split at hr
    · cases hr
    · rw [h.keyed hr]
      exact hd
  have hfold : d ∈ (σ.discard dataset id e).holders.names i ↔ d ∈ τ.holders.names i := by
    unfold discard
    rw [mem_holders_foldl_listRecord]
    refine or_iff_left_of_imp ?_
    rintro ⟨r, hr, rfl, rfl⟩
    exact hagain r hr
  rw [hfold, hdrop, h.keyed hrec, and_comm (a := i = id)]

theorem Sound.remove {σ : Store} (h : σ.Sound) (dataset id : String) :
    (σ.remove dataset id).2.Sound where
  keyed := by
    intro d i e hrec
    rw [record?_remove] at hrec
    split at hrec
    · cases hrec
    · exact h.keyed hrec
  holders := by
    intro d i
    rw [record?_remove]
    unfold Store.remove
    cases hrec : σ.record? dataset id with
    | none =>
      rw [h.holders]
      split
      · rename_i hk
        rw [hk.1, hk.2, hrec]
      · rfl
    | some e =>
      show d ∈ (σ.discard dataset id e).holders.names i ↔ _
      rw [h.mem_holders_discard hrec, h.holders]
      by_cases hk : d = dataset ∧ i = id
      · simp [hk.1, hk.2]
      · rw [if_neg hk]
        exact and_iff_left hk

theorem Sound.put {σ : Store} (h : σ.Sound) (dataset : String) (e : Entity) :
    (σ.put dataset e).Sound where
  keyed := by
    intro d i e' hrec
    rw [record?_put] at hrec
    split at hrec
    · rename_i hk
      split at hrec
      · cases hrec
      · obtain rfl := Option.some.inj hrec
        exact hk.2.symm
    · exact h.keyed hrec
  holders := by
    intro d i
    have hremove : d ∈ (σ.remove dataset e.id).2.holders.names i ↔ _ :=
      (h.remove dataset e.id).holders
    rw [record?_remove] at hremove
    rw [record?_put]
    unfold Store.put
    by_cases hdel : e.deleted = true
    · rw [if_pos hdel, if_pos hdel]
      exact hremove
    · rw [if_neg hdel, if_neg hdel]
      have hlist : d ∈ ((σ.remove dataset e.id).2.listRecord dataset e).holders.names i ↔
          (i = e.id ∧ d = dataset) ∨ d ∈ (σ.remove dataset e.id).2.holders.names i :=
        Index.mem_names_add
      refine hlist.trans ?_
      rw [hremove]
      by_cases hk : d = dataset ∧ i = e.id
      · simp [hk.1, hk.2]
      · rw [if_neg hk, if_neg hk]
        exact or_iff_right fun hk' => hk ⟨hk'.2, hk'.1⟩

theorem Sound.load {σ : Store} (h : σ.Sound) (dataset : String) (es : List Entity) :
    (σ.load dataset es).Sound := by
  have hfold : ∀ (es : List Entity) {σ : Store}, σ.Sound →
      (es.foldl (fun s e => s.put dataset e) σ).Sound := by
    intro es
    induction es with
    | nil => exact fun h => h
    | cons e es ih => exact fun h => ih (h.put dataset e)
  exact hfold es (h.create dataset)

/-- **Every reachable store is sound.** -/
theorem Reachable.sound {σ : Store} (h : Reachable σ) : σ.Sound := by
  induction h with
  | empty => exact sound_empty
  | create _ dataset ih => exact ih.create dataset
  | load _ dataset es ih => exact ih.load dataset es
  | put _ dataset e ih => exact ih.put dataset e
  | remove _ dataset id ih => exact ih.remove dataset id

end EntityGraph.Store
