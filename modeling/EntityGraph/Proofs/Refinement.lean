import EntityGraph.Proofs.Listing
import Mathlib.Data.List.Basic

/-!
# Stores and their journals

The datasets of a store, and the datasets listed for an identifier, are two orders on the same
records. Both are the order of the last writes: a put takes the old record out before it adds the
new one at the end, and what is listed again on the way is listed already and keeps its place.

Results:
* `names_add`, `names_drop`: the list of a key, in order, after the two operations of an index.
* `Reflects.remove`, `Reflects.put`: what a write does to the records that a store reflects.
* `reflects_replay`: a store reflects the live records of its journal.
* `replay_refines`: what a store answers is what its journal says.
-/

namespace EntityGraph

namespace OrderedMap

variable {κ ν : Type} [DecidableEq κ]

theorem toList_erase (m : OrderedMap κ ν) (k : κ) :
    (m.erase k).toList = m.toList.filter fun e => e.1 ≠ k := rfl

/-- Of maps inserted one after another the last with a value at a key decides. -/
theorem get?_ofList_flatMap {α : Type} (f : α → OrderedMap κ ν) (l : List α) (k : κ) :
    (ofList (l.flatMap fun a => (f a).toList)).get? k =
      l.reverse.findSome? fun a => (f a).get? k := by
  induction l with
  | nil => rfl
  | cons a l ih =>
    rw [List.flatMap_cons, get?_ofList_append, ih, get?_ofList_toList, List.reverse_cons,
      List.findSome?_append]
    simp

end OrderedMap

namespace Index

variable {κ : Type} [DecidableEq κ]

/-- The list of a key after a listing: a new name stands at the end. -/
theorem names_add (idx : Index κ) (k j : κ) (name : String) :
    (idx.add k name).names j =
      if j = k ∧ name ∉ idx.names k then idx.names k ++ [name] else idx.names j := by
  unfold names add
  rw [OrderedMap.get?_insert]
  by_cases h : j = k
  · subst h
    cases idx.table.get? j with
    | none => simp [OrderedSet.insert]
    | some set =>
      by_cases hn : name ∈ set.toList <;> simp [OrderedSet.insert, hn]
  · rw [if_neg (Ne.symm h), if_neg fun hk => h hk.1]

/-- Listing a name again changes nothing. -/
theorem names_add_of_mem {idx : Index κ} {k : κ} {name : String} (h : name ∈ idx.names k) (j : κ) :
    (idx.add k name).names j = idx.names j := by
  rw [names_add, if_neg fun hn => hn.2 h]

/-- The list of a key after a removal: the other names keep their order. -/
theorem names_drop (idx : Index κ) (k j : κ) (name : String) :
    (idx.drop k name).names j =
      if j = k then (idx.names k).filter (· ≠ name) else idx.names j := by
  unfold names drop
  cases hset : idx.table.get? k with
  | none =>
    by_cases h : j = k
    · rw [if_pos h, h, hset]
      rfl
    · rw [if_neg h]
  | some set =>
    simp only [Option.elim_some]
    by_cases h : j = k
    · subst h
      rw [if_pos rfl]
      by_cases hempty : (set.erase name).isEmpty = true
      · rw [if_pos hempty, OrderedMap.get?_erase, if_pos rfl]
        exact (List.isEmpty_iff.mp hempty).symm
      · rw [if_neg hempty, OrderedMap.get?_insert, if_pos rfl]
        rfl
    · rw [if_neg h]
      split
      · rw [OrderedMap.get?_erase, if_neg (Ne.symm h)]
      · rw [OrderedMap.get?_insert, if_neg (Ne.symm h)]

end Index

namespace Store

/-! ## Taking a record out -/

theorem datasets_remove {σ : Store} {dataset id : String} {e : Entity}
    (h : σ.record? dataset id = some e) :
    (σ.remove dataset id).2.datasets =
      σ.datasets.alter dataset fun held => (held.getD ∅).erase id := by
  rw [remove_of_some h, discard_eq, datasets_foldl_listRecord]
  rfl

/-- Listing records again whose datasets are listed moves no holder. -/
theorem names_holders_foldl_listRecord {rs : List Record} {σ : Store}
    (h : ∀ r ∈ rs, r.dataset ∈ σ.holders.names r.entity.id) (i : String) :
    (rs.foldl (fun s r => s.listRecord r.dataset r.entity) σ).holders.names i =
      σ.holders.names i := by
  induction rs generalizing σ with
  | nil => rfl
  | cons r rs ih =>
    have hsame : ∀ j, (σ.listRecord r.dataset r.entity).holders.names j = σ.holders.names j :=
      Index.names_add_of_mem (h r List.mem_cons_self)
    rw [List.foldl_cons, ih fun r' hr' => ?_, hsame]
    rw [hsame]
    exact h r' (List.mem_cons_of_mem r hr')

/-- The holders after a removal: the dataset is taken out, and the others keep their order. -/
theorem names_holders_remove {σ : Store} (hσ : σ.Sound) {dataset id : String} {e : Entity}
    (h : σ.record? dataset id = some e) (i : String) :
    (σ.remove dataset id).2.holders.names i =
      if i = id then (σ.holders.names id).filter (· ≠ dataset) else σ.holders.names i := by
  have hdrop : ∀ j, (σ.withdrawn dataset id e).holders.names j =
      if j = id then (σ.holders.names id).filter (· ≠ dataset) else σ.holders.names j := by
    intro j
    show (σ.holders.drop e.id dataset).names j = _
    rw [Index.names_drop, hσ.keyed h]
  rw [remove_of_some h, discard_eq, names_holders_foldl_listRecord fun r hr => ?_, hdrop]
  have hid := ((mem_records_withdrawn hσ h).mp hr).2.1
  rw [hid]
  exact (mem_records.mp hr).1

/-! ## Reflected records -/

/-- The store shows records in their order: each known dataset holds its own, and each identifier
has their datasets as holders. -/
structure Reflects (σ : Store) (known : String → Prop) (rs : List Record) : Prop where
  dataset : ∀ {d}, known d → ∃ held, σ.datasets.get? d = some held ∧
    held.toList = (rs.filter fun r => r.dataset = d).map fun r => (r.entity.id, r.entity)
  unknown : ∀ {d}, ¬ known d → σ.datasets.get? d = none
  within : ∀ r ∈ rs, known r.dataset
  holders : ∀ id, σ.holders.names id = (rs.filter fun r => r.entity.id = id).map Record.dataset

namespace Reflects

variable {σ : Store} {known : String → Prop} {rs : List Record}

/-- What is found at a place is the record reflected there. -/
theorem record?_eq_some_iff (h : σ.Reflects known rs) {d id : String} {e : Entity} :
    σ.record? d id = some e ↔ (⟨d, e⟩ : Record) ∈ rs ∧ e.id = id := by
  unfold record?
  by_cases hd : known d
  · obtain ⟨held, hget, hlist⟩ := h.dataset hd
    rw [hget, Option.bind_some, ← OrderedMap.mem_toList_iff, hlist, List.mem_map]
    constructor
    · rintro ⟨r, hmem, heq⟩
      obtain ⟨hr, hd'⟩ := List.mem_filter.mp hmem
      obtain ⟨hid, he⟩ := Prod.mk.inj heq
      rw [← of_decide_eq_true hd', ← he]
      exact ⟨hr, hid⟩
    · rintro ⟨hr, rfl⟩
      exact ⟨⟨d, e⟩, List.mem_filter.mpr ⟨hr, decide_eq_true rfl⟩, rfl⟩
  · rw [h.unknown hd]
    constructor
    · exact fun h => nomatch h
    · exact fun hr => absurd (h.within _ hr.1) hd

/-- An unknown dataset has no records. -/
theorem filter_of_unknown (h : σ.Reflects known rs) {d : String} (hd : ¬ known d) :
    (rs.filter fun r => r.dataset = d) = [] := by
  rw [List.filter_eq_nil_iff]
  exact fun r hr heq => hd (of_decide_eq_true heq ▸ h.within r hr)

/-- The table of a dataset holds what is reflected there, and that of an unknown one nothing. -/
theorem toList_getD (h : σ.Reflects known rs) (d : String) :
    ((σ.datasets.get? d).getD ∅).toList =
      (rs.filter fun r => r.dataset = d).map fun r => (r.entity.id, r.entity) := by
  by_cases hk : known d
  · obtain ⟨held, hget, hlist⟩ := h.dataset hk
    rw [hget]
    exact hlist
  · rw [h.unknown hk, h.filter_of_unknown hk]
    rfl

theorem sound (h : σ.Reflects known rs) : σ.Sound where
  keyed hrec := (h.record?_eq_some_iff.mp hrec).2
  holders := by
    intro d id
    rw [h.holders, Option.isSome_iff_exists, List.mem_map]
    constructor
    · rintro ⟨r, hr, rfl⟩
      obtain ⟨hr, hid⟩ := List.mem_filter.mp hr
      exact ⟨r.entity, h.record?_eq_some_iff.mpr ⟨hr, of_decide_eq_true hid⟩⟩
    · rintro ⟨e, he⟩
      obtain ⟨hr, hid⟩ := h.record?_eq_some_iff.mp he
      exact ⟨⟨d, e⟩, List.mem_filter.mpr ⟨hr, decide_eq_true hid⟩, rfl⟩

/-- The records of an identifier in the order in which they are reflected. -/
theorem records (h : σ.Reflects known rs) (id : String) :
    σ.records id = rs.filter fun r => r.entity.id = id := by
  unfold Store.records
  rw [h.holders, List.filterMap_map]
  refine (List.filterMap_congr (g := some) fun r hr => ?_).trans List.filterMap_some
  obtain ⟨hr, hid⟩ := List.mem_filter.mp hr
  rw [Function.comp, h.record?_eq_some_iff.mpr ⟨hr, of_decide_eq_true hid⟩]
  rfl

/-- A known dataset gives its records in the order in which they are reflected. -/
theorem entitiesOf (h : σ.Reflects known rs) {d : String} (hd : known d) :
    σ.entitiesOf d = .ok ((rs.filter fun r => r.dataset = d).map Record.entity) := by
  obtain ⟨held, hget, hlist⟩ := h.dataset hd
  have hvalues : held.values = (rs.filter fun r => r.dataset = d).map Record.entity := by
    rw [OrderedMap.values, hlist, List.map_map]
    rfl
  unfold Store.entitiesOf
  rw [hget, ← hvalues]

/-! ## The single operations -/

theorem create (h : σ.Reflects known rs) (dataset : String) :
    (σ.create dataset).Reflects (fun d => known d ∨ d = dataset) rs where
  dataset := by
    intro d hd
    unfold Store.create OrderedMap.alter
    rw [OrderedMap.get?_insert]
    by_cases heq : dataset = d
    · subst heq
      rw [if_pos rfl]
      exact ⟨_, rfl, h.toList_getD dataset⟩
    · rw [if_neg heq]
      exact h.dataset (hd.resolve_right (Ne.symm heq))
  unknown := by
    intro d hd
    unfold Store.create OrderedMap.alter
    rw [OrderedMap.get?_insert, if_neg fun heq => hd (Or.inr heq.symm)]
    exact h.unknown fun hk => hd (Or.inl hk)
  within r hr := Or.inl (h.within r hr)
  holders := h.holders

/-- A removal takes the record of its place away and keeps the order of the others. -/
theorem remove (h : σ.Reflects known rs) (dataset id : String) :
    (σ.remove dataset id).2.Reflects known (rs.filter fun r => r.place ≠ (dataset, id)) := by
  cases hrec : σ.record? dataset id with
  | none =>
    have hall : (rs.filter fun r => r.place ≠ (dataset, id)) = rs := by
      rw [List.filter_eq_self]
      refine fun r hr => decide_eq_true fun hplace => ?_
      obtain ⟨hd, hid⟩ := Prod.mk.inj hplace
      rw [h.record?_eq_some_iff.mpr ⟨hd ▸ hr, hid⟩] at hrec
      cases hrec
    rw [remove_of_none hrec, hall]
    exact h
  | some e =>
    obtain ⟨hmem, hid⟩ := h.record?_eq_some_iff.mp hrec
    have hdatasets := datasets_remove hrec
    constructor
    · intro d hd
      obtain ⟨held, hget, hlist⟩ := h.dataset hd
      rw [hdatasets, OrderedMap.alter, OrderedMap.get?_insert, List.filter_filter]
      by_cases heq : dataset = d
      · subst heq
        rw [if_pos rfl, hget]
        refine ⟨held.erase id, rfl, ?_⟩
        rw [OrderedMap.toList_erase, hlist, List.filter_map, List.filter_filter]
        refine congrArg _ (List.filter_congr fun r _ => ?_)
        by_cases hr : r.dataset = dataset <;> simp [Record.place, hr]
      · rw [if_neg heq]
        refine ⟨held, hget, hlist.trans (congrArg _ (List.filter_congr fun r _ => ?_))⟩
        by_cases hr : r.dataset = d <;> simp [Record.place, hr, Ne.symm heq]
    · intro d hd
      have hne : dataset ≠ d := fun heq => hd (heq ▸ h.within _ hmem)
      rw [hdatasets, OrderedMap.alter, OrderedMap.get?_insert, if_neg hne]
      exact h.unknown hd
    · exact fun r hr => h.within r (List.mem_filter.mp hr).1
    · intro i
      rw [names_holders_remove h.sound hrec, h.holders, h.holders, List.filter_filter]
      by_cases heq : i = id
      · subst heq
        rw [if_pos rfl, List.filter_map, List.filter_filter]
        refine congrArg _ (List.filter_congr fun r _ => ?_)
        by_cases hr : r.entity.id = i <;> simp [Record.place, hr]
      · rw [if_neg heq]
        refine congrArg _ (List.filter_congr fun r _ => ?_)
        by_cases hr : r.entity.id = i <;> simp [Record.place, hr, heq]

section

variable {dataset : String} {e : Entity}

/-- The tables with a record at a free place: it stands at the end of that of its dataset. -/
theorem exists_get?_alter (h : σ.Reflects known rs) (hfree : ∀ r ∈ rs, r.place ≠ (dataset, e.id))
    {d : String} (hd : known d ∨ d = dataset) :
    ∃ held, (σ.datasets.alter dataset fun held => (held.getD ∅).insert e.id e).get? d = some held ∧
      held.toList = ((rs ++ [Record.mk dataset e]).filter fun r => r.dataset = d).map fun r =>
        (r.entity.id, r.entity) := by
  simp only [OrderedMap.alter, OrderedMap.get?_insert, List.filter_append, List.map_append]
  by_cases heq : dataset = d
  · subst heq
    have hkey : e.id ∉ ((σ.datasets.get? dataset).getD ∅).keys := by
      rw [OrderedMap.keys, h.toList_getD, List.map_map]
      intro hmem
      obtain ⟨r, hmem, hid⟩ := List.mem_map.mp hmem
      obtain ⟨hmem, hd⟩ := List.mem_filter.mp hmem
      exact hfree r hmem (Prod.ext (of_decide_eq_true hd) hid)
    rw [if_pos rfl]
    refine ⟨_, rfl, ?_⟩
    rw [OrderedMap.toList_insert_of_not_mem hkey, h.toList_getD]
    simp
  · obtain ⟨held, hget, hlist⟩ := h.dataset (hd.resolve_right (Ne.symm heq))
    rw [if_neg heq]
    refine ⟨held, hget, ?_⟩
    rw [hlist]
    simp [heq]

/-- The holders with a record at a free place: its dataset is the last of those of its
identifier. -/
theorem names_add_holders (h : σ.Reflects known rs) (hfree : ∀ r ∈ rs, r.place ≠ (dataset, e.id))
    (i : String) : (σ.holders.add e.id dataset).names i =
      ((rs ++ [Record.mk dataset e]).filter fun r => r.entity.id = i).map Record.dataset := by
  have hnew : dataset ∉ σ.holders.names e.id := by
    rw [h.holders]
    intro hmem
    obtain ⟨r, hmem, hd⟩ := List.mem_map.mp hmem
    obtain ⟨hmem, hid⟩ := List.mem_filter.mp hmem
    exact hfree r hmem (Prod.ext hd (of_decide_eq_true hid))
  rw [Index.names_add, List.filter_append, List.map_append, ← h.holders]
  by_cases heq : i = e.id
  · subst heq
    rw [if_pos ⟨rfl, hnew⟩]
    simp
  · rw [if_neg fun h => heq h.1]
    simp [Ne.symm heq]

end

/-- A put adds its record behind all others. -/
theorem put (h : σ.Reflects known rs) (dataset : String) (e : Entity) (hdel : e.deleted = false) :
    (σ.put dataset e).Reflects (fun d => known d ∨ d = dataset)
      (rs.filter (fun r => r.place ≠ (dataset, e.id)) ++ [⟨dataset, e⟩]) := by
  have hremoved := h.remove dataset e.id
  have hfree : ∀ r ∈ rs.filter (fun r => r.place ≠ (dataset, e.id)), r.place ≠ (dataset, e.id) :=
    fun r hmem => of_decide_eq_true (List.mem_filter.mp hmem).2
  have hput : σ.put dataset e = { (σ.remove dataset e.id).2.listRecord dataset e with
      datasets := (σ.remove dataset e.id).2.datasets.alter dataset fun held =>
        (held.getD ∅).insert e.id e } := by
    unfold Store.put
    rw [hdel]
    rfl
  rw [hput]
  constructor
  · exact fun hd => hremoved.exists_get?_alter hfree hd
  · intro d hd
    simp only [OrderedMap.alter, OrderedMap.get?_insert]
    rw [if_neg fun heq => hd (Or.inr heq.symm)]
    exact hremoved.unknown fun hk => hd (Or.inl hk)
  · intro r hmem
    rcases List.mem_append.mp hmem with hmem | hmem
    · exact Or.inl (hremoved.within r hmem)
    · rw [List.mem_singleton.mp hmem]
      exact Or.inr rfl
  · exact hremoved.names_add_holders hfree

theorem congr {known' : String → Prop} {rs' : List Record} (h : σ.Reflects known rs)
    (hknown : ∀ d, known d ↔ known' d) (hrs : rs = rs') : σ.Reflects known' rs' := by
  obtain rfl : known = known' := funext fun d => propext (hknown d)
  exact hrs ▸ h

variable {ws : List Write}

/-- A put is reflected as a write, also of a record that is marked as deleted. -/
theorem write_put (h : σ.Reflects known (live ws)) (dataset : String) (e : Entity) :
    (σ.put dataset e).Reflects (fun d => known d ∨ dataset = d ∧ e.deleted = false)
      (live (ws ++ [.put dataset e])) := by
  cases hdel : e.deleted with
  | false =>
    refine (h.put dataset e hdel).congr (fun d => by simp [eq_comm]) ?_
    have hrec : (Write.put dataset e).record? = some ⟨dataset, e⟩ := by simp [Write.record?, hdel]
    rw [live_concat, hrec]
    rfl
  | true =>
    rw [put_of_deleted hdel]
    refine (h.remove dataset e.id).congr (fun d => by simp) ?_
    have hrec : (Write.put dataset e).record? = none := by simp [Write.record?, hdel]
    rw [live_concat, hrec, Option.toList_none, List.append_nil]
    rfl

/-- Puts into a known dataset are reflected as writes, one after another. -/
theorem write_puts {dataset : String} (es : List Entity) (hknown : known dataset)
    (h : σ.Reflects known (live ws)) :
    (es.foldl (fun s e => s.put dataset e) σ).Reflects known
      (live (ws ++ es.map (.put dataset))) := by
  induction es generalizing σ ws with
  | nil => rwa [List.map_nil, List.append_nil]
  | cons e es ih =>
    rw [List.map_cons, List.foldl_cons, ← List.singleton_append, ← List.append_assoc]
    refine ih ((h.write_put dataset e).congr (fun d => ?_) rfl)
    exact or_iff_left_of_imp fun hd => hd.1 ▸ hknown

end Reflects

/-! ## Journals -/

/-- The operation makes sure that a dataset is there. -/
def Operation.Makes : Operation → String → Prop
  | create dataset, d => dataset = d
  | load dataset _, d => dataset = d
  | put dataset e, d => dataset = d ∧ e.deleted = false
  | remove _ _, _ => False

/-- A dataset is known after it was created, loaded or given a record that is not marked as
deleted. -/
def Known (journal : List Operation) (d : String) : Prop := ∃ op ∈ journal, op.Makes d

theorem known_concat {journal : List Operation} {op : Operation} {d : String} :
    Known (journal ++ [op]) d ↔ Known journal d ∨ op.Makes d := by
  simp [Known, or_and_right, exists_or]

/-- **A store reflects the live records of its journal.** -/
theorem reflects_replay (journal : List Operation) :
    (replay journal).Reflects (Known journal) (live (writes journal)) := by
  induction journal using List.reverseRecOn with
  | nil =>
    constructor
    · exact fun ⟨_, hop, _⟩ => nomatch hop
    · exact fun _ => rfl
    · exact fun _ hr => nomatch hr
    · exact fun _ => rfl
  | append_singleton journal op ih =>
    have hwrites : writes (journal ++ [op]) = writes journal ++ op.writes := by
      simp [writes]
    rw [replay_concat, hwrites]
    cases op with
    | create dataset =>
      refine (ih.create dataset).congr (fun d => ?_) (by simp [Operation.writes])
      rw [known_concat, Operation.Makes, eq_comm]
    | load dataset es =>
      have hcreate : ((replay journal).create dataset).Reflects
          (Known (journal ++ [.load dataset es])) (live (writes journal)) :=
        (ih.create dataset).congr (fun d => by rw [known_concat, Operation.Makes, eq_comm]) rfl
      exact hcreate.write_puts es (known_concat.mpr (Or.inr rfl))
    | put dataset e =>
      refine (ih.write_put dataset e).congr (fun d => ?_) rfl
      rw [known_concat, Operation.Makes]
    | remove dataset id =>
      refine (ih.remove dataset id).congr (fun d => ?_) ?_
      · rw [known_concat, Operation.Makes, or_false]
      · exact ((live_concat _ (.remove dataset id)).trans (List.append_nil _)).symm

/-- A merged entity has what the last of its records has at a predicate. -/
theorem merged_eq_last (s : StoredEntity) (p : String) :
    s.merged.property? p = s.records.reverse.findSome? (fun r => r.entity.property? p) ∧
      s.merged.reference? p = s.records.reverse.findSome? (fun r => r.entity.reference? p) :=
  ⟨OrderedMap.get?_ofList_flatMap (fun r : Record => r.entity.properties) s.records p,
    OrderedMap.get?_ofList_flatMap (fun r : Record => r.entity.references) s.records p⟩

/-- What a store answers is what its journal says. -/
structure Refines (σ : Store) (journal : List Operation) : Prop where
  /-- A known dataset gives its live records, each once, in the order of their last writes. -/
  dataset : ∀ d, Known journal d → ∃ es, σ.entitiesOf d = .ok es ∧ (es.map Entity.id).Nodup ∧
    es = ((live (writes journal)).filter fun r => r.dataset = d).map Record.entity
  unknown : ∀ d, σ.entitiesOf d = .error (.unknownDataset d) ↔ ¬ Known journal d
  absent : ∀ id, σ.stored? id = none ↔ ∀ d, ¬ Live (writes journal) d id
  /-- An identifier gives its live records in the order of their last writes. -/
  records : ∀ id s, σ.stored? id = some s →
    s.id = id ∧ s.records = (live (writes journal)).filter fun r => r.entity.id = id
  /-- The merged entity has the predicates of the records, and of two values the later one. -/
  merged : ∀ id s, σ.stored? id = some s →
    s.merged.id = id ∧ s.merged.deleted = false ∧
    ∀ p, s.merged.property? p = s.records.reverse.findSome? (fun r => r.entity.property? p) ∧
      s.merged.reference? p = s.records.reverse.findSome? (fun r => r.entity.reference? p) ∧
      (p ∈ s.merged.properties.keys ↔ ∃ r ∈ s.records, p ∈ r.entity.properties.keys) ∧
      (p ∈ s.merged.references.keys ↔ ∃ r ∈ s.records, p ∈ r.entity.references.keys)

theorem mem_keys_iff_of_last {α ν : Type} {m : OrderedMap String ν} {f : α → OrderedMap String ν}
    {l : List α} {p : String} (h : m.get? p = l.reverse.findSome? fun a => (f a).get? p) :
    p ∈ m.keys ↔ ∃ a ∈ l, p ∈ (f a).keys := by
  simp only [OrderedMap.mem_keys_iff, h, ← Option.isSome_iff_exists, List.findSome?_isSome_iff,
    List.mem_reverse]

/-- **What a store answers is what its journal says.** -/
theorem replay_refines (journal : List Operation) : (replay journal).Refines journal := by
  have h := reflects_replay journal
  have hstored : ∀ id s, (replay journal).stored? id = some s →
      s.id = id ∧ s.records = (live (writes journal)).filter fun r => r.entity.id = id := by
    intro id s hs
    unfold stored? at hs
    rw [h.records] at hs
    split at hs
    · cases hs
    · obtain rfl := Option.some.inj hs
      exact ⟨rfl, rfl⟩
  constructor
  · intro d hd
    obtain ⟨held, hget, hlist⟩ := h.dataset hd
    refine ⟨_, h.entitiesOf hd, ?_, rfl⟩
    have hkeys := held.nodup
    rw [hlist, List.map_map] at hkeys
    rw [List.map_map]
    exact hkeys
  · intro d
    unfold entitiesOf
    by_cases hd : Known journal d
    · obtain ⟨held, hget, -⟩ := h.dataset hd
      simp [hget, hd]
    · simp [h.unknown hd, hd]
  · intro id
    simp only [live_iff, stored?_eq_none_iff, h.records, List.filter_eq_nil_iff, decide_eq_true_eq]
    constructor
    · rintro hnone d ⟨r, hr, -, hid⟩
      exact hnone r hr hid
    · exact fun hlive r hr hid => hlive r.dataset ⟨r, hr, rfl, hid⟩
  · exact hstored
  · intro id s hs
    refine ⟨(hstored id s hs).1, rfl, fun p => ?_⟩
    obtain ⟨hproperty, hreference⟩ := merged_eq_last s p
    exact ⟨hproperty, hreference, mem_keys_iff_of_last hproperty, mem_keys_iff_of_last hreference⟩

end Store

end EntityGraph
