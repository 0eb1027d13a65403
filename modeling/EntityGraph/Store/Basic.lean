import EntityGraph.Store.Index
import EntityGraph.Store.Provider

/-!
# The store

A store holds named datasets, each with at most one record per identifier, and four indexes over
all records: identifiers by type, targets and sources by edge, and datasets by identifier. Every
write keeps the indexes up to date: taking a record out drops its entries, and the records of the
same identifier in other datasets, which may share some of them, are then listed again.

Results:
* `record?_put`, `record?_remove`: what a dataset holds after a write.
-/

namespace EntityGraph

/-- Named datasets with indexes over their records. -/
structure Store where
  /-- The records of each dataset by identifier. -/
  datasets : OrderedMap String (OrderedMap String Entity) := ∅
  /-- The identifiers of the entities of a type. -/
  byType : Index String := ∅
  /-- The targets of a source and predicate. -/
  outbound : Index (String × String) := ∅
  /-- The sources of a target and predicate. -/
  inbound : Index (String × String) := ∅
  /-- The datasets with a record of an identifier. -/
  holders : Index String := ∅
  deriving Inhabited

namespace Store

/-- The store without datasets. -/
def empty : Store := {}

/-- Creates a dataset unless it is there. -/
def create (s : Store) (dataset : String) : Store :=
  { s with datasets := s.datasets.alter dataset (·.getD ∅) }

/-- The names of the datasets, oldest first. -/
def names (s : Store) : List String := s.datasets.keys

/-- The number of records of a dataset. -/
def size (s : Store) (dataset : String) : Except ProviderError Nat :=
  match s.datasets.get? dataset with
  | some records => .ok records.size
  | none => .error (.unknownDataset dataset)

/-- The record of an identifier in a dataset. -/
def record? (s : Store) (dataset id : String) : Option Entity :=
  (s.datasets.get? dataset).bind (·.get? id)

/-- The predicates and targets of an entity's references, in order. -/
def edges (e : Entity) : List (String × String) :=
  e.references.toList.flatMap fun (predicate, slot) => slot.toList.map fun t => (predicate, t)

/-- Lists a record in the indexes. -/
def listRecord (s : Store) (dataset : String) (e : Entity) : Store :=
  { s with
    holders := s.holders.add e.id dataset
    byType := e.types.foldl (fun idx type => idx.add type e.id) s.byType
    outbound := (edges e).foldl (fun idx (p, t) => idx.add (e.id, p) t) s.outbound
    inbound := (edges e).foldl (fun idx (p, t) => idx.add (t, p) e.id) s.inbound }

/-- Drops the entries of a record from the indexes. -/
def unlistRecord (s : Store) (dataset : String) (e : Entity) : Store :=
  { s with
    holders := s.holders.drop e.id dataset
    byType := e.types.foldl (fun idx type => idx.drop type e.id) s.byType
    outbound := (edges e).foldl (fun idx (p, t) => idx.drop (e.id, p) t) s.outbound
    inbound := (edges e).foldl (fun idx (p, t) => idx.drop (t, p) e.id) s.inbound }

/-- The records of an identifier, in the order in which the datasets came to hold it. -/
def records (s : Store) (id : String) : List Record :=
  (s.holders.names id).filterMap fun dataset => (s.record? dataset id).map (⟨dataset, ·⟩)

/-- Takes the record `e`, held under `id`, out of a dataset and out of the indexes, and lists the
remaining records of the same identifier again. -/
def discard (s : Store) (dataset id : String) (e : Entity) : Store :=
  let s := { s with datasets := s.datasets.alter dataset fun held => (held.getD ∅).erase id }
  let s := s.unlistRecord dataset e
  (s.records id).foldl (fun s r => s.listRecord r.dataset r.entity) s

/-- Takes a record out of a dataset and gives it back. -/
def remove (s : Store) (dataset id : String) : Option Entity × Store :=
  match s.record? dataset id with
  | none => (none, s)
  | some e => (some e, s.discard dataset id e)

/-- Stores a record, replacing the one of the same identifier. A record marked as deleted only
takes the old one out. -/
def put (s : Store) (dataset : String) (e : Entity) : Store :=
  let s := (s.remove dataset e.id).2
  if e.deleted then s
  else
    let s := s.listRecord dataset e
    { s with datasets := s.datasets.alter dataset fun held => (held.getD ∅).insert e.id e }

/-- Stores entities in a dataset, which is created if needed. -/
def load (s : Store) (dataset : String) (es : List Entity) : Store :=
  es.foldl (fun s e => s.put dataset e) (s.create dataset)

/-- The identifiers of the entities of a type, as the index lists them. -/
def ofType (s : Store) (type : String) : List String := s.byType.names type

/-- What is stored under an identifier. -/
def stored? (s : Store) (id : String) : Option StoredEntity :=
  match s.records id with
  | [] => none
  | records => some ⟨id, records⟩

/-- The records of a dataset in order. -/
def entitiesOf (s : Store) (dataset : String) : Except ProviderError (List Entity) :=
  match s.datasets.get? dataset with
  | some records => .ok records.values
  | none => .error (.unknownDataset dataset)

/-- The identifiers one step away, as the indexes list them. -/
def neighbours (s : Store) (source predicate : String) (inverse : Bool) : List String :=
  if inverse && predicate == Vocabulary.rdfType then s.byType.names source
  else if inverse then s.inbound.names (source, predicate)
  else s.outbound.names (source, predicate)

/-- The stored entities one step away, merged, at most `limit` of them. -/
def hop (s : Store) (source predicate : String) (inverse : Bool) (limit : Option Nat) :
    List Entity :=
  let found := (s.neighbours source predicate inverse).filterMap fun id =>
    (s.stored? id).map StoredEntity.merged
  match limit with
  | some n => found.take n
  | none => found

/-- The store as a data provider. -/
def provider {m : Type → Type} [Pure m] (s : Store) : Provider m where
  getEntity id := pure (.ok (s.stored? id))
  datasetEntities dataset := pure ((s.entitiesOf dataset).map (·.map .ok))
  hop source predicate inverse limit :=
    pure (.ok ((s.hop source predicate inverse limit).map .ok))

/-! ## What a dataset holds -/

@[simp] theorem datasets_listRecord (s : Store) (dataset : String) (e : Entity) :
    (s.listRecord dataset e).datasets = s.datasets := rfl

@[simp] theorem datasets_unlistRecord (s : Store) (dataset : String) (e : Entity) :
    (s.unlistRecord dataset e).datasets = s.datasets := rfl

theorem datasets_foldl_listRecord (rs : List Record) (s : Store) :
    (rs.foldl (fun s r => s.listRecord r.dataset r.entity) s).datasets = s.datasets := by
  induction rs generalizing s with
  | nil => rfl
  | cons r rs ih => simp [ih]

/-- After a removal the dataset holds nothing under the identifier and the rest as before. -/
theorem record?_remove (s : Store) (dataset id d i : String) :
    (s.remove dataset id).2.record? d i =
      if d = dataset ∧ i = id then none else s.record? d i := by
  unfold remove
  split
  · rename_i h
    by_cases hk : d = dataset ∧ i = id
    · rw [if_pos hk, hk.1, hk.2, h]
    · rw [if_neg hk]
  · simp only [discard, record?, datasets_foldl_listRecord, datasets_unlistRecord,
      OrderedMap.alter, OrderedMap.get?_insert]
    by_cases h : dataset = d
    · subst h
      by_cases h' : id = i
      · subst h'; simp [OrderedMap.get?_erase]
      · cases s.datasets.get? dataset with
        | none => simp [OrderedMap.get?_erase, h']
        | some held => simp [OrderedMap.get?_erase, h', Ne.symm h']
    · simp [h, Ne.symm h]

/-- After a record was put, the dataset holds it under its identifier, unless it is marked as
deleted, and the rest as before. -/
theorem record?_put (s : Store) (dataset : String) (e : Entity) (d i : String) :
    (s.put dataset e).record? d i =
      if d = dataset ∧ i = e.id then (if e.deleted then none else some e) else s.record? d i := by
  unfold put
  by_cases hdel : e.deleted = true
  · simp only [hdel, if_true, record?_remove]
  · simp only [hdel, Bool.false_eq_true, if_false]
    have hr := record?_remove s dataset e.id d i
    simp only [record?, OrderedMap.alter, OrderedMap.get?_insert, datasets_listRecord] at hr ⊢
    by_cases h : dataset = d
    · subst h
      cases hg : (s.remove dataset e.id).2.datasets.get? dataset with
      | none =>
        by_cases h' : e.id = i
        · subst h'; simp [OrderedMap.get?_insert]
        · rw [hg] at hr
          simp only [Option.bind_none, true_and, Ne.symm h', if_false] at hr
          simp only [if_true, Option.getD_none, Option.bind_some, OrderedMap.get?_insert, h',
            if_false, true_and, Ne.symm h', ← hr]
          rfl
      | some held =>
        by_cases h' : e.id = i
        · subst h'; simp [OrderedMap.get?_insert]
        · rw [hg] at hr
          simpa [OrderedMap.get?_insert, h', Ne.symm h'] using hr
    · simpa [h, Ne.symm h] using hr

end Store

end EntityGraph
