import EntityGraph.Proofs.Outcome
import EntityGraph.Proofs.Reachable

/-!
# Targets of references

A reference is followed to the records that datasets of the context hold under the canonical
identifier of its target. What the check says of the target depends on these records alone, and on
them as a set.

Results:
* `checkTarget_settles`: what holding one target against the store gives.
* `checkReference_alike`: two stores with the same records in the context agree on a reference.
* `types_merged`, `declaredTypes_eq`: the types of a merged entity are those of the last record that
  declares any, and the types that the records declare are those of all of them.
-/

namespace EntityGraph

namespace Store

/-- The records of an identifier in datasets of a context. -/
def recordsIn (σ : Store) (context : List String) (id : String) : List Record :=
  (σ.records id).filter fun r => inContext context r.dataset

theorem id_of_stored? {σ : Store} {id : String} {stored : StoredEntity}
    (h : σ.stored? id = some stored) : stored.id = id := by
  unfold stored? at h
  split at h
  · cases h
  · cases h
    rfl

theorem records_of_stored? {σ : Store} {id : String} {stored : StoredEntity}
    (h : σ.stored? id = some stored) : stored.records = σ.records id ∧ σ.records id ≠ [] := by
  unfold stored? at h
  split at h
  · cases h
  · rename_i hne
    cases h
    exact ⟨rfl, hne⟩

/-- What is stored is what some dataset has a record of. -/
theorem Sound.isSome_stored?_iff {σ : Store} (h : σ.Sound) {id : String} :
    (σ.stored? id).isSome = true ↔ ∃ d e, σ.record? d id = some e := by
  constructor
  · intro hsome
    obtain ⟨stored, hstored⟩ := Option.isSome_iff_exists.mp hsome
    obtain ⟨r, hr⟩ := List.exists_mem_of_ne_nil _ (records_of_stored? hstored).2
    exact ⟨r.dataset, r.entity, h.mem_records_iff.mp hr⟩
  · rintro ⟨d, e, hrec⟩
    rw [Option.isSome_iff_ne_none]
    intro hnone
    have hmem : (⟨d, e⟩ : Record) ∈ σ.records id := h.mem_records_iff.mpr hrec
    rw [stored?_eq_none_iff.mp hnone] at hmem
    cases hmem

theorem recordsIn_of_stored? {σ : Store} {id : String} {stored : StoredEntity}
    (h : σ.stored? id = some stored) (context : List String) :
    stored.recordsIn context = σ.recordsIn context id := by
  unfold StoredEntity.recordsIn recordsIn
  rw [(records_of_stored? h).1]

theorem Sound.mem_recordsIn_iff {σ : Store} (h : σ.Sound) {context : List String} {id : String}
    {r : Record} : r ∈ σ.recordsIn context id ↔
      inContext context r.dataset = true ∧ σ.record? r.dataset id = some r.entity := by
  unfold recordsIn
  rw [List.mem_filter, h.mem_records_iff, and_comm]

/-- Two stores hold the same records in the datasets of a context. -/
def SameIn (context : List String) (σ σ' : Store) : Prop :=
  ∀ d ∈ context, ∀ id, σ.record? d id = σ'.record? d id

theorem sameIn_of_datasets {context : List String} {σ σ' : Store}
    (h : ∀ d ∈ context, σ.datasets.get? d = σ'.datasets.get? d) : SameIn context σ σ' := by
  intro d hd id
  unfold record?
  rw [h d hd]

/-- The records found in a context that both stores share are the same. -/
theorem SameIn.mem_recordsIn_iff {context : List String} {σ σ' : Store}
    (h : SameIn context σ σ') (hne : context ≠ []) (hσ : σ.Sound) (hσ' : σ'.Sound) {id : String}
    {r : Record} : r ∈ σ.recordsIn context id ↔ r ∈ σ'.recordsIn context id := by
  rw [hσ.mem_recordsIn_iff, hσ'.mem_recordsIn_iff]
  refine and_congr_right fun hctx => ?_
  unfold inContext at hctx
  rw [List.isEmpty_eq_false_iff.mpr hne, Bool.false_or, decide_eq_true_eq] at hctx
  rw [h r.dataset hctx id]

/-- All datasets of the store together are as good as no context. -/
theorem recordsIn_names (σ : Store) (id : String) : σ.recordsIn σ.names id = σ.records id := by
  unfold recordsIn
  rw [List.filter_eq_self]
  intro r hr
  unfold inContext
  rw [decide_eq_true (dataset_mem_names hr), Bool.or_true]

theorem recordsIn_nil (σ : Store) (id : String) : σ.recordsIn [] id = σ.records id := by
  unfold recordsIn
  rw [List.filter_eq_self]
  intro r _
  rfl

end Store

/-! ## Types of records -/

theorem mem_declaredTypes {records : List Record} {type : String} :
    type ∈ Run.declaredTypes records ↔ ∃ r ∈ records, type ∈ r.entity.types := by
  unfold Run.declaredTypes
  rw [List.mem_flatMap]

/-- The slots at which records declare types. -/
def typeSlots (records : List Record) : List (Slot String) :=
  records.filterMap fun r => r.entity.reference? Vocabulary.rdfType

/-- The types that records declare are those of all their slots. -/
theorem declaredTypes_eq (records : List Record) :
    Run.declaredTypes records = (typeSlots records).flatMap Slot.toList := by
  unfold Run.declaredTypes typeSlots
  induction records with
  | nil => rfl
  | cons r records ih =>
    rw [List.flatMap_cons, ih, List.filterMap_cons]
    unfold Entity.types Entity.referenceValues
    cases r.entity.reference? Vocabulary.rdfType with
    | none => rfl
    | some slot => rfl

/-- **The types of a merged entity are those of the last record that declares any.** -/
theorem types_merged (stored : StoredEntity) :
    stored.merged.types = ((typeSlots stored.records).getLast?).elim [] Slot.toList := by
  have key : ∀ records : List Record,
      (OrderedMap.ofList (records.flatMap fun r => r.entity.references.toList)).get?
        Vocabulary.rdfType = (typeSlots records).getLast? := by
    intro records
    induction records with
    | nil => rfl
    | cons r records ih =>
      rw [List.flatMap_cons, OrderedMap.get?_ofList_append, ih, OrderedMap.get?_ofList_toList]
      unfold typeSlots
      rw [List.filterMap_cons]
      unfold Entity.reference?
      cases r.entity.references.get? Vocabulary.rdfType with
      | none => simp
      | some slot =>
        simp only [List.getLast?_cons]
        cases (List.filterMap (fun r => r.entity.references.get? Vocabulary.rdfType)
          records).getLast? <;> rfl
  unfold Entity.types Entity.referenceValues Entity.reference? StoredEntity.merged
  rw [key]

/-- Where at most one record declares types, merging loses none. -/
theorem types_merged_of_single {stored : StoredEntity} (h : (typeSlots stored.records).length ≤ 1) :
    stored.merged.types = Run.declaredTypes stored.records := by
  rw [types_merged, declaredTypes_eq]
  match typeSlots stored.records, h with
  | [], _ => rfl
  | [slot], _ => simp

/-! ## One target -/

/-- What a target breaks of a constraint by the records of the target in the context: there is
none, or none of the expected class. -/
def Constraint.missed (c : Constraint) (e : Entity) (ns : Namespaces) (records : List Record) :
    List (Violation.Kind × Option Constraint × Option Entity) :=
  if records.isEmpty then [(.referenceNotFound, some c, some e)]
  else c.referencedEntityClass?.elim [] fun expected =>
    if (Run.declaredTypes records).any fun type => ns.same type expected then []
    else [(.referenceTypeMismatch, some c, some e)]

/-- What is missed depends on the records as a set. -/
theorem Constraint.missed_congr {c : Constraint} {e : Entity} {ns : Namespaces}
    {records records' : List Record} (h : ∀ r, r ∈ records ↔ r ∈ records') :
    c.missed e ns records = c.missed e ns records' := by
  have hempty : records.isEmpty = records'.isEmpty := by
    rw [Bool.eq_iff_iff, List.isEmpty_iff, List.isEmpty_iff, List.eq_nil_iff_forall_not_mem,
      List.eq_nil_iff_forall_not_mem]
    exact forall_congr' fun r => not_congr (h r)
  have htypes : ∀ expected,
      ((Run.declaredTypes records).any fun type => ns.same type expected) =
        (Run.declaredTypes records').any fun type => ns.same type expected := by
    intro expected
    rw [Bool.eq_iff_iff, List.any_eq_true, List.any_eq_true]
    refine exists_congr fun type => and_congr_left fun _ => ?_
    rw [mem_declaredTypes, mem_declaredTypes]
    exact exists_congr fun r => and_congr_left fun _ => h r
  unfold missed
  simp only [hempty, htypes]

section

variable {r : Run (Except ValidationError)} {σ : Store} {c : Constraint} {e : Entity}

theorem stored?_of_store (hstore : r.provider? = some σ.provider) (id : String) :
    r.stored? id = .ok (σ.stored? (r.schema.namespaces.canonical id)) := by
  unfold Run.stored? Run.provider
  rw [hstore]
  rfl

/-- **What holding one target against the store gives.** The check never fails. -/
theorem checkTarget_settles (hstore : r.provider? = some σ.provider) (hproceed : r.proceed = .ok ())
    (target : String) :
    Settles (r.checkTarget c e target) Violation.substance False
      (c.missed e r.schema.namespaces
        (σ.recordsIn r.settings.context (r.schema.namespaces.canonical target))) := by
  refine Or.inr ⟨id, ?_⟩
  unfold Run.checkTarget Constraint.missed
  rw [hproceed, ok_bind, stored?_of_store hstore, ok_bind]
  cases hstored : σ.stored? (r.schema.namespaces.canonical target) with
  | none =>
    have hnone : σ.recordsIn r.settings.context (r.schema.namespaces.canonical target) = [] := by
      unfold Store.recordsIn
      rw [Store.stored?_eq_none_iff.mp hstored, List.filter_nil]
    rw [hnone]
    exact ⟨_, rfl, rfl⟩
  | some stored =>
    simp only [Store.recordsIn_of_stored? hstored]
    split
    · exact ⟨_, rfl, rfl⟩
    · cases c.referencedEntityClass? with
      | none => exact ⟨_, rfl, rfl⟩
      | some expected =>
        simp only [Option.elim_some]
        split
        · exact ⟨_, rfl, rfl⟩
        · exact ⟨_, rfl, rfl⟩

end

section

variable {r r' : Run (Except ValidationError)} {σ σ' : Store} {c : Constraint} {e : Entity}

/-- **Two stores with the same records in the context agree on a reference.** -/
theorem checkReference_alike (hschema : r'.schema = r.schema)
    (hrelated : r'.settings.related = r.settings.related)
    (hstore : r.provider? = some σ.provider) (hstore' : r'.provider? = some σ'.provider)
    (hproceed : r.proceed = .ok ()) (hproceed' : r'.proceed = .ok ())
    (hrecords : ∀ id x, x ∈ σ.recordsIn r.settings.context id ↔
      x ∈ σ'.recordsIn r'.settings.context id) :
    Alike Violation.substance (r.checkReference c e) (r'.checkReference c e) := by
  unfold Run.checkReference
  rw [hschema, hrelated]
  refine .bind _ fun predicate _ => .bind _ fun bounds _ => ?_
  split
  · refine Alike.append (x := .ok _) (.refl _ _) (gather_alike fun target _ => ?_)
    refine .of_settles (checkTarget_settles hstore hproceed target) ?_
    rw [Constraint.missed_congr (hrecords _), ← hschema]
    exact checkTarget_settles hstore' hproceed' target
  · exact .refl _ _

end

end EntityGraph
