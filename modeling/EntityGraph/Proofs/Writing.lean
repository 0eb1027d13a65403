import EntityGraph.Entity.Document
import EntityGraph.Proofs.Declarations
import EntityGraph.Proofs.Sameness

/-!
# Writing entity documents

Entities written as a JSON document and read back. A reader takes the members of an object in the
order of their keys, and so what comes back has its predicates in another order and is the same
otherwise.

Results:
* `Json.find_sortMembers`, `Json.pairwise_sortMembers`: sorting members keeps what a key holds.
* `Document.readEntity_writeEntity`: a written entity is read back.
* `Document.ofJson_write`: so is a document.
* `Document.collect_eq_ok_iff`: what is read from a document expands, one entity after another.
* `Json.sortedOfText_of_toList`: a text is read by its characters.
-/

namespace EntityGraph

/-! ## Sorted members -/

namespace Json

open OrderedMap (find)

variable {α β : Type}

theorem find_insertMember (k j : String) (v : α) (l : List (String × α)) :
    find j (insertMember k v l) = if k = j then some v else find j l := by
  induction l with
  | nil => rfl
  | cons e l ih =>
    obtain ⟨k', v'⟩ := e
    rw [insertMember]
    by_cases hk : k = k'
    · subst hk
      rw [if_pos rfl, find, find]
      by_cases hj : k = j <;> simp [hj]
    · rw [if_neg hk]
      by_cases hlt : k < k'
      · rw [if_pos hlt, find]
      · rw [if_neg hlt, find, ih, find]
        by_cases hj : k = j
        · subst hj
          simp [Ne.symm hk]
        · simp [hj]

/-- Sorted members hold what the members hold, of equal keys the last. -/
theorem find_sortMembers (l : List (String × α)) (k : String) :
    find k (sortMembers l) = (OrderedMap.ofList l).get? k := by
  have key : ∀ (l acc : List (String × α)) (m : OrderedMap String α), find k acc = m.get? k →
      find k (l.foldl (fun sorted e => insertMember e.1 e.2 sorted) acc) =
        (l.foldl (fun (m : OrderedMap String α) e => m.insert e.1 e.2) m).get? k := by
    intro l
    induction l with
    | nil => exact fun _ _ h => h
    | cons e l ih =>
      refine fun acc m h => ih _ _ ?_
      rw [find_insertMember, OrderedMap.get?_insert, h]
  exact key l [] ∅ rfl

theorem pairwise_insertMember {k : String} {v : α} {l : List (String × α)}
    (h : l.Pairwise fun a b => a.1 < b.1) : (insertMember k v l).Pairwise fun a b => a.1 < b.1 := by
  induction l with
  | nil => exact List.pairwise_singleton _ _
  | cons e l ih =>
    obtain ⟨k', v'⟩ := e
    obtain ⟨hhead, hrest⟩ := List.pairwise_cons.mp h
    rw [insertMember]
    by_cases hk : k = k'
    · subst hk
      rw [if_pos rfl]
      exact List.pairwise_cons.mpr ⟨hhead, hrest⟩
    · rw [if_neg hk]
      by_cases hlt : k < k'
      · rw [if_pos hlt]
        refine List.pairwise_cons.mpr ⟨fun b hb => ?_, h⟩
        rcases List.mem_cons.mp hb with rfl | hb
        · exact hlt
        · exact String.lt_trans hlt (hhead b hb)
      · rw [if_neg hlt]
        refine List.pairwise_cons.mpr ⟨fun b hb => ?_, ih hrest⟩
        rcases mem_insertMember hb with rfl | hb
        · exact ((Std.lt_trichotomy k k').resolve_left hlt).resolve_left hk
        · exact hhead b hb

/-- Sorted members stand in the order of their keys. -/
theorem pairwise_sortMembers (l : List (String × α)) :
    (sortMembers l).Pairwise fun a b => a.1 < b.1 := by
  have key : ∀ (l acc : List (String × α)), (acc.Pairwise fun a b => a.1 < b.1) →
      (l.foldl (fun sorted e => insertMember e.1 e.2 sorted) acc).Pairwise
        fun a b => a.1 < b.1 := by
    intro l
    induction l with
    | nil => exact fun _ h => h
    | cons e l ih => exact fun _ h => ih _ (pairwise_insertMember h)
  exact key l [] .nil

theorem nodup_sortMembers (l : List (String × α)) : ((sortMembers l).map Prod.fst).Nodup := by
  refine List.pairwise_map.mpr ((pairwise_sortMembers l).imp fun h heq => ?_)
  rw [heq] at h
  exact String.lt_irrefl _ h

theorem insertMember_map (f : α → β) (k : String) (v : α) (l : List (String × α)) :
    insertMember k (f v) (l.map fun e => (e.1, f e.2)) =
      (insertMember k v l).map fun e => (e.1, f e.2) := by
  induction l with
  | nil => rfl
  | cons e l ih =>
    obtain ⟨k', v'⟩ := e
    rw [List.map_cons, insertMember, insertMember]
    by_cases hk : k = k'
    · rw [if_pos hk, if_pos hk]
      rfl
    · rw [if_neg hk, if_neg hk]
      by_cases hlt : k < k'
      · rw [if_pos hlt, if_pos hlt]
        rfl
      · rw [if_neg hlt, if_neg hlt, ih]
        rfl

/-- Members are sorted by their keys, whatever they hold. -/
theorem sortMembers_map (f : α → β) (l : List (String × α)) :
    sortMembers (l.map fun e => (e.1, f e.2)) = (sortMembers l).map fun e => (e.1, f e.2) := by
  unfold sortMembers
  rw [List.foldl_map]
  refine @List.foldl_hom _ _ _ (fun acc : List (String × α) => acc.map fun e => (e.1, f e.2))
    (fun acc e => insertMember e.1 e.2 acc) _ l [] fun acc e => ?_
  exact insertMember_map f e.1 e.2 acc

/-- The entries of a map, sorted by their keys. -/
def sortedTable (m : OrderedMap String α) : OrderedMap String α :=
  .ofList (sortMembers m.toList)

/-- Sorting the entries of a map keeps what it holds. -/
theorem get?_sortedTable (m : OrderedMap String α) (k : String) :
    (sortedTable m).get? k = m.get? k := by
  unfold sortedTable
  rw [OrderedMap.get?, OrderedMap.toList_ofList_of_nodup (nodup_sortMembers _), find_sortMembers,
    OrderedMap.get?_ofList_toList]

theorem sortedItems_eq_map (items : List Json) : sortedItems items = items.map sorted := by
  induction items with
  | nil => rfl
  | cons v rest ih => rw [sortedItems, List.map_cons, ih]

theorem sortedMembers_eq_map (members : List (String × Json)) :
    sortedMembers members = members.map fun e => (e.1, e.2.sorted) := by
  induction members with
  | nil => rfl
  | cons e rest ih =>
    obtain ⟨k, v⟩ := e
    rw [sortedMembers, List.map_cons, ih]

theorem member?_object (members : List (String × Json)) (k : String) :
    (object members).member? k = find k members := by
  rw [member?]
  induction members with
  | nil => rfl
  | cons e rest ih =>
    rw [List.find?_cons, find]
    by_cases h : e.1 = k
    · simp [h]
    · simp only [beq_eq_false_iff_ne.mpr h, if_neg h, ← ih]

/-- **Sorting the members of an object keeps what they hold**, if no key stands twice. -/
theorem member?_sorted_object {members : List (String × Json)}
    (h : (members.map Prod.fst).Nodup) (k : String) :
    (object members).sorted.member? k = (find k members).map sorted := by
  have hkeys : ((members.map fun e => (e.1, e.2.sorted)).map Prod.fst).Nodup := by
    rw [List.map_map]
    exact h
  rw [sorted, member?_object, sortedMembers_eq_map, find_sortMembers, OrderedMap.get?,
    OrderedMap.toList_ofList_of_nodup hkeys, OrderedMap.find_map (fun _ => sorted)]

end Json

/-! ## Written values -/

/-- A value that holds no other values. -/
def Json.IsLeaf : Json → Prop
  | .array _ => False
  | .object _ => False
  | _ => True

theorem Json.IsLeaf.sorted_eq {v : Json} (h : v.IsLeaf) : v.sorted = v := by
  cases v <;> first | rfl | exact h.elim

/-- A literal that JSON can hold: an integer of 64 bits with sign, or a finite number. -/
def Literal.Writable : Literal → Prop
  | .int i => i ≤ maxInt
  | .float x => x.isFinite = true
  | _ => True

theorem Literal.isLeaf_toJson (v : Literal) : v.toJson.IsLeaf := by
  cases v with
  | float x =>
    rw [toJson]
    split <;> trivial
  | _ => trivial

theorem Literal.ofJson?_toJson {v : Literal} (h : v.Writable) : ofJson? v.toJson = some v := by
  cases v with
  | int i => exact congrArg some (if_pos h)
  | float x =>
    rw [toJson, if_pos (show x.isFinite = true from h)]
    rfl
  | _ => rfl

namespace Slot

variable {α : Type} {write : α → Json} {read : Json → Option α}

theorem ofJson?_of_isLeaf {v : Json} (h : v.IsLeaf) :
    ofJson? read v = (read v).map .one := by
  cases v <;> first | rfl | exact h.elim

theorem sorted_toJson (hwrite : ∀ a, (write a).IsLeaf) (slot : Slot α) :
    (slot.toJson write).sorted = slot.toJson write := by
  cases slot with
  | one a => exact (hwrite a).sorted_eq
  | many as =>
    rw [toJson, Json.sorted, Json.sortedItems_eq_map, List.map_map]
    exact congrArg Json.array (List.map_congr_left fun a _ => (hwrite a).sorted_eq)

/-- A written slot is read back if its values are. -/
theorem ofJson?_toJson (hwrite : ∀ a, (write a).IsLeaf) {slot : Slot α}
    (h : ∀ a ∈ slot.toList, read (write a) = some a) :
    ofJson? read (slot.toJson write) = some slot := by
  cases slot with
  | one a => rw [toJson, ofJson?_of_isLeaf (hwrite a), h a List.mem_cons_self, Option.map_some]
  | many as =>
    have hread : (as.map write).mapM read = some as := by
      induction as with
      | nil => rfl
      | cons a as ih =>
        rw [List.map_cons, List.mapM_cons, h a List.mem_cons_self,
          ih fun b hb => h b (List.mem_cons_of_mem a hb)]
        rfl
    rw [toJson, ofJson?, hread, Option.map_some]

end Slot

/-! ## Written entities -/

namespace Document

open OrderedMap (given find)

/-- An object with the entries of a table, unless there are none. -/
def writeTable? {α : Type} (write : α → Json) (m : OrderedMap String α) : Option Json :=
  if m.toList = [] then none else some (.object (m.toList.map fun e => (e.1, write e.2)))

theorem readTable_object {α : Type} {write : α → Json} {read : Json → Option α}
    (expected : String) {m : OrderedMap String α} (hsorted : ∀ a, (write a).sorted = write a)
    (h : ∀ e ∈ m.toList, read (write e.2) = some e.2) :
    readTable expected read (some (Json.object (m.toList.map fun e => (e.1, write e.2))).sorted) =
      .ok (Json.sortMembers m.toList) := by
  have hmembers : (Json.object (m.toList.map fun e => (e.1, write e.2))).sorted =
      .object ((Json.sortMembers m.toList).map fun e => (e.1, write e.2)) := by
    rw [Json.sorted, Json.sortedMembers_eq_map, List.map_map, ← Json.sortMembers_map]
    simp only [Function.comp_def, hsorted]
  rw [hmembers, readTable, mapM_eq_ok_iff, List.forall₂_map_left_iff, List.forall₂_same]
  intro e he
  simp only [h e (Json.mem_sortMembers he)]

/-- A written table is read back, its entries in the order of their keys. -/
theorem readTable_writeTable? {α : Type} {write : α → Json} {read : Json → Option α}
    (expected : String) {m : OrderedMap String α} (hsorted : ∀ a, (write a).sorted = write a)
    (h : ∀ e ∈ m.toList, read (write e.2) = some e.2) :
    readTable expected read ((writeTable? write m).map Json.sorted) =
      .ok (Json.sortMembers m.toList) := by
  unfold writeTable?
  split
  · rename_i hnil
    rw [hnil]
    rfl
  · exact readTable_object expected hsorted h

/-- The members of a written entity. A table without entries and a mark that is not set are left
out. -/
def entityMembers (e : Entity) : List (String × Option Json) := [
  ("id", some (.string e.id)),
  ("props", writeTable? (Slot.toJson Literal.toJson) e.properties),
  ("refs", writeTable? (Slot.toJson .string) e.references),
  ("deleted", if e.deleted then some (.bool true) else none)]

/-- The element of a document that describes an entity. -/
def writeEntity (e : Entity) : Json := .object (given (entityMembers e))

theorem nodup_entityMembers (e : Entity) : ((entityMembers e).map Prod.fst).Nodup := by
  simp only [entityMembers, List.map_cons, List.map_nil]
  decide

theorem member?_writeEntity (e : Entity) (k : String) :
    (writeEntity e).sorted.member? k = (find k (entityMembers e)).join.map Json.sorted := by
  have hnodup := (nodup_entityMembers e).sublist (OrderedMap.map_fst_given_sublist _)
  have hfind := OrderedMap.get?_ofList_given (nodup_entityMembers e) k
  rw [OrderedMap.get?, OrderedMap.toList_ofList_of_nodup hnodup] at hfind
  rw [writeEntity, Json.member?_sorted_object hnodup, hfind]

end Document

/-- Every literal of an entity can be written. -/
def Entity.Writable (e : Entity) : Prop :=
  ∀ entry ∈ e.properties.toList, ∀ v ∈ entry.2.toList, v.Writable

/-- An entity with its predicates in the order of their names. -/
def Entity.sortedByKey (e : Entity) : Entity :=
  { e with
    properties := Json.sortedTable e.properties
    references := Json.sortedTable e.references }

theorem Entity.same_sortedByKey (e : Entity) : e.Same e.sortedByKey :=
  ⟨rfl, fun p => (Json.get?_sortedTable e.properties p).symm,
    fun p => (Json.get?_sortedTable e.references p).symm, rfl⟩

namespace Document

/-- **A written entity is read back**, its predicates in the order of their names. -/
theorem readEntity_writeEntity {e : Entity} (h : e.Writable) :
    readEntity e.id (writeEntity e).sorted = .ok e.sortedByKey := by
  have hprops : readTable "a property" (Slot.ofJson? Literal.ofJson?)
      ((writeEntity e).sorted.member? "props") = .ok (Json.sortMembers e.properties.toList) := by
    rw [member?_writeEntity]
    exact readTable_writeTable? _ (Slot.sorted_toJson Literal.isLeaf_toJson) fun entry hentry =>
      Slot.ofJson?_toJson Literal.isLeaf_toJson fun v hv =>
        Literal.ofJson?_toJson (h entry hentry v hv)
  have hrefs : readTable "a reference" (Slot.ofJson? readString?)
      ((writeEntity e).sorted.member? "refs") = .ok (Json.sortMembers e.references.toList) := by
    have hleaf : ∀ s, (Json.string s).IsLeaf := fun _ => trivial
    rw [member?_writeEntity]
    exact readTable_writeTable? _ (Slot.sorted_toJson hleaf) fun _ _ =>
      Slot.ofJson?_toJson hleaf fun _ _ => rfl
  have hdeleted : (writeEntity e).sorted.member? "deleted" =
      if e.deleted then some (.bool true) else none := by
    rw [member?_writeEntity]
    show Option.map Json.sorted (if e.deleted then some (.bool true) else none) = _
    cases e.deleted <;> rfl
  unfold readEntity Entity.sortedByKey
  rw [hprops, hrefs, hdeleted]
  cases e.deleted <;> rfl

/-! ## Written documents -/

/-- The element of a document that binds namespaces. -/
def writeContext (bindings : OrderedMap String String) : Json := .object [
  ("id", .string contextId),
  ("namespaces", .object (bindings.toList.map fun e => (e.1, .string e.2)))]

/-- The document that binds namespaces and holds entities. -/
def write (bindings : OrderedMap String String) (es : List Entity) : Json :=
  .array (writeContext bindings :: es.map writeEntity)

/-- An identifier that an entity of a document can have. -/
def IsEntityId (id : String) : Prop := id ≠ contextId ∧ id ≠ continuationId

theorem member?_id_writeEntity (e : Entity) :
    (writeEntity e).sorted.member? "id" = some (.string e.id) := by
  rw [member?_writeEntity]
  rfl

theorem read_writeContext (parts : Parts) (n : Nat) (bindings : OrderedMap String String) :
    parts.read n (writeContext bindings).sorted = .ok { parts with
      namespaces := parts.namespaces.bindAll (Json.sortMembers bindings.toList) } := by
  have hnodup : ([("id", Json.string contextId), ("namespaces",
      .object (bindings.toList.map fun e => (e.1, .string e.2)))].map Prod.fst).Nodup := by
    simp only [List.map_cons, List.map_nil]
    decide
  have hmember := Json.member?_sorted_object hnodup
  have hid : (writeContext bindings).sorted.member? "id" = some (.string contextId) :=
    hmember "id"
  have hread : readContext (writeContext bindings).sorted =
      .ok (Json.sortMembers bindings.toList) := by
    rw [readContext, writeContext, hmember]
    exact @readTable_object _ Json.string readString? _ bindings (fun _ => rfl) fun _ _ => rfl
  unfold Parts.read
  simp only [hid, Option.bind_some, readString?, if_true, hread]

theorem read_writeEntity (parts : Parts) (n : Nat) {e : Entity} (h : e.Writable)
    (hid : IsEntityId e.id) :
    parts.read n (writeEntity e).sorted = .ok { parts with
      entities := parts.entities ++ [e.sortedByKey] } := by
  unfold Parts.read
  rw [member?_id_writeEntity]
  simp only [Option.bind_some, readString?, if_neg hid.1, if_neg hid.2, readEntity_writeEntity h]

theorem foldlM_read_writeEntity {es : List Entity} (h : ∀ e ∈ es, e.Writable ∧ IsEntityId e.id)
    (n : Nat) (parts : Parts) :
    ((es.map fun e => (writeEntity e).sorted).zipIdx n).foldlM
        (fun parts (element, position) => parts.read position element) parts =
      .ok { parts with entities := parts.entities ++ es.map Entity.sortedByKey } := by
  induction es generalizing n parts with
  | nil => rw [List.map_nil, List.map_nil, List.append_nil]; rfl
  | cons e es ih =>
    obtain ⟨hwritable, hid⟩ := h e List.mem_cons_self
    rw [List.map_cons, List.zipIdx_cons, List.foldlM_cons]
    simp only [read_writeEntity parts n hwritable hid]
    rw [ok_bind, ih fun e' he' => h e' (List.mem_cons_of_mem e he')]
    simp only [List.map_cons, List.append_assoc, List.singleton_append]

/-- **A written document is read back**, the predicates of its entities in the order of their
names. -/
theorem ofJson_write {bindings : OrderedMap String String} {es : List Entity}
    (h : ∀ e ∈ es, e.Writable ∧ IsEntityId e.id) :
    ofJson (write bindings es).sorted = Parts.collect
      ⟨Namespaces.standard.bindAll (Json.sortMembers bindings.toList), none,
        es.map Entity.sortedByKey⟩ := by
  rw [write, Json.sorted, ofJson, Parts.ofElements, Json.sortedItems_eq_map, List.map_cons,
    List.map_map, List.zipIdx_cons, List.foldlM_cons]
  simp only [read_writeContext]
  rw [ok_bind]
  have hrest := foldlM_read_writeEntity h (0 + 1)
    { namespaces := Namespaces.standard.bindAll (Json.sortMembers bindings.toList) }
  exact (congrArg (· >>= Parts.collect) hrest).trans (ok_bind _ _)

/-- **What is read from a document expands, one entity after another.** -/
theorem collect_eq_ok_iff {parts : Parts} {c : Collection} :
    parts.collect = .ok c ↔ ∃ es,
      List.Forall₂ (fun e e' => e.expand parts.namespaces = ⟨e', none⟩) parts.entities es ∧
      (es.map Entity.id).Nodup ∧
      c = ⟨parts.namespaces, parts.continuation, es, Collection.positions es⟩ := by
  unfold Parts.collect
  rw [bind_eq_ok_iff]
  constructor
  · rintro ⟨c₁, hadd, hexp⟩
    obtain ⟨-, rfl⟩ := Collection.addAll_eq_ok_iff.mp hadd
    exact Collection.expanded_eq_ok_iff.mp hexp
  · rintro ⟨es, hes, hnodup, rfl⟩
    exact ⟨_, Collection.addAll_eq_ok_iff.mpr ⟨Collection.nodup_ids_of_expand hes hnodup, rfl⟩,
      Collection.expanded_eq_ok_iff.mpr ⟨es, hes, hnodup, rfl⟩⟩

end Document

/-! ## Texts -/

/-- A text is read by its characters. -/
theorem Json.sortedOfText_of_toList {text : String} {chars : List Char} {v : Json}
    (h : text.toList = chars)
    (hread : ∃ r ∈ (Json.readValue chars).toOption, Json.skipBlank r.rest = [] ∧
      r.value.readableWithin Json.maxDepth = .ok () ∧ r.value.sorted = v) :
    sortedOfText text = .ok v := by
  obtain ⟨r, hr, hrest, hreadable, rfl⟩ := hread
  unfold sortedOfText ofText parse
  rw [h, eq_ok_of_mem_toOption hr]
  simp only [ok_bind, hrest, pure_eq_ok, hreadable]

theorem Document.parse_of_sortedOfText {text : String} {v : Json}
    (h : Json.sortedOfText text = .ok v) : parse text = ofJson v := by
  unfold parse
  rw [h]

end EntityGraph
