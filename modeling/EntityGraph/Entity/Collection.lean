import EntityGraph.Entity.Basic
import EntityGraph.Json.Value

/-!
# Collections

A collection is a list of entities that share a namespace table, with an index from identifiers
to positions. Expanding a collection rewrites one entity after another and replaces the index at
the end; when it fails on the way, the entities reached stay rewritten and the index stays the
old one.

Results:
* `entities_add`: a successful addition appends the entity.
* `add_eq_error_iff`: an addition fails exactly if the identifier is indexed.
-/

namespace EntityGraph

/-- Why a document or a collection of entities is refused. -/
inductive EntityError where
  /-- A short identifier whose label is not bound. -/
  | unknownLabel (label identifier : String)
  /-- Two entities of one collection with the same identifier. -/
  | duplicateEntity (id : String)
  /-- A document of another shape. -/
  | malformedDocument (reason : String)
  /-- A text that is no JSON, or an element with a field of another shape. -/
  | json (error : Json.Error)
  deriving DecidableEq, Repr

/-- The error of an identifier without expansion. -/
def EntityError.ofUnknownLabel (e : UnknownLabel) : EntityError :=
  .unknownLabel e.label e.identifier

/-- The text of an error. -/
def EntityError.message : EntityError → String
  | .unknownLabel label identifier =>
    "Unknown namespace prefix '" ++ label ++ "' in identifier: " ++ identifier
  | .duplicateEntity id => "Duplicate entity id: " ++ id
  | .malformedDocument reason => "Malformed entity document: " ++ reason
  | .json error => "JSON error: " ++ error.message

/-- Entities that share a namespace table. -/
structure Collection where
  namespaces : Namespaces
  /-- The paging token of the document that the entities were read from. -/
  continuation : Option String := none
  entities : List Entity := []
  /-- The position of each identifier. -/
  index : OrderedMap String Nat := ∅
  deriving DecidableEq, Inhabited

namespace Collection

/-- The collection without entities. -/
def empty (ns : Namespaces) : Collection := ⟨ns, none, [], ∅⟩

/-- Appends an entity whose identifier is new. -/
def add (c : Collection) (e : Entity) : Except EntityError Collection :=
  if c.index.contains e.id then .error (.duplicateEntity e.id)
  else .ok { c with
    entities := c.entities ++ [e]
    index := c.index.insert e.id c.entities.length }

/-- Appends entities until one of them fails. -/
def addAll (c : Collection) (es : List Entity) : Except EntityError Collection :=
  es.foldlM add c

/-- The entity with an identifier, given as written or in canonical form. -/
def get? (c : Collection) (id : String) : Option Entity :=
  ((c.index.get? id).or (c.index.get? (c.namespaces.canonical id))).bind (c.entities[·]?)

/-- The entities expanded one after another, with the index of those reached, up to the first
failure. -/
def expandFrom (ns : Namespaces) (position : Nat) (index : OrderedMap String Nat) :
    List Entity → Rewritten EntityError (List Entity × OrderedMap String Nat)
  | [] => ⟨([], index), none⟩
  | e :: rest =>
    let r := e.expand ns
    match r.error? with
    | some err => ⟨(r.value :: rest, index), some (.ofUnknownLabel err)⟩
    | none =>
      if index.contains r.value.id then
        ⟨(r.value :: rest, index), some (.duplicateEntity r.value.id)⟩
      else
        let more := expandFrom ns (position + 1) (index.insert r.value.id position) rest
        ⟨(r.value :: more.value.1, more.value.2), more.error?⟩

/-- Rewrites every entity into expanded form. -/
def expand (c : Collection) : Rewritten EntityError Collection :=
  let r := expandFrom c.namespaces 0 ∅ c.entities
  match r.error? with
  | some err => ⟨{ c with entities := r.value.1 }, some err⟩
  | none => ⟨{ c with entities := r.value.1, index := r.value.2 }, none⟩

/-- The expanded collection, if every entity expands. -/
def expanded (c : Collection) : Except EntityError Collection :=
  match c.expand with
  | ⟨c', none⟩ => .ok c'
  | ⟨_, some err⟩ => .error err

/-- A successful addition appends the entity and indexes its position. -/
theorem entities_add {c c' : Collection} {e : Entity} (h : c.add e = .ok c') :
    c'.entities = c.entities ++ [e] ∧ c'.index = c.index.insert e.id c.entities.length := by
  unfold add at h
  split at h
  · cases h
  · cases h; exact ⟨rfl, rfl⟩

/-- An addition fails exactly if the identifier is indexed. -/
theorem add_eq_error_iff {c : Collection} {e : Entity} {err : EntityError} :
    c.add e = .error err ↔ c.index.contains e.id = true ∧ err = .duplicateEntity e.id := by
  unfold add
  split
  · rename_i h
    simp [h, eq_comm]
  · rename_i h
    simp [h]

/-- Expansion keeps the number of entities, whether it completes or not. -/
theorem length_entities_expand (c : Collection) :
    c.expand.value.entities.length = c.entities.length := by
  have key : ∀ (es : List Entity) (ns : Namespaces) (n : Nat) (idx : OrderedMap String Nat),
      (expandFrom ns n idx es).value.1.length = es.length := by
    intro es
    induction es with
    | nil => intros; rfl
    | cons e rest ih =>
      intro ns n idx
      unfold expandFrom
      simp only
      split
      · rfl
      · split
        · rfl
        · simp [ih]
  unfold expand
  simp only
  split <;> exact key _ _ _ _

end Collection

end EntityGraph
