import EntityGraph.Entity.Collection
import EntityGraph.Json.Reader

/-!
# Entity documents

A document is a JSON array. An element with identifier `@context` binds namespaces, one with
identifier `@continuation` carries a paging token, and every other element is an entity. Members
are taken in the order of their keys. The entities are collected as they are written, and the
collection is then expanded.
-/

namespace EntityGraph

namespace Document

/-- The identifier of the element that binds namespaces. -/
def contextId : String := "@context"

/-- The identifier of the element that carries the paging token. -/
def continuationId : String := "@continuation"

/-- The members of an object-valued field, each read by `f`. -/
def readTable {α : Type} (expected : String) (f : Json → Option α) :
    Option Json → Except Json.Error (List (String × α))
  | none => .ok []
  | some (.object members) =>
    members.mapM fun (k, v) =>
      match f v with
      | some a => .ok (k, a)
      | none => .error (.mismatch expected)
  | some _ => .error (.mismatch expected)

/-- The text of a JSON string. -/
def readString? : Json → Option String
  | .string s => some s
  | _ => none

/-- The bindings of a context element. -/
def readContext (element : Json) : Except Json.Error (List (String × String)) :=
  readTable "an expansion" readString? (element.member? "namespaces")

/-- The token of a continuation element. -/
def readContinuation (element : Json) : Except Json.Error (Option String) :=
  match element.member? "token" with
  | none => .ok none
  | some .null => .ok none
  | some (.string s) => .ok (some s)
  | some _ => .error (.mismatch "a token")

/-- The entity that an element describes. -/
def readEntity (id : String) (element : Json) : Except Json.Error Entity := do
  let props ← readTable "a property" (Slot.ofJson? Literal.ofJson?) (element.member? "props")
  let refs ← readTable "a reference" (Slot.ofJson? readString?) (element.member? "refs")
  let deleted ← match element.member? "deleted" with
    | none => .ok false
    | some (.bool b) => .ok b
    | some _ => .error (.mismatch "a boolean")
  return ⟨id, .ofList props, .ofList refs, deleted⟩

/-- The parts of a document, before its entities are collected. -/
structure Parts where
  namespaces : Namespaces := .standard
  continuation : Option String := none
  entities : List Entity := []

/-- Reads one element into the parts. -/
def Parts.read (parts : Parts) (position : Nat) (element : Json) : Except EntityError Parts :=
  match (element.member? "id").bind readString? with
  | none => .error (.malformedDocument ("element " ++ toString position ++ " has no string id"))
  | some id =>
    if id = contextId then
      match readContext element with
      | .ok pairs => .ok { parts with namespaces := parts.namespaces.bindAll pairs }
      | .error e => .error (.json e)
    else if id = continuationId then
      match readContinuation element with
      | .ok token => .ok { parts with continuation := token }
      | .error e => .error (.json e)
    else
      match readEntity id element with
      | .ok entity => .ok { parts with entities := parts.entities ++ [entity] }
      | .error e => .error (.json e)

/-- Reads the elements one after another. -/
def Parts.ofElements (elements : List Json) : Except EntityError Parts :=
  elements.zipIdx.foldlM (fun parts (element, position) => parts.read position element) {}

/-- The collection of the parts, expanded. -/
def Parts.collect (parts : Parts) : Except EntityError Collection := do
  let c ← (Collection.empty parts.namespaces).addAll parts.entities
  ({ c with continuation := parts.continuation } : Collection).expanded

/-- The collection that a JSON value describes, its members sorted by key. -/
def ofJson : Json → Except EntityError Collection
  | .array elements => do (← Parts.ofElements elements).collect
  | _ => .error (.malformedDocument "document must be a JSON array")

/-- The collection that a text describes. -/
def parse (text : String) : Except EntityError Collection :=
  match Json.sortedOfText text with
  | .ok v => ofJson v
  | .error e => .error (.json e)

end Document

end EntityGraph
