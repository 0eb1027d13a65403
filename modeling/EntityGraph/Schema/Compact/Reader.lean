import EntityGraph.Schema.Compact.Basic
import EntityGraph.Yaml.Reader

/-!
# Reading compact schema documents

A compact document is a YAML sequence. Its first element binds the namespaces, and each further
element is a class block. The blocks are read one after another, and the first that cannot be
read decides the error. Keys that are not known are ignored.
-/

namespace EntityGraph.Compact

/-- Why a compact document cannot be read. -/
inductive ReadError where
  | yaml (error : Yaml.Error)
  /-- The document does not begin with bindings of namespaces. -/
  | missingNamespaces
  /-- The block at a position has no identifier. -/
  | missingClassId (position : Nat)
  deriving DecidableEq, Repr

/-- The text of an error. -/
def ReadError.message : ReadError → String
  | .yaml error => "YAML error: " ++ error.message
  | .missingNamespaces => "Compact schema document does not start with a namespaces block"
  | .missingClassId position => "Class block " ++ toString position ++ " has no id"

open Yaml (Value)

/-- The literal of a value. An integer above 64 signed bits is a floating-point number. -/
def readLiteral : Value → Except Yaml.Error Literal
  | .null => .ok .null
  | .bool b => .ok (.bool b)
  | .int i => .ok (if i ≤ maxInt then .int i else .float (.ofInt i))
  | .float x => .ok (.float x)
  | .string s => .ok (.string s)
  | _ => .error (.mismatch "a literal")

/-- Reads a property constraint. -/
def PropertyBlock.read (v : Value) : Except Yaml.Error PropertyBlock := do
  let es ← v.fields ["propertyClass", "datatype", "minCard", "maxCard", "sortable", "queryable",
    "isUnique"]
  return {
    propertyClass := ← Value.field es "propertyClass" none (Value.optional Value.text)
    datatype := ← Value.field es "datatype" none (Value.optional Value.text)
    min := ← Value.field es "minCard" none (Value.optional Value.integer)
    max := ← Value.field es "maxCard" none (Value.optional Value.integer)
    sortable := ← Value.field es "sortable" false Value.flag
    queryable := ← Value.field es "queryable" false Value.flag
    isUnique := ← Value.field es "isUnique" false Value.flag }

/-- Reads a reference constraint. -/
def ReferenceBlock.read (v : Value) : Except Yaml.Error ReferenceBlock := do
  let es ← v.fields ["referenceClass", "referencedEntityClass", "minCard", "maxCard",
    "inverseReferenceClass", "inverseMinCard", "inverseMaxCard"]
  return {
    referenceClass := ← Value.field es "referenceClass" none (Value.optional Value.text)
    referencedEntityClass :=
      ← Value.field es "referencedEntityClass" none (Value.optional Value.text)
    min := ← Value.field es "minCard" none (Value.optional Value.integer)
    max := ← Value.field es "maxCard" none (Value.optional Value.integer)
    inverseReferenceClass :=
      ← Value.field es "inverseReferenceClass" none (Value.optional Value.text)
    inverseMin := ← Value.field es "inverseMinCard" none (Value.optional Value.integer)
    inverseMax := ← Value.field es "inverseMaxCard" none (Value.optional Value.integer) }

/-- Reads an application constraint. -/
def ApplicationBlock.read (v : Value) : Except Yaml.Error ApplicationBlock := do
  let es ← v.fields ["rule"]
  return { rule := ← Value.field es "rule" none (Value.optional Value.text) }

/-- Reads a class block whose identifier may be absent. -/
def ClassBlock.read (v : Value) : Except Yaml.Error (Option ClassBlock) := do
  let es ← v.fields ["id", "superclasses", "label", "description", "isAbstract", "props", "refs",
    "propertyConstraints", "referenceConstraints", "applicationConstraints"]
  let id ← Value.field es "id" none (Value.optional Value.text)
  let block : ClassBlock := {
    id := id.getD ""
    superclasses := ← Value.field es "superclasses" [] (Value.items Value.text)
    label := ← Value.field es "label" none (Value.optional Value.text)
    description := ← Value.field es "description" none (Value.optional Value.text)
    isAbstract := ← Value.field es "isAbstract" false Value.flag
    props := .ofList (← Value.field es "props" [] (Value.table readLiteral))
    refs := .ofList (← Value.field es "refs" [] (Value.table Value.text))
    propertyConstraints :=
      ← Value.field es "propertyConstraints" [] (Value.items PropertyBlock.read)
    referenceConstraints :=
      ← Value.field es "referenceConstraints" [] (Value.items ReferenceBlock.read)
    applicationConstraints :=
      ← Value.field es "applicationConstraints" [] (Value.items ApplicationBlock.read) }
  return id.map fun _ => block

/-- Reads the bindings of the first element. -/
def readNamespaces (v : Value) : Except Yaml.Error (Option (List (String × String))) := do
  let es ← v.fields ["namespaces"]
  Value.field es "namespaces" none (Value.optional (Value.table Value.text))

/-- Reads the class blocks, the first of which stands at a position. -/
def readBlocks (position : Nat) : List Value → Except ReadError (List ClassBlock)
  | [] => .ok []
  | v :: rest =>
    match ClassBlock.read v with
    | .error e => .error (.yaml e)
    | .ok none => .error (.missingClassId position)
    | .ok (some block) => (readBlocks (position + 1) rest).map (block :: ·)

/-- Reads a document out of the elements of a sequence. -/
def Document.ofValues : List Value → Except ReadError Document
  | [] => .error .missingNamespaces
  | header :: blocks =>
    match readNamespaces header with
    | .error e => .error (.yaml e)
    | .ok none => .error .missingNamespaces
    | .ok (some pairs) => (readBlocks 1 blocks).map fun classes => ⟨.ofList pairs, classes⟩

/-- Reads a document. -/
def Document.parse (text : String) : Except ReadError Document :=
  match Yaml.sequenceOfText text with
  | .error e => .error (.yaml e)
  | .ok values => Document.ofValues values

end EntityGraph.Compact
