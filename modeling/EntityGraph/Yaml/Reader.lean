import EntityGraph.Yaml.Value

/-!
# Reading values by type

Readers for the shapes that a document asks for. A tag of the application on a value is ignored,
and null stands for an absent optional value, an empty sequence and an empty mapping.
-/

namespace EntityGraph.Yaml.Value

/-- The text of a string. -/
def text (v : Value) : Except Error String :=
  match v.untag with
  | .string s => .ok s
  | _ => .error (.mismatch "a string")

/-- A truth value. -/
def flag (v : Value) : Except Error Bool :=
  match v.untag with
  | .bool b => .ok b
  | _ => .error (.mismatch "a boolean")

/-- An integer of 64 bits. -/
def integer (v : Value) : Except Error Int :=
  match v.untag with
  | .int i =>
    if i < 0x8000000000000000 then .ok i else .error (.mismatch "a signed integer of 64 bits")
  | _ => .error (.mismatch "an integer")

/-- A value that may be absent. -/
def optional {α : Type} (read : Value → Except Error α) : Value → Except Error (Option α)
  | .null => .ok none
  | v => (read v).map some

/-- The items of a sequence. -/
def items {α : Type} (read : Value → Except Error α) (v : Value) : Except Error (List α) :=
  match v.untag with
  | .sequence vs => vs.mapM read
  | .null => .ok []
  | _ => .error (.mismatch "a sequence")

/-- The entries of a mapping whose keys are strings, in order. -/
def entries (v : Value) : Except Error (List (String × Value)) :=
  match v.untag with
  | .mapping es => es.mapM fun (k, v) => do return (← k.text, v)
  | .null => .ok []
  | _ => .error (.mismatch "a mapping")

/-- The entries of a mapping whose keys are strings, their values read. -/
def table {α : Type} (read : Value → Except Error α) (v : Value) :
    Except Error (List (String × α)) := do
  (← v.entries).mapM fun (k, v) => do return (k, ← read v)

/-- The fields of a record: a mapping in which none of the given keys stands twice. -/
def fields (keys : List String) (v : Value) : Except Error (List (String × Value)) := do
  let es ← v.entries
  if keys.any fun key => 1 < (es.filter fun e => e.1 == key).length then throw .repeatedKey
  else return es

/-- The field of a key, read, or the default. -/
def field {α : Type} (es : List (String × Value)) (key : String) (default : α)
    (read : Value → Except Error α) : Except Error α :=
  match es.find? fun e => e.1 == key with
  | some (_, v) => read v
  | none => .ok default

end EntityGraph.Yaml.Value
