import EntityGraph.Json.Reader
import EntityGraph.Text.Outline
import EntityGraph.Toml.Reader

/-!
# Settings of a validation

What a validation checks beyond the constraints themselves and how long it may take. Settings are
read from TOML, where unknown keys count for nothing, and from JSON, where they are an object or
the list of its values in order; either way what is missing has its default.
-/

namespace EntityGraph

/-- What a validation checks. -/
structure Settings where
  /-- Whether predicates that no constraint declares are violations. -/
  strict : Bool := false
  /-- Whether the data provider is asked about related entities. -/
  related : Bool := false
  /-- The datasets whose records count; all of them if there is none. -/
  context : List String := []
  /-- The milliseconds that a run may take. -/
  timeoutMs : Option Nat := none
  deriving DecidableEq, Repr, Inhabited

namespace Settings

/-! ## TOML -/

/-- A truth value. -/
def tomlBool : Toml.Value → Except Toml.Error Bool
  | .boolean b => .ok b
  | _ => .error (.mismatch "a boolean")

/-- The text of a string. -/
def tomlText : Toml.Value → Except Toml.Error String
  | .string s => .ok s
  | _ => .error (.mismatch "a string")

/-- The texts of an array. -/
def tomlTexts : Toml.Value → Except Toml.Error (List String)
  | .array items => items.mapM tomlText
  | _ => .error (.mismatch "an array")

/-- An integer that is not negative. -/
def tomlNat : Toml.Value → Except Toml.Error Nat
  | .integer (.ofNat n) => .ok n
  | _ => .error (.mismatch "an integer that is not negative")

/-- The value at a key, or the default. -/
def tomlField {α : Type} (read : Toml.Value → Except Toml.Error α) (key : String) (default : α)
    (entries : Toml.Entries) : Except Toml.Error α :=
  match Toml.lookup? key entries with
  | some v => read v
  | none => .ok default

/-- The settings that a TOML text describes. -/
def ofToml (text : String) : Except Toml.Error Settings := do
  let entries ← Toml.parse text
  return {
    strict := ← tomlField tomlBool "strict_validation" false entries
    related := ← tomlField tomlBool "validate_related" false entries
    context := ← tomlField tomlTexts "datasets_context" [] entries
    timeoutMs := ← tomlField (fun v => return some (← tomlNat v)) "timeout_ms" none entries }

/-! ## JSON -/

/-- The names of the fields in order. -/
def fieldNames : List String :=
  ["strict_validation", "validate_related", "datasets_context", "timeout_ms"]

/-- A truth value. -/
def jsonBool : Json → Except Json.Error Bool
  | .bool b => .ok b
  | _ => .error (.mismatch "a boolean")

/-- The text of a string. -/
def jsonText : Json → Except Json.Error String
  | .string s => .ok s
  | _ => .error (.mismatch "a string")

/-- The texts of an array. -/
def jsonTexts : Json → Except Json.Error (List String)
  | .array items => items.mapM jsonText
  | _ => .error (.mismatch "an array")

/-- An integer that is not negative, or null for none. -/
def jsonNat? : Json → Except Json.Error (Option Nat)
  | .null => .ok none
  | .int (.ofNat n) => .ok (some n)
  | _ => .error (.mismatch "an integer that is not negative")

/-- The value at a key, or the default. -/
def jsonField {α : Type} (read : Json → Except Json.Error α) (key : String) (default : α)
    (members : List (String × Json)) : Except Json.Error α :=
  match (members.find? fun e => e.1 == key).map Prod.snd with
  | some v => read v
  | none => .ok default

/-- The settings of an object, which has none of the fields twice. -/
def ofMembers (members : List (String × Json)) : Except Json.Error Settings := do
  match fieldNames.find? fun name => 1 < members.countP fun e => e.1 == name with
  | some name => .error (.repeated name)
  | none =>
    return {
      strict := ← jsonField jsonBool "strict_validation" false members
      related := ← jsonField jsonBool "validate_related" false members
      context := ← jsonField jsonTexts "datasets_context" [] members
      timeoutMs := ← jsonField jsonNat? "timeout_ms" none members }

/-- The settings that a JSON text describes. Only the values of the fields have to be readable. -/
def ofJson (text : String) : Except Json.Error Settings := do
  match ← Json.parse text with
  | .object members => ofMembers members
  | .array items =>
    if items.length ≤ fieldNames.length then ofMembers (fieldNames.zip items)
    else .error (.mismatch "at most four items")
  | _ => .error (.mismatch "settings")

/-- The settings as a JSON object. -/
def toJson (s : Settings) : Json := .object [
  ("strict_validation", .bool s.strict),
  ("validate_related", .bool s.related),
  ("datasets_context", .array (s.context.map .string)),
  ("timeout_ms", s.timeoutMs.elim .null fun n => .int n)]

/-! ## Outlines -/

/-- A fraction of a second without the zeros at its end, behind a point. -/
def fractionDigits (ms : Nat) : String :=
  let ds := [ms / 100 % 10, ms / 10 % 10, ms % 10].reverse.dropWhile (· == 0)
  if ds.isEmpty then "" else "." ++ String.ofList (ds.reverse.map Nat.digitChar)

/-- A duration in the greatest unit of which it has one at least. -/
def duration (ms : Nat) : String :=
  if 1000 ≤ ms then toString (ms / 1000) ++ fractionDigits (ms % 1000) ++ "s"
  else if 0 < ms then toString ms ++ "ms"
  else "0ns"

/-- The time limit as it is shown. -/
def timeoutOutline (s : Settings) : Outline :=
  .optional (s.timeoutMs.map fun ms => .word (duration ms))

/-- The settings as they are shown. -/
def outline (s : Settings) : Outline := .record "ValidatorSettings" [
  ("strict_validation", .bool s.strict),
  ("validate_related", .bool s.related),
  ("datasets_context", .texts s.context),
  ("timeout", s.timeoutOutline)]

end Settings

end EntityGraph
