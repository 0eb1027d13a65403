import EntityGraph.OrderedMap
import EntityGraph.Scenario.Error
import EntityGraph.Text.Lines

/-!
# Operations files

An operations file holds named steps. A line that begins with `--#` names the step whose block
follows; in a block, a line `-- @param $name = value` sets a parameter, other lines that begin
with `--` are comments, and the rest is the body. What stands before the first block counts for
nothing. Of several blocks with one name the last body that is not blank wins, and so do the last
parameters if there are any.

Results:
* `body?_ofBlocks_eq_none_iff`: a step is there exactly if one of its blocks has a body.
-/

namespace EntityGraph

namespace Operations

/-- What a line of an operations file says. -/
inductive Line where
  /-- The start of the block of a step. -/
  | marker (name : List Char)
  | parameter (name value : List Char)
  | comment
  | body (line : List Char)
  deriving DecidableEq

/-- The start of a line that names a step. -/
def markerStart : List Char := "--#".toList

/-- The start of a line that sets a parameter. -/
def parameterStart : List Char := "-- @param ".toList

/-- The start of a line that does not belong to a body. -/
def commentStart : List Char := "--".toList

/-- The name and the value of a parameter. The name may stand behind dollar signs. -/
def readParameter? (s : List Char) : Option (List Char × List Char) :=
  (Text.cutList? '=' s).bind fun (name, value) =>
    let name := (Text.trimList name).dropWhile (· == '$')
    if name.isEmpty then none else some (name, Text.trimList value)

/-- What a line says. Blanks around it do not matter, but they stay in a body. -/
def Line.read (line : List Char) : Line :=
  let trimmed := Text.trimList line
  match Text.stripList? markerStart trimmed with
  | some name => .marker (Text.trimList name)
  | none =>
    match Text.stripList? parameterStart trimmed with
    | some s =>
      match readParameter? s with
      | some (name, value) => .parameter name value
      | none => .comment
    | none => if commentStart.isPrefixOf trimmed then .comment else .body line

/-- The lines that belong to one marker. -/
structure Block where
  name : String
  /-- The body without the blanks at both ends. -/
  body : String
  parameters : OrderedMap String String

/-- The body that lines make up. -/
def bodyOf (lines : List Line) : String :=
  String.ofList (Text.trimList (lines.flatMap fun line =>
    match line with
    | .body s => s ++ ['\n']
    | _ => []))

/-- The parameters that lines set, of one name the last. -/
def parametersOf (lines : List Line) : OrderedMap String String :=
  .ofList (lines.filterMap fun line =>
    match line with
    | .parameter name value => some (String.ofList name, String.ofList value)
    | _ => none)

/-- Splits lines into those before any marker and the blocks; none if a marker names no step. -/
def blocks? : List Line → Option (List Line × List Block)
  | [] => some ([], [])
  | .marker name :: lines => do
    let (own, rest) ← blocks? lines
    if name.isEmpty then none
    else return ([], ⟨String.ofList name, bodyOf own, parametersOf own⟩ :: rest)
  | line :: lines => do
    let (own, rest) ← blocks? lines
    return (line :: own, rest)

end Operations

/-- The steps of an operations file. -/
structure Operations where
  /-- The names of the blocks in order. -/
  order : List String := []
  bodies : OrderedMap String String := ∅
  parameters : OrderedMap String (OrderedMap String String) := ∅

namespace Operations

/-- Adds a block. -/
def add (ops : Operations) (b : Block) : Operations where
  order := ops.order ++ [b.name]
  bodies := if b.body.isEmpty then ops.bodies else ops.bodies.insert b.name b.body
  parameters :=
    if b.parameters.toList.isEmpty then ops.parameters
    else ops.parameters.insert b.name b.parameters

/-- The operations that blocks make up. -/
def ofBlocks (bs : List Block) : Operations := bs.foldl add {}

/-- The operations that a text describes. -/
def parse (text : String) : Except ScenarioError Operations :=
  match blocks? ((Text.lineLists text.toList).map Line.read) with
  | some (_, bs) => .ok (ofBlocks bs)
  | none => .error (.operations "<inline>" "empty step name after --#")

/-- The body of a step as it is written. -/
def body? (ops : Operations) (name : String) : Option String := ops.bodies.get? name

/-- A text with the values of parameters put in. -/
def substitute (parameters : OrderedMap String String) (body : String) : String :=
  parameters.toList.foldl (fun s (name, value) => Text.replace ("$" ++ name) value s) body

/-- The body of a step with the values of its parameters put in. -/
def step? (ops : Operations) (name : String) : Option String :=
  (ops.body? name).map fun body =>
    match ops.parameters.get? name with
    | some parameters => substitute parameters body
    | none => body

/-- A step is there exactly if one of its blocks has a body. -/
theorem body?_ofBlocks_eq_none_iff {bs : List Block} {name : String} :
    (ofBlocks bs).body? name = none ↔ ∀ b ∈ bs, b.name = name → b.body = "" := by
  suffices ∀ (bs : List Block) (ops : Operations), (bs.foldl add ops).body? name = none ↔
      ops.body? name = none ∧ ∀ b ∈ bs, b.name = name → b.body = "" by
    have := this bs {}
    simpa [ofBlocks, body?] using this
  intro bs
  induction bs with
  | nil => simp
  | cons b bs ih =>
    intro ops
    rw [List.foldl_cons, ih]
    by_cases hb : b.body = ""
    · simp [add, body?, hb]
    · by_cases hn : b.name = name <;> simp [add, body?, hb, hn, OrderedMap.get?_insert]

end Operations

/-- What a step asks for. -/
inductive Command where
  /-- The validation of the entities of a document. -/
  | entities (document : String)
  /-- The validation of a stored dataset. -/
  | dataset (name : String)
  /-- The validation of the whole store. -/
  | store
  deriving DecidableEq, Repr

/-- The command that the body of a step gives. -/
def Command.parse (step body : String) : Except ScenarioError Command :=
  let body := Text.trim body
  if Text.startsWith "[" body then .ok (.entities body)
  else
    match Text.words body with
    | ["VALIDATE", "SCHEMA"] => .ok .store
    | ["VALIDATE", "DATASET", name] => .ok (.dataset name)
    | _ => .error (.step step ("unrecognised step body: " ++ body))

end EntityGraph
