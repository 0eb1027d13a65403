import EntityGraph.Files
import EntityGraph.Scenario.Assertion
import EntityGraph.Scenario.Operations
import EntityGraph.Schema.Source
import EntityGraph.Store.Basic
import EntityGraph.Validation.Validator

/-!
# Scenarios

A scenario is a schema, documents that fill a store, settings and rules for a validator, and
steps with the outcome each of them has to have. It is run on a file tree: everything is read
first, and the steps follow in order until one is otherwise than expected.
-/

namespace EntityGraph

/-- A step with what its outcome has to be. -/
structure Step where
  name : String
  assertion : Assertion

/-- What is run and what is expected of it. -/
structure Scenario (m : Type → Type) where
  name : String
  /-- The directory that paths are seen from. -/
  base : String := ""
  schemaFile? : Option String := none
  /-- Datasets with the documents that fill them, in order. -/
  seeds : List (String × String) := []
  /-- A file with settings, which goes before the settings given here. -/
  settingsFile? : Option String := none
  settings : Settings := {}
  /-- Whether the validator may ask the store. -/
  hasProvider : Bool := true
  rules : RuleRegistry m := .empty
  /-- The workers that validate the documents of steps. -/
  workers : Nat := 1
  operationsFile? : Option String := none
  /-- Operations given here, which go before the file. -/
  operations? : Option Operations := none
  steps : List Step := []

namespace Scenario

variable {m : Type → Type}

/-- Gives settings in place of any file. -/
def setSettings (sc : Scenario m) (settings : Settings) : Scenario m :=
  { sc with settingsFile? := none, settings }

/-- Gives operations as a text. -/
def readOperations (sc : Scenario m) (text : String) : Except ScenarioError (Scenario m) := do
  return { sc with operations? := some (← Operations.parse text) }

/-- A path as seen from the base. -/
def resolve (sc : Scenario m) (path : String) : String := Path.join sc.base path

/-- The text of a file, and the path by which it was found. -/
def read (sc : Scenario m) (files : Files) (path : String) :
    Except ScenarioError (String × String) :=
  let path := sc.resolve path
  match files.read? path with
  | some text => .ok (path, text)
  | none => .error (.unreadableFile path)

/-- The path of the schema. -/
def schemaPath (sc : Scenario m) : Except ScenarioError String :=
  match sc.schemaFile? with
  | some path => .ok (sc.resolve path)
  | none => .error (.missingSchema sc.name)

/-- The datasets with the paths of the documents that fill them. -/
def seedPaths (sc : Scenario m) : List (String × String) :=
  sc.seeds.map fun (dataset, path) => (dataset, sc.resolve path)

/-- The operations, given or from their file. -/
def loadOperations (sc : Scenario m) (files : Files) : Except ScenarioError Operations :=
  match sc.operations?, sc.operationsFile? with
  | some ops, _ => .ok ops
  | none, some path => do
    let (path, text) ← sc.read files path
    (Operations.parse text).mapError fun e => .operations path e.message
  | none, none => .error (.missingOperations sc.name)

/-- The settings, from their file or given. -/
def loadSettings (sc : Scenario m) (files : Files) : Except ScenarioError Settings :=
  match sc.settingsFile? with
  | none => .ok sc.settings
  | some path => do
    let (path, text) ← sc.read files path
    (Settings.ofToml text).mapError fun e => .settings path (ValidationError.settings e).message

/-- The schema. -/
def loadSchema (sc : Scenario m) (files : Files) : Except ScenarioError Schema := do
  let path ← sc.schemaPath
  (Schema.ofFile files path).mapError fun e => .schema path e.message

/-- The store, filled with the seeds in order. -/
def loadStore (sc : Scenario m) (files : Files) : Except ScenarioError Store :=
  sc.seeds.foldlM (fun s (dataset, path) => do
    let (path, text) ← sc.read files path
    let c ← (Document.parse text).mapError fun e => .seed path e.message
    return s.load dataset c.entities) .empty

variable [Monad m] [MonadExceptOf ValidationError m]

/-- The outcome of a validation. -/
def outcome (validation : m (List Violation)) : m Outcome := do
  match ← Validator.attempt validation with
  | .ok vs => return .ok (vs.map Violation.finding)
  | .error e => return .error e.message

/-- Carries out a command. -/
def execute (sc : Scenario m) (v : Validator m) (s : Schema) (step : String) :
    Command → m (Except ScenarioError Outcome)
  | .entities text =>
    match Document.parse text with
    | .error e => return .error (.step step e.message)
    | .ok c => return .ok (← outcome (v.validateParallel s c.entities sc.workers))
  | .dataset name => return .ok (← outcome (v.validateDataset s name))
  | .store => return .ok (← outcome (v.validateStore s))

/-- Carries out a step and holds its outcome against what is expected. -/
def runStep (sc : Scenario m) (ops : Operations) (v : Validator m) (s : Schema) (step : Step) :
    m (Except ScenarioError Unit) := do
  match ops.step? step.name with
  | none => return .error (.unknownStep step.name)
  | some body =>
    match Command.parse step.name body with
    | .error e => return .error e
    | .ok command =>
      match ← sc.execute v s step.name command with
      | .error e => return .error e
      | .ok outcome =>
        match step.assertion.mismatch? s.namespaces outcome with
        | none => return .ok ()
        | some reason => return .error (.assertion step.name reason)

/-- Carries out steps in order, up to the first that does not pass. -/
def runSteps (sc : Scenario m) (ops : Operations) (v : Validator m) (s : Schema) :
    List Step → m (Except ScenarioError Unit)
  | [] => return .ok ()
  | step :: steps => do
    match ← sc.runStep ops v s step with
    | .error e => return .error e
    | .ok () => sc.runSteps ops v s steps

/-- The operations, the schema and the validator. What cannot be read first, of operations, schema,
seeds and settings in this order, decides. -/
def load (sc : Scenario m) (files : Files) :
    Except ScenarioError (Operations × Schema × Validator m) := do
  let ops ← sc.loadOperations files
  let schema ← sc.loadSchema files
  let store ← sc.loadStore files
  let settings ← sc.loadSettings files
  let provider? := if sc.hasProvider then some store.provider else none
  return (ops, schema, ⟨settings, provider?, sc.rules, .quiet⟩)

/-- Runs a scenario on a file tree. -/
def run (sc : Scenario m) (files : Files) : m (Except ScenarioError Unit) := do
  match sc.load files with
  | .error e => return .error e
  | .ok (ops, schema, v) => sc.runSteps ops v schema sc.steps

end Scenario

end EntityGraph
