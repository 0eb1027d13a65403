/-!
# Errors of a scenario

Why a scenario cannot be run, or what it found to be otherwise than expected.
-/

namespace EntityGraph

/-- Why a scenario does not pass. -/
inductive ScenarioError where
  /-- A file that is not there, or holds no text. -/
  | unreadableFile (path : String)
  /-- An operations file that cannot be parsed. -/
  | operations (path reason : String)
  | schema (path reason : String)
  | seed (path reason : String)
  | settings (path reason : String)
  /-- A step that cannot be carried out. -/
  | step (name reason : String)
  /-- A step whose outcome is not as expected. -/
  | assertion (name reason : String)
  | unknownStep (name : String)
  | missingSchema (scenario : String)
  | missingOperations (scenario : String)
  deriving DecidableEq, Repr

/-- The text of an error. -/
def ScenarioError.message : ScenarioError → String
  | .unreadableFile path => "failed to read file '" ++ path ++ "': cannot be read"
  | .operations path reason => "failed to parse operations file '" ++ path ++ "': " ++ reason
  | .schema path reason => "failed to compile schema '" ++ path ++ "': " ++ reason
  | .seed path reason => "failed to load seed '" ++ path ++ "': " ++ reason
  | .settings path reason => "invalid settings '" ++ path ++ "': " ++ reason
  | .step name reason => "step '" ++ name ++ "' failed: " ++ reason
  | .assertion name reason => "assertion failed for step '" ++ name ++ "': " ++ reason
  | .unknownStep name => "step '" ++ name ++ "' not found in operations file"
  | .missingSchema name => "schema not specified for scenario '" ++ name ++ "'"
  | .missingOperations name => "operations not specified for scenario '" ++ name ++ "'"

end EntityGraph
