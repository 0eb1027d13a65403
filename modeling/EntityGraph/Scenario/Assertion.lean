import EntityGraph.Namespaces
import EntityGraph.Text.Outline
import EntityGraph.Validation.Violation

/-!
# Assertions

An assertion says what the outcome of a step has to be. An expected error decides alone; all
other expectations are about the findings of a completed validation, and the first that is not
met is reported.
-/

namespace EntityGraph

/-- The findings of a step, or the text of the error that stopped it. -/
abbrev Outcome := Except String (List Finding)

/-- What the outcome of a step has to be. -/
structure Assertion where
  /-- The number of violations. -/
  count? : Option Nat := none
  /-- The numbers of violations of certain kinds. -/
  kinds : List (Violation.Kind × Nat) := []
  /-- Entities that each have a violation. -/
  entities : List String := []
  /-- The entities with violations in the order in which they are found first. -/
  onlyEntities? : Option (List String) := none
  /-- Texts that each occur in some message. -/
  fragments : List String := []
  /-- A text that occurs in the error that stops the step. -/
  error? : Option String := none
  /-- A condition on the findings. -/
  condition? : Option (List Finding → Bool) := none
  deriving Inhabited

namespace Assertion

/-- The findings as they stand in a report, one on each line. -/
def describe (found : List Finding) : String :=
  if found.isEmpty then "  (none)" else "\n".intercalate (found.map fun f => "  " ++ f.display)

/-- The entities of findings, each once, in order. -/
def entitiesOf (found : List Finding) : List String :=
  (found.filterMap (·.entity)).foldl (fun ids id => if id ∈ ids then ids else ids ++ [id]) []

/-- Two numbers that should agree. -/
def countMismatch? (found : List Finding) (noun : String) (expected actual : Nat) :
    Option String :=
  if actual = expected then none
  else some ("expected " ++ toString expected ++ " " ++ noun ++ "violation(s), got " ++
    toString actual ++ ":\n" ++ describe found)

/-- What is otherwise than expected of an error. -/
def errorMismatch? (expected : String) : Outcome → Option String
  | .error text =>
    if Text.contains expected text then none
    else some ("expected error containing '" ++ expected ++ "', got: " ++ text)
  | .ok found => some ("expected error containing '" ++ expected ++ "', but step produced " ++
      toString found.length ++ " violation(s)")

/-- What is otherwise than expected of the number of violations of a kind. -/
def kindMismatch? (found : List Finding) (kind : Violation.Kind) (expected : Nat) :
    Option String :=
  countMismatch? found (kind.name ++ " ") expected (found.countP fun f => f.kind == kind)

/-- An entity that was expected to have a violation. -/
def entityMismatch? (ns : Namespaces) (found : List Finding) (id : String) : Option String :=
  if (found.filterMap (·.entity)).any fun other => ns.same other id then none
  else some ("expected a violation for " ++ id ++ ":\n" ++ describe found)

/-- What is otherwise than expected of the entities with violations. -/
def onlyEntitiesMismatch? (ns : Namespaces) (found : List Finding) (expected : List String) :
    Option String :=
  let actual := entitiesOf found
  if actual.length = expected.length ∧ (actual.zip expected).all fun e => ns.same e.1 e.2 then none
  else some ("violating entities mismatch:\n  expected: " ++ (Outline.texts expected).line ++
    "\n  actual:   " ++ (Outline.texts actual).line)

/-- A text that was expected to occur in a message. -/
def fragmentMismatch? (found : List Finding) (fragment : String) : Option String :=
  if found.any fun f => Text.contains fragment f.message then none
  else some ("no violation message contains '" ++ fragment ++ "':\n" ++ describe found)

/-- What is otherwise than expected of the findings. -/
def findingsMismatch? (a : Assertion) (ns : Namespaces) (found : List Finding) : Option String :=
  a.count?.bind (fun n => countMismatch? found "" n found.length) <|>
  a.kinds.findSome? (fun (kind, n) => kindMismatch? found kind n) <|>
  a.entities.findSome? (entityMismatch? ns found) <|>
  a.onlyEntities?.bind (onlyEntitiesMismatch? ns found) <|>
  a.fragments.findSome? (fragmentMismatch? found) <|>
  a.condition?.bind (fun holds => if holds found then none else some "custom assertion failed")

/-- What is otherwise than expected of an outcome. Identifiers may be written short. -/
def mismatch? (a : Assertion) (ns : Namespaces) (outcome : Outcome) : Option String :=
  match a.error? with
  | some expected => errorMismatch? expected outcome
  | none =>
    match outcome with
    | .error text => some ("step failed: " ++ text)
    | .ok found => a.findingsMismatch? ns found

/-- A kind with its expected number. -/
def kindOutline (e : Violation.Kind × Nat) : Outline := .tagged "" [.word e.1.name, .nat e.2]

/-- The assertion as it is shown. -/
def outline (a : Assertion) : Outline := .record "Assertion" [
  ("violations", .optional (a.count?.map .nat)),
  ("kinds", .list (a.kinds.map kindOutline)),
  ("entities", .texts a.entities),
  ("only_entities", .optional (a.onlyEntities?.map .texts)),
  ("message_contains", .texts a.fragments),
  ("error", .optional (a.error?.map .text)),
  ("custom", .optional (a.condition?.map fun _ => .text "<fn>"))]

end Assertion

end EntityGraph
