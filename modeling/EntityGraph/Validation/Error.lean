import EntityGraph.Schema.Cardinality
import EntityGraph.Store.Provider
import EntityGraph.Toml.Value

/-!
# Errors of a validation

An error means that a run could not be completed. What an entity breaks is never an error.
-/

namespace EntityGraph

/-- Why a validation gives no answer. -/
inductive ValidationError where
  /-- Related entities were to be checked without a data provider. -/
  | noDataProvider
  | schema (error : SchemaError)
  | provider (error : ProviderError)
  | cancelled
  | timedOut
  /-- A rule of the application that could not be evaluated. -/
  | rule (id reason : String)
  | settings (error : Toml.Error)
  deriving DecidableEq, Repr

/-- The text of an error. -/
def ValidationError.message : ValidationError → String
  | .noDataProvider => "Related-entity validation requires a data provider"
  | .schema error => error.message
  | .provider error => "Data provider error: " ++ error.message
  | .cancelled => "Validation cancelled"
  | .timedOut => "Validation timed out"
  | .rule id reason => "Application rule " ++ id ++ " failed: " ++ reason
  | .settings error => "Invalid validator settings: " ++ error.message

end EntityGraph
