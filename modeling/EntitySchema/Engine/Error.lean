import EntitySchema.Model.Registry
import EntitySchema.Sql.Dialect
import EntitySchema.Validation.Rules

/-!
Failures of the engine and of the source that it asks for schemas.
-/

namespace EntitySchema

/-- Failures of a source of schemas. -/
inductive ProviderError where
  | notFound (name : String)
  | unavailable (reason : String)
deriving DecidableEq

def ProviderError.message : ProviderError → String
  | .notFound name => "schema not found: " ++ name
  | .unavailable reason => "schema provider unavailable: " ++ reason

inductive EngineError where
  /-- The settings are not a document that can be read. -/
  | config
  | unknownDialect (name : String)
  | provider (cause : ProviderError)
  | registry (cause : RegistryError)
  | derive (entity : String) (cause : Sql.DeriveError)
  /-- A rule of the schema cannot apply to its field. -/
  | misconfigured (cause : Validation.Misconfigured)
  | missingSchema (name : String)

def EngineError.message : EngineError → String
  | .config => "invalid engine configuration"
  | .unknownDialect name => "unknown SQL dialect '" ++ name ++ "'"
  | .provider cause => cause.message
  | .registry cause => cause.message
  | .derive entity cause => "failed to derive entity '" ++ entity ++ "': " ++ cause.message
  | .misconfigured cause => cause.message
  | .missingSchema name => "schema provider did not return '" ++ name ++ "'"

end EntitySchema
