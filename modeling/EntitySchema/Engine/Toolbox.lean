import EntitySchema.Engine.Config
import EntitySchema.Sql.Compiler
import EntitySchema.Validation.Validator

/-!
What an engine derives from one schema: the table and the two validators.
-/

namespace EntitySchema

structure Toolbox where
  schema : Schema
  entity : Sql.Entity
  /-- Checks whole rows. -/
  validator : Validation.Validator
  /-- Checks partial updates. -/
  editValidator : Validation.Validator

/-- Derives the toolbox of a schema. -/
def Toolbox.build (config : EngineConfig) (dialect : Sql.Dialect) (s : Schema) :
    Except EngineError Toolbox := do
  let entity ← (Sql.Entity.derive dialect.columnType s (config.tableName s.name)).mapError
    (EngineError.derive s.name)
  let validator ← (Validation.Validator.ofSchema s false config.validation).mapError .misconfigured
  let editValidator ← (Validation.Validator.ofSchema s true config.validation).mapError .misconfigured
  .ok { schema := s, entity, validator, editValidator }

end EntitySchema
