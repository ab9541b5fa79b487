import EntitySchema.Model.DataType
import EntitySchema.Sql.Category
import EntitySchema.Text.Numeral
import EntitySchema.Value.Basic

/-!
What can be wrong with a schema when a table is derived from it, and with a request when a statement
is compiled.
-/

namespace EntitySchema.Sql

inductive DeriveError where
  | emptyEntityName
  | emptyFieldName (entity : String)
  | duplicateColumn (entity column : String)
  | unsupportedDataType (field : String) (dataType : DataType)
  | invalidTypeOption (field option value : String)
  | conflictingTenantKey (column existing : String)
  | unknownUniqueColumn (entity column : String)
  | missingPrimaryKey (entity : String)
deriving DecidableEq

def DeriveError.message : DeriveError → String
  | .emptyEntityName => "entity name must not be empty"
  | .emptyFieldName entity => "entity '" ++ entity ++ "' has a field with an empty name"
  | .duplicateColumn entity column =>
    "entity '" ++ entity ++ "' declares column '" ++ column ++ "' more than once"
  | .unsupportedDataType field dataType =>
    "unsupported field data type '" ++ dataType.name ++ "' for field '" ++ field ++ "'"
  | .invalidTypeOption field option value =>
    "invalid option " ++ option ++ "='" ++ value ++ "' on field '" ++ field ++ "'"
  | .conflictingTenantKey column existing =>
    column ++ " must not be a tenant key because " ++ existing ++ " already is"
  | .unknownUniqueColumn entity column =>
    "unique rule on entity '" ++ entity ++ "' references unknown column '" ++ column ++ "'"
  | .missingPrimaryKey entity => "entity '" ++ entity ++ "' has no primary key"

inductive SqlError where
  | unknownColumn (table column : String)
  | nestedField (field : String)
  | unsupportedOperator (operator : String)
  | incompatibleOperator (operator column : String) (category : Category)
  | incompatibleValue (column : String) (category : Category) (found : Kind)
  | nullNotAllowed (column : String)
  | invalidValueCount (operator expected : String) (found : Nat)
  | missingTenantKey (column : String)
  | missingPrimaryKey (column : String)
  | noColumns
  | emptyBatch
  | raggedBatch (row : Nat)
  | noUpdatableColumns
  | emptyDeleteFilter
  | unrenderableValue (value : String)
deriving DecidableEq

def SqlError.message : SqlError → String
  | .unknownColumn table column => "unknown column '" ++ column ++ "' on table '" ++ table ++ "'"
  | .nestedField field => "nested field '" ++ field ++ "' is not supported"
  | .unsupportedOperator operator => "unsupported operator '" ++ operator ++ "'"
  | .incompatibleOperator operator column category =>
    "operator '" ++ operator ++ "' cannot be used on " ++ category.name ++ " column '" ++ column
      ++ "'"
  | .incompatibleValue column category found =>
    "incompatible value type " ++ found.name ++ " for " ++ category.name ++ " column '" ++ column
      ++ "'"
  | .nullNotAllowed column => "column '" ++ column ++ "' does not accept null"
  | .invalidValueCount operator expected found =>
    "operator '" ++ operator ++ "' expects " ++ expected ++ " value(s), got "
      ++ Text.Numeral.ofNat found
  | .missingTenantKey column => "tenant key '" ++ column ++ "' is required"
  | .missingPrimaryKey column => "primary key '" ++ column ++ "' is required"
  | .noColumns => "no columns provided"
  | .emptyBatch => "no rows provided"
  | .raggedBatch row =>
    "row " ++ Text.Numeral.ofNat row ++ " does not have the same columns as the first row"
  | .noUpdatableColumns => "no updatable columns provided"
  | .emptyDeleteFilter => "refusing to delete without a filter"
  | .unrenderableValue value => "cannot render " ++ value ++ " as a SQL literal"

end EntitySchema.Sql
