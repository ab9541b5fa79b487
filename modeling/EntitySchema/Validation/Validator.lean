import EntitySchema.Validation.Rules
import EntitySchema.Model.Schema
import EntitySchema.Wire.Mapping

/-!
Validation of rows against a schema. An edit validator requires nothing, so that a partial update is
checked only for what it carries.
-/

namespace EntitySchema.Validation

structure Validator where
  entity : String
  edit : Bool
  fields : List FieldRules

namespace Validator

def ofFields (entity : String) (fields : List Field) (edit : Bool) (config : Config) :
    Except Misconfigured Validator :=
  (fields.mapM fun f => FieldRules.build f edit config).map fun rules => ⟨entity, edit, rules⟩

def ofSchema (s : Schema) (edit : Bool) (config : Config) : Except Misconfigured Validator :=
  ofFields s.name s.fields edit config

def fieldNames (v : Validator) : List String := v.fields.map FieldRules.name

/-- Adds what a row breaks to the violations found so far. -/
def collect (v : Validator) (row : Record) (found : Violations) : Violations :=
  v.fields.foldl (fun vs r => vs.addAll r.name (r.check (row.get? r.name))) found

/-- Checks a row. Entries without a field are not looked at. -/
def validateRecord (v : Validator) (row : Record) : Except Violations Unit :=
  (v.collect row .empty).toResult

/-- Checks the row of a typed record. -/
def validate {T : Type} (v : Validator) (m : Mapping T) (x : T) : Except Violations Unit :=
  v.validateRecord (m.write x)

end Validator

end EntitySchema.Validation
