import EntitySchema.Validation.Validator
import EntitySchema.Model.Adhoc

/-!
Validation of payloads against schemas assembled at run time. A holder has to carry a map, whose
violations are reported under the holder's name.
-/

namespace EntitySchema.Validation

/-- The rules of the fields, and each holder's name, necessity and own validator. -/
inductive AdhocValidator where
  | node (fields : Validator) (holders : List (String × Bool × AdhocValidator))

namespace AdhocValidator

def fields : AdhocValidator → Validator
  | .node fields _ => fields

/-- The name of the schema. -/
def name (v : AdhocValidator) : String := v.fields.entity

/-- The fields among entries. -/
def fieldsOf (entries : List (String × AdhocEntry)) : List Field :=
  entries.filterMap fun e => e.2.field?

/-- The holders among entries with their validators. -/
def holdersOf (edit : Bool) (config : Config) :
    List (String × AdhocEntry) → Except Misconfigured (List (String × Bool × AdhocValidator))
  | [] => .ok []
  | (_, .field _) :: rest => holdersOf edit config rest
  | (_, .holder name required title ⟨entries⟩) :: rest => do
    let holders ← holdersOf edit config entries
    let fields ← Validator.ofFields title (fieldsOf entries) edit config
    let others ← holdersOf edit config rest
    .ok ((name, required && !edit, .node fields holders) :: others)

def ofSchema (s : AdhocSchema) (edit : Bool) (config : Config) :
    Except Misconfigured AdhocValidator := do
  let holders ← holdersOf edit config s.entries.entries
  let fields ← Validator.ofFields s.name s.fields edit config
  .ok (.node fields holders)

mutual

/-- Adds what a payload breaks to the violations found so far. -/
def collect : AdhocValidator → Record → Violations → Violations
  | .node fields holders, row, found => collectHolders holders row (fields.collect row found)

def collectHolders :
    List (String × Bool × AdhocValidator) → Record → Violations → Violations
  | [], _, found => found
  | (name, required, inner) :: rest, row, found =>
    let next := match row.get? name with
      | some (.map nested) => found.mergeNested name (collect inner nested .empty)
      | none | some .null => if required then found.add name ⟨"required", "is required"⟩ else found
      | some other => found.add name ⟨"type", "expected map, got " ++ other.kind.name⟩
    collectHolders rest row next

end

/-- Checks a payload. -/
def validateRecord (v : AdhocValidator) (row : Record) : Except Violations Unit :=
  (v.collect row .empty).toResult

end AdhocValidator

end EntitySchema.Validation
