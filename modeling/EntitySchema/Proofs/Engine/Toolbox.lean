import EntitySchema.Engine.Toolbox
import EntitySchema.Proofs.Outcome

/-!
When a toolbox can be built. The schema has to have a table, and its rules have to apply to their
fields; a schema without a table is refused before any rule is looked at.
-/

namespace EntitySchema

namespace Schema

/-- The schema has a table. -/
def Derives (s : Schema) (config : EngineConfig) (dialect : Sql.Dialect) : Prop :=
  ∃ entity, Sql.Entity.derive dialect.columnType s (config.tableName s.name) = .ok entity

/-- The rules of the schema apply to their fields, for whole rows and for partial updates. -/
def Validates (s : Schema) (config : Validation.Config) : Prop :=
  ∀ edit, ∃ v, Validation.Validator.ofSchema s edit config = .ok v

end Schema

namespace Toolbox

variable {config : EngineConfig} {dialect : Sql.Dialect} {s : Schema} {t : Toolbox}

/-- The table and the validators are those of the schema. -/
structure BuiltBy (config : EngineConfig) (dialect : Sql.Dialect) (t : Toolbox) : Prop where
  entity : Sql.Entity.derive dialect.columnType t.schema (config.tableName t.schema.name) =
    .ok t.entity
  validator : Validation.Validator.ofSchema t.schema false config.validation = .ok t.validator
  editValidator : Validation.Validator.ofSchema t.schema true config.validation = .ok t.editValidator

theorem build_eq_ok : build config dialect s = .ok t ↔ t.schema = s ∧ t.BuiltBy config dialect := by
  unfold build
  simp only [Outcome.bind_eq_ok, Outcome.mapError_eq_ok]
  constructor
  · rintro ⟨entity, derived, validator, whole, editValidator, edits, done⟩
    cases done
    exact ⟨rfl, derived, whole, edits⟩
  · rintro ⟨rfl, derived, whole, edits⟩
    exact ⟨t.entity, derived, t.validator, whole, t.editValidator, edits, rfl⟩

theorem schema_of_build (ok : build config dialect s = .ok t) : t.schema = s := (build_eq_ok.mp ok).1

theorem exists_build : (∃ t, build config dialect s = .ok t) ↔
    s.Derives config dialect ∧ s.Validates config.validation := by
  simp only [build_eq_ok]
  constructor
  · rintro ⟨t, rfl, derived, whole, edits⟩
    exact ⟨⟨t.entity, derived⟩, Bool.rec ⟨t.validator, whole⟩ ⟨t.editValidator, edits⟩⟩
  · rintro ⟨⟨entity, derived⟩, validates⟩
    obtain ⟨validator, whole⟩ := validates false
    obtain ⟨editValidator, edits⟩ := validates true
    exact ⟨⟨s, entity, validator, editValidator⟩, rfl, derived, whole, edits⟩

theorem exists_build_error :
    (∃ cause, build config dialect s = .error cause) ↔
      (s.Derives config dialect → ¬ s.Validates config.validation) := by
  rw [← not_and, ← exists_build]
  cases build config dialect s with
  | error cause => exact iff_of_true ⟨cause, rfl⟩ nofun
  | ok t => exact iff_of_false nofun (not_not_intro ⟨t, rfl⟩)

/-- What is reported of a schema: that it has no table, or else a rule that does not apply. -/
theorem build_eq_error {cause : EngineError} (failed : build config dialect s = .error cause) :
    (¬ s.Derives config dialect ∧ ∃ reason, cause = .derive s.name reason) ∨
      (s.Derives config dialect ∧ ∃ reason, cause = .misconfigured reason) := by
  unfold build at failed
  simp only [Outcome.bind_eq_error, Outcome.mapError_eq_error, Outcome.mapError_eq_ok] at failed
  rcases failed with ⟨reason, refused, rfl⟩ | ⟨entity, derived, broken⟩
  · refine .inl ⟨?_, reason, rfl⟩
    rintro ⟨entity, derived⟩
    rw [refused] at derived
    cases derived
  · refine .inr ⟨⟨entity, derived⟩, ?_⟩
    rcases broken with ⟨reason, _, rfl⟩ | ⟨_, _, ⟨reason, _, rfl⟩ | ⟨_, _, wrong⟩⟩
    · exact ⟨reason, rfl⟩
    · exact ⟨reason, rfl⟩
    · cases wrong

theorem exists_build_misconfigured :
    (∃ reason, build config dialect s = .error (.misconfigured reason)) ↔
      s.Derives config dialect ∧ ¬ s.Validates config.validation := by
  constructor
  · rintro ⟨reason, failed⟩
    rcases build_eq_error failed with ⟨_, _, wrong⟩ | ⟨derives, _⟩
    · cases wrong
    · exact ⟨derives, exists_build_error.mp ⟨_, failed⟩ derives⟩
  · rintro ⟨derives, broken⟩
    obtain ⟨cause, failed⟩ := exists_build_error.mpr fun _ => broken
    rcases build_eq_error failed with ⟨absent, _⟩ | ⟨_, reason, rfl⟩
    · exact absurd derives absent
    · exact ⟨reason, failed⟩

end Toolbox

/-- Notes with a number and nothing else. -/
def noteSchema : Schema where
  name := "Note"
  label := ""
  description := ""
  fields := [⟨"id", "id", "", .string, .empty, false, none, [.primary]⟩]
  rules := []

end EntitySchema
