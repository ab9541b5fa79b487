import EntitySchema.Proofs.Engine.Toolbox

/-!
What the configured length bounds decide when validators are built. They reach only the fields whose type
has a check of its own that asks for a length, and that have no length rule; bounds that leave no
length are reported of such a field as a length rule, and of no other field.
-/

namespace EntitySchema

open Validation

/-- The configured length bounds stand in for a rule that the field does not have. -/
structure Field.TakesDefaultBounds (f : Field) : Prop where
  own : f.dataType.ownsValidation = true
  not_enum : f.dataType ≠ .enumString ∧ f.dataType ≠ .enumNumber
  unruled : f.length? = none

/-- The configured bounds leave no length, and a field of the schema takes them. -/
def Schema.Starved (s : Schema) (config : Config) : Prop :=
  config.maxLength < config.minLength ∧ ∃ f ∈ s.fields, f.TakesDefaultBounds

/-- What is reported of a field that takes bounds between which there is no length. -/
def Field.starved (f : Field) (config : Config) : Misconfigured :=
  ⟨"length", f.name, .emptyRange config.minLength config.maxLength⟩

namespace Validation

variable {f : Field} {edit : Bool} {config other : Config}

namespace FieldRules

theorem lengthBounds_of_length? {bounds : UInt32 × UInt32} (ruled : f.length? = some bounds) :
    lengthBounds f config = lengthBounds f other := by
  rw [lengthBounds, lengthBounds, ruled, Option.getD_some, Option.getD_some]

theorem lengthBounds_of_takes (takes : f.TakesDefaultBounds) : lengthBounds f config =
    if config.maxLength < config.minLength then .error (f.starved config)
    else .ok (config.minLength, config.maxLength) := by
  rw [lengthBounds, takes.unruled]
  rfl

/-- Outside enumerations the configuration decides on nothing but the bounds. -/
theorem exists_ofOwnType (not_enum : f.dataType ≠ .enumString ∧ f.dataType ≠ .enumNumber) :
    ∃ rules, ∀ config, ofOwnType f config = (lengthBounds f config).map rules := by
  by_cases localized : f.dataType = .localizedText
  · exact ⟨fun bounds => [.localized bounds.1 bounds.2], fun config => by rw [ofOwnType, localized]⟩
  · refine ⟨fun bounds => [.length bounds.1 bounds.2, .format], fun config => ?_⟩
    unfold ofOwnType
    split
    · next enum => exact absurd enum not_enum.1
    · next enum => exact absurd enum not_enum.2
    · next text => exact absurd text localized
    · rfl

/-- The checks of a field that does not take the configured bounds do not depend on them. -/
theorem build_of_not_takes (free : ¬ f.TakesDefaultBounds) (edit : Bool) (config other : Config) :
    build f edit config = build f edit other := by
  unfold build
  by_cases own : f.dataType.ownsValidation = true
  · rw [if_pos own, if_pos own]
    suffices same : ofOwnType f config = ofOwnType f other by rw [same]
    by_cases not_enum : f.dataType ≠ .enumString ∧ f.dataType ≠ .enumNumber
    · obtain ⟨rules, read⟩ := exists_ofOwnType not_enum
      cases ruled : f.length? with
      | some bounds => rw [read, read, lengthBounds_of_length? ruled]
      | none => exact absurd ⟨own, not_enum, ruled⟩ free
    · unfold ofOwnType
      split
      · rfl
      · rfl
      · next text => exact absurd (text ▸ by decide) not_enum
      · next string number _ => exact absurd ⟨string, number⟩ not_enum
  · rw [if_neg own, if_neg own]

/-- A field that takes bounds without a length between them is reported. -/
theorem build_of_crossed (takes : f.TakesDefaultBounds) (crossed : config.maxLength < config.minLength) :
    build f edit config = .error (f.starved config) := by
  obtain ⟨rules, read⟩ := exists_ofOwnType takes.not_enum
  rw [build, if_pos takes.own, read, lengthBounds_of_takes takes, if_pos crossed]
  rfl

theorem exists_build_of_takes (takes : f.TakesDefaultBounds)
    (room : ¬ config.maxLength < config.minLength) : ∃ r, build f edit config = .ok r := by
  obtain ⟨rules, read⟩ := exists_ofOwnType takes.not_enum
  rw [build, if_pos takes.own, read, lengthBounds_of_takes takes, if_neg room]
  exact ⟨_, rfl⟩

/-- A field that has checks under some bounds has them under others, unless it takes bounds without a
length between them. -/
theorem exists_build_of_build (sound : ∃ r, build f edit other = .ok r)
    (fed : ¬ (config.maxLength < config.minLength ∧ f.TakesDefaultBounds)) :
    ∃ r, build f edit config = .ok r := by
  by_cases takes : f.TakesDefaultBounds
  · exact exists_build_of_takes takes fun crossed => fed ⟨crossed, takes⟩
  · rwa [build_of_not_takes takes edit config other]

end FieldRules

theorem Validator.exists_ofSchema_iff {s : Schema} : (∃ v, ofSchema s edit config = .ok v) ↔
    ∀ f ∈ s.fields, ∃ r, FieldRules.build f edit config = .ok r := by
  rw [ofSchema, ofFields, Outcome.exists_map_iff]
  simpa using Outcome.exists_mapM_iff (f := fun f => FieldRules.build f edit config) (P := fun _ => True)

/-- What is reported when a schema has no validator is reported of one of its fields. -/
theorem Validator.exists_of_ofSchema_eq_error {s : Schema} {cause : Misconfigured}
    (failed : ofSchema s edit config = .error cause) :
    ∃ f ∈ s.fields, FieldRules.build f edit config = .error cause :=
  Outcome.exists_of_mapM_eq_error (Outcome.map_eq_error.mp failed)

end Validation

namespace Schema

variable {s : Schema} {config other : Config}

/-- A schema that is sound under some bounds is sound under others, unless they starve it. -/
theorem Validates.iff_not_starved (sound : s.Validates other) :
    s.Validates config ↔ ¬ s.Starved config := by
  constructor
  · rintro valid ⟨crossed, f, declared, takes⟩
    obtain ⟨r, built⟩ := Validator.exists_ofSchema_iff.mp (valid false) f declared
    rw [FieldRules.build_of_crossed takes crossed] at built
    cases built
  · intro fed edit
    refine Validator.exists_ofSchema_iff.mpr fun f declared => ?_
    exact FieldRules.exists_build_of_build (Validator.exists_ofSchema_iff.mp (sound edit) f declared)
      fun both => fed ⟨both.1, f, declared, both.2⟩

/-- What is reported of a sound schema is the lack of a length for one of its fields, as a length rule that
the field does not have. -/
theorem Validates.exists_starved (sound : s.Validates other) {edit : Bool} {cause : Misconfigured}
    (failed : Validator.ofSchema s edit config = .error cause) :
    ∃ f ∈ s.fields, f.TakesDefaultBounds ∧ cause = f.starved config := by
  obtain ⟨f, declared, refused⟩ := Validator.exists_of_ofSchema_eq_error failed
  by_cases both : config.maxLength < config.minLength ∧ f.TakesDefaultBounds
  · obtain ⟨crossed, takes⟩ := both
    rw [FieldRules.build_of_crossed takes crossed] at refused
    cases refused
    exact ⟨f, declared, takes, rfl⟩
  · have sound := Validator.exists_ofSchema_iff.mp (sound edit) f declared
    obtain ⟨r, built⟩ := FieldRules.exists_build_of_build sound both
    rw [refused] at built
    cases built

end Schema

end EntitySchema
