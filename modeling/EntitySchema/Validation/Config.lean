import EntitySchema.Model.Transport

/-!
The length bounds of formatted texts whose field has no length rule.
-/

namespace EntitySchema.Validation

structure Config where
  minLength : UInt32
  maxLength : UInt32
deriving DecidableEq

namespace Config

def standard : Config := ⟨0, 255⟩

instance : Inhabited Config := ⟨standard⟩

/-- Reads the bounds; one that is missing has its standard value. -/
def decode? (j : Json) : Option Config := do
  let m ← j.members? ["default_min_length", "default_max_length"]
  let minLength ← m.optional "default_min_length" standard.minLength decodeUInt32?
  let maxLength ← m.optional "default_max_length" standard.maxLength decodeUInt32?
  some { minLength, maxLength }

end Config

end EntitySchema.Validation
