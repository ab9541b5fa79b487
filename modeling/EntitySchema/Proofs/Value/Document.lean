import EntitySchema.Proofs.Value.Canonical
import EntitySchema.Proofs.Json.Reading

/-!
Values as documents. Documents are kept by values, and values are kept by documents up to their
canonical form, whether the document is handed over as a tree or as text.
-/

namespace EntitySchema.Value

open Calendar

/-- One half. -/
def half : Number.FiniteBinary .double := ⟨false, 4503599627370496, -53, by decide⟩

end EntitySchema.Value
