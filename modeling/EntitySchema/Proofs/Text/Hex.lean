import EntitySchema.Text.Hex
import EntitySchema.Proofs.Text.Blank

/-!
Hexadecimal digits are read back from their characters.
-/

namespace EntitySchema.Text.Hex

theorem digit?_digitChar (d : Fin 16) : digit? (digitChar d) = some d := by
  revert d
  decide

theorem digits_digitChars (ds : List (Fin 16)) : (ds.map digitChar).mapM digit? = some ds := by
  induction ds with
  | nil => rfl
  | cons d rest ih =>
    rw [List.map_cons, List.mapM_cons, digit?_digitChar, ih]
    rfl

theorem isBlank_digitChar (d : Fin 16) : isBlank (digitChar d) = false := by
  revert d
  decide

end EntitySchema.Text.Hex
