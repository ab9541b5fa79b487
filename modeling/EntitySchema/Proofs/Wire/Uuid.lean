import EntitySchema.Wire.Uuid
import EntitySchema.Proofs.Text.Hex

/-!
Identifiers are read back from their text.
-/

namespace EntitySchema

open Text

namespace Uuid

open Text.Hex

theorem length_chars (u : Uuid) : u.chars.length = 36 := by
  simp [chars, u.length_eq]

theorem isBlank_of_mem_chars (u : Uuid) : ∀ c ∈ u.chars, isBlank c = false := by
  have digit : ∀ c ∈ u.digits.map digitChar, isBlank c = false := by
    intro c member
    obtain ⟨d, _, rfl⟩ := List.mem_map.mp member
    exact isBlank_digitChar d
  intro c member
  simp only [chars, List.mem_append, List.mem_cons] at member
  rcases member with (((front | rfl | second) | rfl | third) | rfl | fourth) | rfl | last
  · exact digit c (List.mem_of_mem_take front)
  · decide
  · exact digit c (List.mem_of_mem_drop (List.mem_of_mem_take second))
  · decide
  · exact digit c (List.mem_of_mem_drop (List.mem_of_mem_take third))
  · decide
  · exact digit c (List.mem_of_mem_drop (List.mem_of_mem_take fourth))
  · decide
  · exact digit c (List.mem_of_mem_drop last)

/-- The hyphens are cut out, and the five groups stand side by side. -/
theorem ungroup?_groups {a b c d e : List Char} (first : a.length = 8) (second : b.length = 4)
    (third : c.length = 4) (fourth : d.length = 4) (last : e.length = 12) :
    ungroup? (a ++ '-' :: b ++ '-' :: c ++ '-' :: d ++ '-' :: e) =
      some (a ++ (b ++ (c ++ (d ++ e)))) := by
  unfold ungroup?
  dsimp only
  rw [if_pos (by simp [first, second, third, fourth, last])]
  simp [List.drop_append, List.drop_eq_nil_of_le, first, second, third, fourth]

theorem ungroup?_chars (u : Uuid) : ungroup? u.chars = some (u.digits.map digitChar) := by
  have full : (u.digits.map digitChar).length = 32 := by rw [List.length_map, u.length_eq]
  unfold chars
  generalize u.digits.map digitChar = cs at full
  have group (i : Nat) : (cs.drop i).take 4 ++ cs.drop (i + 4) = cs.drop i := by
    rw [← List.drop_drop]
    exact List.take_append_drop 4 _
  dsimp only
  rw [ungroup?_groups (by simp [full]) (by simp [full]) (by simp [full]) (by simp [full])
    (by simp [full]), group 16, group 12, group 8, List.take_append_drop]

theorem ofChars?_chars (u : Uuid) : ofChars? u.chars = some u := by
  have read : ofDigits? (u.digits.map digitChar) = some u := by
    rw [ofDigits?, digits_digitChars, Option.bind_some, dif_pos u.length_eq]
  have long : u.chars.length = 36 := u.length_chars
  rw [ofChars?, if_neg (by omega), unwrap, if_neg (by omega), if_neg (by omega), ungroup?_chars,
    Option.bind_some, read]

theorem ofChars?_text (u : Uuid) : ofChars? (trimChars u.text.toList) = some u := by
  have bare : trimChars u.chars = u.chars :=
    trimChars_of_ends (fun c first => u.isBlank_of_mem_chars c (List.mem_of_mem_head? first))
      (fun c last => u.isBlank_of_mem_chars c (List.mem_of_getLast? last))
  rw [text, String.toList_ofList, bare, ofChars?_chars]

end Uuid

end EntitySchema
