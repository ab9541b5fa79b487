import EntitySchema.Json.Printer
import EntitySchema.Json.Numeral
import EntitySchema.Proofs.Text.Numeral
import Mathlib.Data.List.TakeDrop
import Mathlib.Data.List.TakeWhile

/-!
Numbers in JSON text. Integers are read back. Floats need not be: reading rounds more than once, so
a document states for each of its floats whether it is.
-/

namespace EntitySchema

namespace Text.Numeral

theorem head?_digits_ne_zero {n : Nat} (positive : 0 < n) : (digits n).head? ≠ some '0' := by
  induction n using digits.induct with
  | case1 n small =>
    rw [digits, if_pos small]
    revert positive small
    revert n
    decide
  | case2 n large ih =>
    rw [digits, if_neg large, List.head?_append, Option.or_of_isSome (by simp [digits_ne_nil])]
    exact ih (by omega)

end Text.Numeral

open Number Text.Numeral

namespace JsonNumber

end JsonNumber

/-! The characters of numbers. -/

/-- A character of a number: a digit, a sign, a point or an exponent mark. -/
def Text.Numeral.IsPart (c : Char) : Prop := isDigit c = true ∨ c ∈ ['-', '+', '.', 'e']

theorem isPart_of_mem_digits (n : Nat) : ∀ c ∈ digits n, IsPart c :=
  fun c member => .inl (isDigit_of_mem_digits n c member)

theorem isPart_of_mem_intChars (i : Int) : ∀ c ∈ intChars i, IsPart c := by
  intro c member
  rw [intChars] at member
  split at member
  · rcases List.mem_cons.mp member with rfl | digit
    · exact .inr (by decide)
    · exact isPart_of_mem_digits _ c digit
  · exact isPart_of_mem_digits _ c member

theorem isPart_of_mem_wholePoint (l : FloatLayout) :
    ∀ c ∈ if l.wholePoint then ['.', '0'] else [], IsPart c := by
  split
  · have dot : IsPart '.' := .inr (by decide)
    have zero : IsPart '0' := .inl (by decide)
    simpa using ⟨dot, zero⟩
  · simp

theorem isPart_of_mem_positionalChars (l : FloatLayout) {ds : List Char} (digits : ∀ c ∈ ds, IsPart c)
    (point : Int) : ∀ c ∈ l.positionalChars ds point, IsPart c := by
  have zero : IsPart '0' := .inl (by decide)
  have dot : IsPart '.' := .inr (by decide)
  intro c member
  rw [FloatLayout.positionalChars] at member
  split at member
  · simp only [List.cons_append, List.mem_cons, List.mem_append, List.mem_replicate] at member
    rcases member with rfl | rfl | ⟨_, rfl⟩ | digit
    · exact zero
    · exact dot
    · exact zero
    · exact digits c digit
  · split at member
    · simp only [List.mem_cons, List.mem_append] at member
      rcases member with front | rfl | behind
      · exact digits c (List.mem_of_mem_take front)
      · exact dot
      · exact digits c (List.mem_of_mem_drop behind)
    · simp only [List.mem_append, List.mem_replicate] at member
      rcases member with (digit | ⟨_, rfl⟩) | whole
      · exact digits c digit
      · exact zero
      · exact isPart_of_mem_wholePoint l c whole

theorem isPart_of_mem_scientificChars {ds : List Char} (digits : ∀ c ∈ ds, IsPart c)
    (leading : Int) : ∀ c ∈ FloatLayout.scientificChars ds leading, IsPart c := by
  intro c member
  unfold FloatLayout.scientificChars at member
  simp only [List.mem_cons, List.mem_append] at member
  rcases member with mantissa | rfl | rfl | exponent
  · split at mantissa
    · cases mantissa
    · exact digits c mantissa
    · simp only [List.mem_cons] at mantissa
      rcases mantissa with rfl | rfl | behind
      · exact digits _ (.head _)
      · exact .inr (by decide)
      · exact digits c (.tail _ behind)
  · exact .inr (by decide)
  · exact .inr (by split <;> decide)
  · exact isPart_of_mem_digits _ c exponent

theorem isPart_of_mem_floatChars {f : BinaryFormat} (l : FloatLayout) (x : FiniteBinary f) :
    ∀ c ∈ l.chars x, IsPart c := by
  have magnitude : ∀ c ∈ l.magnitudeChars x, IsPart c := by
    intro c member
    rw [FloatLayout.magnitudeChars] at member
    split at member
    · rcases List.mem_cons.mp member with rfl | whole
      · exact .inl (by decide)
      · exact isPart_of_mem_wholePoint l c whole
    · dsimp only at member
      split at member
      · exact isPart_of_mem_positionalChars l (isPart_of_mem_digits _) _ c member
      · exact isPart_of_mem_scientificChars (isPart_of_mem_digits _) _ c member
  intro c member
  rw [FloatLayout.chars] at member
  split at member
  · rcases List.mem_cons.mp member with rfl | rest
    · exact .inr (by decide)
    · exact magnitude c rest
  · exact magnitude c member

theorem JsonNumber.isPart_of_mem_chars (n : JsonNumber) : ∀ c ∈ n.chars, IsPart c := by
  cases n with
  | integer i fits => exact isPart_of_mem_intChars i
  | float x => exact isPart_of_mem_floatChars Json.floatLayout x

end EntitySchema
