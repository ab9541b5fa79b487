import EntitySchema.Proofs.Sql.Buffer
import EntitySchema.Proofs.Sql.Token

/-!
Literals and placeholders are single tokens. Numbers have digits on both sides of a point, a truth
value is a word or a digit, and everything else stands in quotes.
-/

namespace EntitySchema.Sql

open Text.Numeral Number Token

/-! Numbers as they are written. -/

theorem isMagnitude_of_digits {cs : List Char} (nonempty : cs ≠ [])
    (digits : ∀ c ∈ cs, isDigit c = true) : IsMagnitude cs :=
  ⟨cs, [], (List.append_nil cs).symm, nonempty, digits, .inl rfl⟩

theorem isMagnitude_digit {c : Char} (digit : isDigit c = true) : IsMagnitude [c] :=
  isMagnitude_of_digits (List.cons_ne_nil c []) (by simpa using digit)

theorem isMagnitude_pointed {whole places : List Char} (nonempty : whole ≠ [])
    (digits : ∀ c ∈ whole, isDigit c = true) (fraction : ∀ c ∈ places, isDigit c = true) :
    IsMagnitude (whole ++ '.' :: places) :=
  ⟨whole, '.' :: places, rfl, nonempty, digits, .inr ⟨places, rfl, fraction⟩⟩

theorem isNumber_signed {negative : Bool} {cs : List Char} (magnitude : IsMagnitude cs) :
    IsNumber (if negative then '-' :: cs else cs) := by
  cases negative with
  | false => exact .inl magnitude
  | true => exact .inr ⟨cs, rfl, magnitude⟩

theorem isMagnitude_digits (n : Nat) : IsMagnitude (digits n) :=
  isMagnitude_of_digits (digits_ne_nil n) (isDigit_of_mem_digits n)

theorem proper_number (n : Nat) : (Token.number (Text.Numeral.ofNat n)).Proper := by
  rw [Proper, Text.Numeral.ofNat, String.toList_ofList]
  exact .inl (isMagnitude_digits n)

theorem isNumber_intChars (i : Int) : IsNumber (intChars i) := by
  rw [intChars]
  split
  · exact .inr ⟨_, rfl, isMagnitude_digits _⟩
  · exact .inl (isMagnitude_digits _)

/-- Wherever the point comes to lie, there is a digit in front of it. -/
theorem isMagnitude_positionalChars {ds : List Char} (nonempty : ds ≠ [])
    (digits : ∀ c ∈ ds, isDigit c = true) (point : Int) :
    IsMagnitude (FloatLayout.plain.positionalChars ds point) := by
  rw [FloatLayout.positionalChars]
  split
  · have zero : ∀ c ∈ ['0'], isDigit c = true := by simpa using isDigit_zero
    refine isMagnitude_pointed (List.cons_ne_nil '0' []) zero fun c member => ?_
    rcases List.mem_append.mp member with zero | digit
    · exact isDigit_of_mem_zeros _ c zero
    · exact digits c digit
  · next positive =>
    split
    · refine isMagnitude_pointed ?_ (fun c member => digits c (List.mem_of_mem_take member))
        fun c member => digits c (List.mem_of_mem_drop member)
      rw [Ne, List.take_eq_nil_iff, not_or]
      exact ⟨by omega, nonempty⟩
    · refine isMagnitude_of_digits (by simp [nonempty]) fun c member => ?_
      simp only [FloatLayout.plain, Bool.false_eq_true, ↓reduceIte, List.append_nil] at member
      rcases List.mem_append.mp member with digit | zero
      · exact digits c digit
      · exact isDigit_of_mem_zeros _ c zero

theorem isNumber_floatChars {f : BinaryFormat} (x : FiniteBinary f) :
    IsNumber (FloatLayout.plain.chars x) := by
  apply isNumber_signed
  rw [FloatLayout.magnitudeChars]
  split
  · exact isMagnitude_digit isDigit_zero
  · exact isMagnitude_positionalChars (digits_ne_nil _) (isDigit_of_mem_digits _) _

/-- A decimal is padded to one more digit than it has places. -/
theorem isNumber_decimalChars (d : Decimal) : IsNumber d.chars := by
  apply isNumber_signed
  have digits := isDigit_of_mem_padded (d.scale + 1) d.mantissa
  have long := length_padded (d.scale + 1) d.mantissa
  split
  · refine isMagnitude_of_digits (fun none => ?_) digits
    rw [none] at long
    exact absurd long (by simp)
  · refine isMagnitude_pointed ?_ (fun c member => digits c (List.mem_of_mem_take member))
      fun c member => digits c (List.mem_of_mem_drop member)
    rw [Ne, List.take_eq_nil_iff, not_or]
    refine ⟨by omega, fun none => ?_⟩
    rw [none] at long
    exact absurd long (by simp)

namespace Dialect

/-- The token of a value's literal. -/
def literalToken (d : Dialect) : Value → Token
  | .null => .word "NULL"
  | .bool b =>
    match d with
    | .postgres => .word (if b then "TRUE" else "FALSE")
    | .sqlite => .number (if b then "1" else "0")
  | .int i => .number (Value.int i).display
  | .uint u => .number (Value.uint u).display
  | .float x => .number (Value.float x).display
  | .decimal n => .number (Value.decimal n).display
  | v => .text v.display

/-- The token of a placeholder. -/
def placeholderToken (d : Dialect) (index : Nat) : Token :=
  .placeholder (match d with
    | .postgres => '$'
    | .sqlite => '?') index

/-- A numeral that is written as it stands. -/
theorem number_token {s : String} {cs : List Char} (chars : s = String.ofList cs)
    (number : IsNumber cs) :
    s = String.ofList (Token.number s).spelling ∧ (Token.number s).Proper := by
  refine ⟨String.ofList_toList.symm, ?_⟩
  rw [Proper, chars, String.toList_ofList]
  exact number

theorem text_token (s : String) :
    quoteText s = String.ofList (Token.text s).spelling ∧ (Token.text s).Proper :=
  ⟨String.ofList_toList.symm, trivial⟩

theorem boolLiteral_token (d : Dialect) (b : Bool) :
    d.boolLiteral b = String.ofList (d.literalToken (.bool b)).spelling ∧
      (d.literalToken (.bool b)).Proper := by
  cases d with
  | postgres => cases b <;> exact ⟨rfl, show isWord _ = true by decide⟩
  | sqlite =>
    cases b with
    | false => exact ⟨rfl, .inl (isMagnitude_digit isDigit_zero)⟩
    | true => exact ⟨rfl, .inl (isMagnitude_digit (c := '1') (by decide))⟩

theorem literal_token {d : Dialect} {v : Value} {s : String} (ok : d.literal v = .ok s) :
    s = String.ofList (d.literalToken v).spelling ∧ (d.literalToken v).Proper := by
  cases v <;> simp only [literal, Except.ok.injEq] at ok
  case null =>
    rw [← ok]
    exact ⟨rfl, show isWord _ = true by decide⟩
  case bool b =>
    rw [← ok]
    exact d.boolLiteral_token b
  case int i =>
    rw [← ok]
    exact number_token rfl (isNumber_intChars _)
  case uint u =>
    rw [← ok]
    exact number_token rfl (.inl (isMagnitude_digits _))
  case float x =>
    cases x with
    | finite x =>
      rw [if_pos (show (Binary.finite x).isFinite = true from rfl), Except.ok.injEq] at ok
      rw [← ok]
      exact number_token rfl (isNumber_floatChars x)
    | nan => cases ok
    | infinite negative => cases ok
  case decimal n =>
    rw [← ok]
    exact number_token rfl (isNumber_decimalChars n)
  all_goals
    rw [← ok]
    exact text_token _

theorem literalToken_not_mark (d : Dialect) (v : Value) :
    (d.literalToken v).isMarkToken = false := by
  cases v <;> cases d <;> rfl

theorem placeholder_token (d : Dialect) (index : Nat) :
    d.placeholder index = String.ofList (d.placeholderToken index).spelling ∧
      (d.placeholderToken index).Proper := by
  have joined (mark : Char) : String.ofList [mark] ++ Text.Numeral.ofNat index =
      String.ofList (mark :: digits index) := String.ext (by simp [Text.Numeral.ofNat])
  cases d with
  | postgres => exact ⟨joined '$', .inl rfl⟩
  | sqlite => exact ⟨joined '?', .inr rfl⟩

end Dialect

end EntitySchema.Sql
