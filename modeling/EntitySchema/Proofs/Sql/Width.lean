import EntitySchema.Proofs.Text.Numeral
import EntitySchema.Proofs.Validation.Texts
import EntitySchema.Sql.Dialect

/-!
The width of a text column. The type of a column bounds its texts by the first length rule of the field
or by the length that all texts of the field's type have. Texts that a validator accepts are in the
bound, but for enumerations: these are checked against their allowed values only.
-/

namespace EntitySchema.Sql

open Text.Numeral Validation

/-- The column type takes texts of this many characters at most. -/
def Bounded (sqlType : String) (n : Nat) : Prop :=
  sqlType = "character varying(" ++ ofNat n ++ ")" ∨ sqlType = "character(" ++ ofNat n ++ ")"

variable {n m : Nat}

/-- A number between two texts is told by the whole. -/
theorem eq_of_framed {front back : String} (same : front ++ ofNat m ++ back = front ++ ofNat n ++ back) :
    m = n := by
  have digits : digits m = digits n := by
    have chars := congrArg String.toList same
    simpa [ofNat] using chars
  rw [← value_digits m, digits, value_digits]

theorem not_framed (m n : Nat) :
    "character varying(" ++ ofNat m ++ ")" ≠ "character(" ++ ofNat n ++ ")" := by
  intro same
  have chars := congrArg String.toList same
  simp at chars

theorem bounded_varying (bounded : Bounded ("character varying(" ++ ofNat m ++ ")") n) : m = n := by
  rcases bounded with same | same
  · exact eq_of_framed same
  · exact absurd same (not_framed m n)

theorem bounded_character (bounded : Bounded ("character(" ++ ofNat m ++ ")") n) : m = n := by
  rcases bounded with same | same
  · exact absurd same.symm (not_framed n m)
  · exact eq_of_framed same

/-- A type that bounds texts starts with its word and ends with the bound. -/
theorem ends_of_bounded {sqlType : String} (bounded : Bounded sqlType n) :
    sqlType.toList.head? = some 'c' ∧ sqlType.toList.getLast? = some ')' := by
  rcases bounded with rfl | rfl <;>
    · rw [String.toList_append, List.getLast?_append]
      exact ⟨by simp, rfl⟩

/-- What bounds the texts of a column: the first length rule of the field, or the field's type. -/
theorem width_of_postgresType {f : Field} {sqlType : String} (derived : postgresType f = .ok sqlType)
    (bounded : Bounded sqlType n) : f.dataType.fixedLength? = some n ∨
      (f.dataType.isTextual = true ∧ ∃ least most, f.length? = some (least, most) ∧ n = most.toNat) := by
  have ends := ends_of_bounded bounded
  unfold postgresType at derived
  generalize f.dataType = t at derived ⊢
  cases t with
  | email | phone | string | secret | url | enumString =>
    dsimp only at derived
    split at derived
    · next least most first =>
      split_ifs at derived with positive
      · cases derived
        exact .inr ⟨rfl, least, most, first, (bounded_varying bounded).symm⟩
      · cases derived
        exact absurd ends (by decide)
    · cases derived
      exact absurd ends (by decide)
  | ulid =>
    cases derived
    have size : "character varying(26)" = "character varying(" ++ ofNat 26 ++ ")" := by
      simp [ofNat, digits, digitChar]
    rw [size] at bounded
    exact .inl (congrArg some (bounded_varying bounded))
  | countryCode =>
    cases derived
    have size : "character(2)" = "character(" ++ ofNat 2 ++ ")" := by
      simp [ofNat, digits, digitChar]
    rw [size] at bounded
    exact .inl (congrArg some (bounded_character bounded))
  | currencyCode =>
    cases derived
    have size : "character(3)" = "character(" ++ ofNat 3 ++ ")" := by
      simp [ofNat, digits, digitChar]
    rw [size] at bounded
    exact .inl (congrArg some (bounded_character bounded))
  | integer | enumNumber =>
    obtain ⟨wide, _, chosen⟩ := Outcome.bind_eq_ok.mp derived
    split_ifs at chosen
    · cases chosen
      exact absurd ends (by decide)
    · cases chosen
      exact absurd ends (by decide)
  | float =>
    obtain ⟨option, _, rest⟩ := Outcome.bind_eq_ok.mp derived
    cases option with
    | none =>
      cases rest
      exact absurd ends (by decide)
    | some precision =>
      obtain ⟨scale, _, done⟩ := Outcome.bind_eq_ok.mp rest
      cases done
      simp at ends
  | uuid | boolean | date | time | dateTime | localizedText =>
    cases derived
    exact absurd ends (by decide)

/-- Texts in rows that a validator accepts are in the bound of their column. Those of an enumeration are
the allowed values, whatever the bound. -/
theorem accepted_texts_fit {s : Schema} {edit : Bool} {config : Config} {v : Validator}
    (built : Validator.ofSchema s edit config = .ok v) {f : Field} (declared : f ∈ s.fields)
    {sqlType : String} (derived : postgresType f = .ok sqlType) (bounded : Bounded sqlType n) :
    (∀ row text, v.validateRecord row = .ok () → row.get? f.name = some (.text text) →
      f.Accepts edit config (.text text)) ∧
    (f.dataType ≠ .enumString → ∀ text, f.Accepts edit config (.text text) → text.length ≤ n) ∧
    (f.dataType = .enumString → ∃ values, f.oneOf? = some values ∧
      ∀ text, f.Accepts edit config (.text text) ↔ .text text ∈ values) := by
  refine ⟨fun _ _ accepted => Validator.accepts_of_accepted built accepted declared, ?_, ?_⟩
  · intro other text accepts
    rcases width_of_postgresType derived bounded with fixed | ⟨textual, least, most, first, rfl⟩
    · exact (accepts.fixed_length fixed).le
    · exact (accepts.length_rule textual other first).2
  · intro type
    obtain ⟨r, done⟩ := Validator.exists_build built declared
    exact Field.accepts_enumString_iff done type

/-- A short code. -/
def codeField : Field :=
  ⟨"code", "code", "", .string, .empty, true, none, [.length 2 4, .unique]⟩

/-- One of two kinds; the first does not keep the length rule. -/
def kindField : Field :=
  ⟨"kind", "kind", "", .enumString, .empty, false, none,
    [.length 1 3, .oneOf [.text "repair", .text "new"]]⟩

def ticketSchema : Schema := ⟨"Ticket", "Ticket", "", [codeField, kindField], []⟩

def ticketValidator : Validator where
  entity := "Ticket"
  edit := false
  fields := [⟨"code", .string, true, [.length 2 4]⟩,
    ⟨"kind", .enumString, false, [.oneOf [.text "repair", .text "new"]]⟩]

unseal Text.Numeral.digits in
theorem postgresType_ticket :
    (postgresType codeField = .ok "character varying(4)" ∧ Bounded "character varying(4)" 4) ∧
    (postgresType kindField = .ok "character varying(3)" ∧ Bounded "character varying(3)" 3) :=
  ⟨⟨rfl, .inl rfl⟩, ⟨rfl, .inl rfl⟩⟩

theorem accepted_texts_fit_tickets :
    Validator.ofSchema ticketSchema false .standard = .ok ticketValidator ∧
    postgresType codeField = .ok "character varying(4)" ∧
    (∀ text, codeField.Accepts false .standard (.text text) → text.length ≤ 4) ∧
    ∀ text, kindField.Accepts false .standard (.text text) ↔
      .text text ∈ [Value.text "repair", .text "new"] := by
  have built : Validator.ofSchema ticketSchema false .standard = .ok ticketValidator := rfl
  obtain ⟨⟨code, short⟩, ⟨kind, shorter⟩⟩ := postgresType_ticket
  obtain ⟨_, fits, _⟩ := accepted_texts_fit built (.head _) code short
  obtain ⟨_, _, allowed⟩ := accepted_texts_fit built (.tail _ (.head _)) kind shorter
  obtain ⟨values, first, texts⟩ := allowed rfl
  cases first
  exact ⟨built, code, fits nofun, texts⟩

/-- A kind that is accepted is longer than its column. -/
theorem allowed_kind_too_long :
    Validator.ofSchema ticketSchema false .standard = .ok ticketValidator ∧
    ticketValidator.validateRecord ⟨[("code", .text "AB7"), ("kind", .text "repair")]⟩ = .ok () ∧
    postgresType kindField = .ok "character varying(3)" ∧ Bounded "character varying(3)" 3 ∧
    ¬"repair".length ≤ 3 :=
  ⟨rfl, rfl, postgresType_ticket.2.1, postgresType_ticket.2.2, by decide⟩

end EntitySchema.Sql
