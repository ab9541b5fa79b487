import EntitySchema.Proofs.Sql.Form
import EntitySchema.Proofs.Value.Exact

/-!
Literals read back. A literal is a single constant of the dialect, and the constant carries the data of
the value: a number is read without rounding, a text as it was, and the text of a list or of an object
as a document that shows it.
-/

namespace EntitySchema.Sql

open Number

/-- What a literal stands for. -/
inductive Constant where
  | null
  | bool (b : Bool)
  | number (q : ℚ)
  | text (s : String)

namespace Dialect

/-- SQLite has the numbers 1 and 0 in place of truth values. -/
def truth : Dialect → Bool → Constant
  | .postgres, b => .bool b
  | .sqlite, b => .number (if b then 1 else 0)

/-- The constant that a token is. -/
def constant? (d : Dialect) : Token → Option Constant
  | .word s =>
    if s = "NULL" then some .null
    else if s = "TRUE" then some (d.truth true)
    else if s = "FALSE" then some (d.truth false)
    else none
  | .number s => (rational? s.toList).map .number
  | .text s => some (.text s)
  | _ => none

/-- Reads a literal. -/
def readLiteral? (d : Dialect) (s : String) : Option Constant :=
  match Token.tokens? s with
  | some [t] => d.constant? t
  | _ => none

/-- The constant carries the data of the value. -/
def Carries (d : Dialect) : Value → Constant → Prop
  | .null, .null => True
  | .bool b, c => c = d.truth b
  | .int i, .number q => q = i.toInt
  | .uint u, .number q => q = u.toNat
  | .float x, .number q => rational? x.text.toList = some q ∧ IsNearest q x
  | .text s, .text t => s = t
  | .list items, .text s => ∃ j, ExactJson.read? s = some j ∧ (Value.list items).Shown j
  | .map entries, .text s => ∃ j, ExactJson.read? s = some j ∧ (Value.map entries).Shown j
  | .timestamp t, .text s => t.Named s
  | .decimal n, .number q => q = n.toRat
  | _, _ => False

variable (d : Dialect)

theorem constant?_number {cs : List Char} {q : ℚ} (read : rational? cs = some q) :
    d.constant? (.number (String.ofList cs)) = some (.number q) := by
  rw [constant?, String.toList_ofList, read, Option.map_some]

theorem constant?_bool (b : Bool) : d.constant? (d.literalToken (.bool b)) = some (d.truth b) := by
  have digit {c : Char} (proper : Text.Numeral.isDigit c = true) :
      rational? [c] = some (Text.Numeral.value [c] : ℚ) :=
    rational?_signed (magnitude?_whole (leading_singleton proper)) false
  cases d with
  | postgres => cases b <;> rfl
  | sqlite =>
    cases b with
    | false =>
      have read := digit (show Text.Numeral.isDigit '0' = true by decide)
      exact constant?_number .sqlite (read.trans (congrArg some Nat.cast_zero))
    | true =>
      have read := digit (show Text.Numeral.isDigit '1' = true by decide)
      exact constant?_number .sqlite (read.trans (congrArg some Nat.cast_one))

theorem exists_carries {v : Value} {s : String} (ok : d.literal v = .ok s) :
    ∃ c, d.constant? (d.literalToken v) = some c ∧ d.Carries v c := by
  cases v with
  | null => exact ⟨.null, rfl, trivial⟩
  | bool b => exact ⟨_, d.constant?_bool b, rfl⟩
  | int i => exact ⟨_, d.constant?_number (rational?_intChars i.toInt), rfl⟩
  | uint u => exact ⟨_, d.constant?_number (rational?_digits u.toNat), rfl⟩
  | float x =>
    cases x with
    | finite x =>
      have read := rational?_floatChars .plain x
      refine ⟨_, d.constant?_number read, ?_, isNearest_written _ x⟩
      rw [Binary.text, String.toList_ofList, read]
    | nan => cases ok
    | infinite negative => cases ok
  | text s => exact ⟨_, rfl, rfl⟩
  | list items => exact ⟨_, rfl, Value.exists_shown (.list items)⟩
  | map entries => exact ⟨_, rfl, Value.exists_shown (.map entries)⟩
  | timestamp t => exact ⟨_, rfl, t.named_chars .numeric⟩
  | decimal n => exact ⟨_, d.constant?_number (rational?_decimalChars n), rfl⟩

theorem readLiteral?_literal {v : Value} {s : String} (ok : d.literal v = .ok s) :
    d.readLiteral? s = d.constant? (d.literalToken v) := by
  obtain ⟨text, same, tokens⟩ := (isLiteral ok).written
  rw [ok, Except.ok.injEq] at same
  rw [readLiteral?, same, tokens]

/-- The only values without a literal are floats that are not finite. -/
theorem literal_cases (v : Value) : (∃ s, d.literal v = .ok s) ∨
    ∃ x, v = .float x ∧ x.isFinite = false ∧ d.literal v = .error (.unrenderableValue x.text) := by
  cases v with
  | float x =>
    cases x with
    | finite x => exact .inl ⟨_, rfl⟩
    | nan => exact .inr ⟨.nan, rfl, rfl, rfl⟩
    | infinite negative => exact .inr ⟨.infinite negative, rfl, rfl, rfl⟩
  | _ => exact .inl ⟨_, rfl⟩

/-- A literal is read back as a constant that carries the data of the value, whatever is nested in it.
A value without a literal is or holds a float that is not finite. -/
theorem literal_carries (v : Value) :
    (∃ s c, d.literal v = .ok s ∧ d.readLiteral? s = some c ∧ d.Carries v c) ∨
    ∃ x, Value.Within (.float x) v ∧ x.isFinite = false ∧
      d.literal v = .error (.unrenderableValue x.text) := by
  rcases d.literal_cases v with ⟨s, ok⟩ | ⟨x, rfl, unbounded, refused⟩
  · obtain ⟨c, read, carries⟩ := d.exists_carries ok
    exact .inl ⟨s, c, ok, (d.readLiteral?_literal ok).trans read, carries⟩
  · exact .inr ⟨x, .self _, unbounded, refused⟩

/-- Numbers in a list that are no numbers of its document: a decimal is a text there, and a float that
is not finite is null. -/
theorem listed_numbers_respelled :
    postgres.literal (.list [.decimal ⟨false, 150, 2, by decide, by decide⟩]) = .ok "'[\"1.50\"]'" ∧
      postgres.readLiteral? "'[\"1.50\"]'" = some (.text "[\"1.50\"]") ∧
      ExactJson.read? "[\"1.50\"]" = some (.array [.text "1.50"]) ∧
      postgres.literal (.list [.float .nan]) = .ok "'[null]'" := by
  refine ⟨?_, rfl, rfl, rfl⟩
  -- the digits of a number are found by division, which `rfl` does not open
  decide +kernel

end Dialect

end EntitySchema.Sql
