import EntitySchema.Sql.Dialect
import EntitySchema.Proofs.Outcome
import EntitySchema.Proofs.Text.Numeral
import Mathlib.Data.List.Infix

/-!
The category of a field's column is settled by the field's data type, in both dialects. Lengths and
precisions in the name of the column type add no word to it.
-/

namespace EntitySchema

namespace Text

open Numeral

theorem occursIn_eq_true {needle cs : List Char} : occursIn needle cs = true ↔ needle <:+: cs := by
  induction cs with
  | nil => simp [occursIn]
  | cons c rest ih =>
    rw [occursIn, Bool.or_eq_true, List.isPrefixOf_iff_prefix, ih, List.infix_cons_iff]

theorem contains_of_prefix {s needle : String} (starts : needle.toList <+: s.toList) :
    contains s needle = true :=
  occursIn_eq_true.mpr starts.isInfix

theorem contains_of_notMem {s needle : String} {c : Char} (inside : c ∈ needle.toList)
    (absent : c ∉ s.toList) : contains s needle = false := by
  rw [← Bool.not_eq_true, contains, occursIn_eq_true]
  intro found
  exact absent (found.subset inside)

theorem asciiLowerChar_of_isDigit {c : Char} (digit : isDigit c = true) : asciiLowerChar c = c := by
  have small : ¬ ('A' ≤ c ∧ c ≤ 'Z') := by
    rintro ⟨low, _⟩
    unfold isDigit digit? at digit
    split_ifs at digit with range
    · have high := range.2
      change 65 ≤ c.val.toNat at low
      change c.val.toNat ≤ 57 at high
      omega
    · cases digit
  rw [asciiLowerChar, if_neg small]

/-- In lower case the text has only these letters, and digits. -/
def SpelledWith (letters : List Char) (s : String) : Prop :=
  ∀ c ∈ (asciiLower s).toList, c ∈ letters ∨ isDigit c = true

theorem spelledWith_of_all {letters : List Char} {s : String}
    (known : (asciiLower s).toList.all (fun c => letters.contains c || isDigit c) = true) :
    SpelledWith letters s := by
  intro c member
  rcases Bool.or_eq_true_iff.mp (List.all_eq_true.mp known c member) with letter | digit
  · exact .inl (List.contains_iff_mem.mp letter)
  · exact .inr digit

theorem spelledWith_ofNat (letters : List Char) (n : Nat) : SpelledWith letters (ofNat n) := by
  intro c member
  rw [asciiLower, String.toList_ofList, ofNat, String.toList_ofList] at member
  obtain ⟨d, inside, rfl⟩ := List.mem_map.mp member
  have digit := isDigit_of_mem_digits n d inside
  rw [asciiLowerChar_of_isDigit digit]
  exact .inr digit

theorem toList_asciiLower_append (s t : String) :
    (asciiLower (s ++ t)).toList = (asciiLower s).toList ++ (asciiLower t).toList := by
  simp only [asciiLower, String.toList_ofList, String.toList_append, List.map_append]

theorem SpelledWith.append {letters : List Char} {s t : String} (first : SpelledWith letters s)
    (second : SpelledWith letters t) : SpelledWith letters (s ++ t) := by
  intro c member
  rw [toList_asciiLower_append] at member
  rcases List.mem_append.mp member with front | back
  · exact first c front
  · exact second c back

/-- A word with any other letter does not occur. -/
theorem SpelledWith.contains_eq_false {letters : List Char} {s needle : String}
    (spelled : SpelledWith letters s)
    (other : needle.toList.any (fun c => !letters.contains c && !isDigit c) = true) :
    contains (asciiLower s) needle = false := by
  obtain ⟨c, inside, foreign⟩ := List.any_eq_true.mp other
  rw [Bool.and_eq_true, Bool.not_eq_true', Bool.not_eq_true'] at foreign
  apply contains_of_notMem inside
  intro member
  rcases spelled c member with letter | digit
  · rw [List.contains_iff_mem.mpr letter] at foreign
    cases foreign.1
  · rw [digit] at foreign
    cases foreign.2

end Text

/-- The category of columns that hold values of the data type. -/
def DataType.category : DataType → Sql.Category
  | .email | .phone | .string | .secret | .url | .ulid | .uuid | .enumString | .countryCode
  | .currencyCode => .string
  | .integer | .enumNumber => .int
  | .float => .numeric
  | .boolean => .bool
  | .date | .time | .dateTime => .time
  | .localizedText => .json

namespace Sql

open Text

namespace Category

theorem ofSqlType_varying (n : Nat) :
    ofSqlType ("character varying(" ++ Numeral.ofNat n ++ ")") = .string := by
  have spelled : SpelledWith "character varying()".toList
      ("character varying(" ++ Numeral.ofNat n ++ ")") := by
    refine (SpelledWith.append ?_ (spelledWith_ofNat _ n)).append ?_
    · exact spelledWith_of_all (by decide)
    · exact spelledWith_of_all (by decide)
  have json : contains (asciiLower ("character varying(" ++ Numeral.ofNat n ++ ")")) "json" = false :=
    spelled.contains_eq_false (by decide)
  have bool : contains (asciiLower ("character varying(" ++ Numeral.ofNat n ++ ")")) "bool" = false :=
    spelled.contains_eq_false (by decide)
  have char : contains (asciiLower ("character varying(" ++ Numeral.ofNat n ++ ")")) "char" := by
    apply contains_of_prefix
    rw [toList_asciiLower_append, toList_asciiLower_append, List.append_assoc]
    exact List.IsPrefix.trans (by decide) (List.prefix_append _ _)
  simp [ofSqlType, words, json, bool, char]

theorem ofSqlType_numeric (precision scale : Nat) :
    ofSqlType ("numeric(" ++ Numeral.ofNat precision ++ "," ++ Numeral.ofNat scale ++ ")") =
      .numeric := by
  have spelled : SpelledWith "numeric(,)".toList
      ("numeric(" ++ Numeral.ofNat precision ++ "," ++ Numeral.ofNat scale ++ ")") := by
    refine ((SpelledWith.append (SpelledWith.append ?_ (spelledWith_ofNat _ precision)) ?_).append
      (spelledWith_ofNat _ scale)).append ?_
    · exact spelledWith_of_all (by decide)
    · exact spelledWith_of_all (by decide)
    · exact spelledWith_of_all (by decide)
  -- the words of all categories that are looked for earlier
  have absent : ∀ needle ∈ ["json", "bool", "char", "text", "uuid", "clob", "timestamp", "date", "time",
      "int", "serial"], contains (asciiLower ("numeric(" ++ Numeral.ofNat precision ++ "," ++
        Numeral.ofNat scale ++ ")")) needle = false := by
    intro needle member
    apply spelled.contains_eq_false
    revert needle
    decide
  have numeric : contains (asciiLower ("numeric(" ++ Numeral.ofNat precision ++ "," ++
      Numeral.ofNat scale ++ ")")) "numeric" := by
    apply contains_of_prefix
    simp only [toList_asciiLower_append, List.append_assoc]
    exact List.IsPrefix.trans (by decide) (List.prefix_append _ _)
  simp only [List.forall_mem_cons] at absent
  simp [ofSqlType, words, absent, numeric]

end Category

theorem postgresType_category {f : Field} {sqlType : String} (ok : postgresType f = .ok sqlType) :
    Category.ofSqlType sqlType = f.dataType.category := by
  unfold postgresType at ok
  generalize f.dataType = t at ok ⊢
  cases t with
  | email | phone | string | secret | url | enumString =>
    dsimp only at ok
    split at ok
    · split_ifs at ok with bounded
      · cases ok
        exact Category.ofSqlType_varying _
      · cases ok
        decide
    · cases ok
      decide
  | integer | enumNumber =>
    obtain ⟨wide, _, chosen⟩ := Outcome.bind_eq_ok.mp ok
    split_ifs at chosen
    · cases chosen
      decide
    · cases chosen
      decide
  | float =>
    obtain ⟨option, _, rest⟩ := Outcome.bind_eq_ok.mp ok
    cases option with
    | none =>
      cases rest
      decide
    | some precision =>
      obtain ⟨scale, _, done⟩ := Outcome.bind_eq_ok.mp rest
      cases done
      exact Category.ofSqlType_numeric _ _
  | ulid | uuid | boolean | date | time | dateTime | localizedText | countryCode | currencyCode =>
    cases ok
    decide

theorem sqliteType_category {f : Field} {sqlType : String} (ok : sqliteType f = .ok sqlType) :
    Category.ofSqlType sqlType = f.dataType.category := by
  unfold sqliteType at ok
  generalize f.dataType = t at ok ⊢
  cases t with
  | integer | enumNumber =>
    obtain ⟨wide, _, rfl⟩ := Outcome.map_eq_ok.mp ok
    decide
  | float =>
    obtain ⟨precision, _, rfl⟩ := Outcome.map_eq_ok.mp ok
    cases precision with
    | none => decide
    | some n =>
      change Category.ofSqlType "NUMERIC" = .numeric
      decide
  | email | phone | string | secret | url | ulid | uuid | boolean | date | time | dateTime | enumString
  | localizedText | countryCode | currencyCode =>
    cases ok
    decide

/-- The category of a column that is derived from a field is that of the field's data type. -/
theorem Dialect.columnType_category {d : Dialect} {f : Field} {sqlType : String}
    (ok : d.columnType f = .ok sqlType) : Category.ofSqlType sqlType = f.dataType.category := by
  cases d with
  | postgres => exact postgresType_category ok
  | sqlite => exact sqliteType_category ok

end Sql

end EntitySchema
