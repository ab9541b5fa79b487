import EntitySchema.Calendar.Timestamp
import EntitySchema.Proofs.Text.Blank
import Mathlib.Data.List.Infix

/-!
A text that is read as an instant has no blanks around it: it starts with a digit of the year, and
ends with its offset.
-/

namespace EntitySchema.Calendar

open Text Text.Numeral

theorem isBlank_of_isDigit {c : Char} (digit : isDigit c = true) : isBlank c = false := by
  unfold isDigit digit? at digit
  split_ifs at digit with range
  · obtain ⟨low, high⟩ := range
    change 48 ≤ c.toNat at low
    change c.toNat ≤ 57 at high
    simp only [isBlank, Bool.or_eq_false_iff, Bool.and_eq_false_iff, decide_eq_false_iff_not,
      beq_eq_false_iff_ne]
    omega
  · cases digit

theorem getLast?_of_suffix {cs rest : List Char} {c : Char} (behind : rest <:+ cs)
    (last : rest.getLast? = some c) : cs.getLast? = some c := by
  obtain ⟨front, rfl⟩ := behind
  rw [List.getLast?_append, last, Option.some_or]

namespace Scan

variable {cs rest : List Char}

/-- The digits that are taken stand in front. -/
theorem number_eq_some {least most n : Nat} (taken : number least most cs = some (n, rest)) :
    ∃ ds, cs = ds ++ rest ∧ (∀ d ∈ ds, isDigit d = true) ∧ least ≤ ds.length := by
  unfold number at taken
  dsimp only at taken
  split_ifs at taken with enough
  cases taken
  refine ⟨(cs.take most).takeWhile isDigit, ?_, ?_, enough⟩
  · have front : (cs.take most).takeWhile isDigit <+: cs :=
      (List.takeWhile_prefix _).trans (List.take_prefix _ _)
    conv_lhs => rw [← List.take_append_drop ((cs.take most).takeWhile isDigit).length cs]
    rw [← List.prefix_iff_eq_take.mp front]
  · intro d member
    exact List.mem_takeWhile_imp member

theorem suffix_of_number {least most n : Nat} (taken : number least most cs = some (n, rest)) :
    rest <:+ cs := by
  obtain ⟨ds, rfl, _⟩ := number_eq_some taken
  exact List.suffix_append ds rest

theorem last_of_number {least most n : Nat} (taken : number (least + 1) most cs = some (n, [])) :
    ∃ c, cs.getLast? = some c ∧ isDigit c = true := by
  obtain ⟨ds, rfl, digits, enough⟩ := number_eq_some taken
  rw [List.append_nil]
  cases last : ds.getLast? with
  | none =>
    rw [List.getLast?_eq_none_iff.mp last] at enough
    simp at enough
  | some c => exact ⟨c, rfl, digits c (List.mem_of_getLast? last)⟩

theorem char_eq_some {c : Char} (taken : char c cs = some rest) : cs = c :: rest := by
  cases cs with
  | nil => cases taken
  | cons d others =>
    rw [char] at taken
    split_ifs at taken with same
    cases taken
    rw [same]

theorem suffix_of_char {c : Char} (taken : char c cs = some rest) : rest <:+ cs := by
  rw [char_eq_some taken]
  exact List.suffix_cons c rest

theorem suffix_of_fraction {n : Nat} (taken : fraction cs = some (n, rest)) : rest <:+ cs := by
  unfold fraction at taken
  split at taken
  · obtain ⟨taken, number, same⟩ := Option.map_eq_some_iff.mp taken
    cases same
    exact ((List.dropWhile_suffix _).trans (suffix_of_number number)).trans (List.suffix_cons _ _)
  · cases taken
    exact List.suffix_refl _

end Scan

namespace Timestamp

theorem suffix_of_separator {cs rest : List Char} (taken : separator cs = some rest) :
    rest <:+ cs := by
  cases cs with
  | nil => cases taken
  | cons c others =>
    rw [separator] at taken
    split_ifs at taken
    cases taken
    exact List.suffix_cons c _

/-- An offset with nothing after it ends in a letter or a digit. -/
theorem last_of_offset? {cs : List Char} {minutes : Int} (taken : offset? cs = some (minutes, [])) :
    ∃ c, cs.getLast? = some c ∧ isBlank c = false := by
  cases cs with
  | nil => cases taken
  | cons c others =>
    simp only [offset?] at taken
    split_ifs at taken with letter
    · cases taken
      refine ⟨c, rfl, ?_⟩
      rcases letter with rfl | rfl <;> decide
    -- whatever the sign, the minutes are what is read last
    all_goals
      simp only [Option.bind_eq_bind, Option.bind_eq_some_iff, Prod.exists] at taken
      obtain ⟨_, _, _, _, hours, _, colon, _, _, last, done⟩ := taken
      split_ifs at done
      cases done
      obtain ⟨d, final, digit⟩ := Scan.last_of_number last
      have behind := (Scan.suffix_of_char colon).trans (Scan.suffix_of_number hours)
      exact ⟨d, getLast?_of_suffix (behind.trans (List.suffix_cons c _)) final,
        isBlank_of_isDigit digit⟩

theorem ends_of_ofChars? {cs : List Char} {t : Timestamp} (read : ofChars? cs = some t) :
    (∀ c ∈ cs.head?, isBlank c = false) ∧ ∀ c ∈ cs.getLast?, isBlank c = false := by
  unfold ofChars? at read
  obtain ⟨⟨_, _⟩, years, read⟩ := Option.bind_eq_some_iff.mp read
  obtain ⟨_, hyphen, read⟩ := Option.bind_eq_some_iff.mp read
  obtain ⟨⟨_, _⟩, months, read⟩ := Option.bind_eq_some_iff.mp read
  obtain ⟨_, hyphen2, read⟩ := Option.bind_eq_some_iff.mp read
  obtain ⟨⟨_, _⟩, days, read⟩ := Option.bind_eq_some_iff.mp read
  obtain ⟨_, mark, read⟩ := Option.bind_eq_some_iff.mp read
  obtain ⟨⟨_, _⟩, hours, read⟩ := Option.bind_eq_some_iff.mp read
  obtain ⟨_, colon, read⟩ := Option.bind_eq_some_iff.mp read
  obtain ⟨⟨_, _⟩, minutes, read⟩ := Option.bind_eq_some_iff.mp read
  obtain ⟨_, colon2, read⟩ := Option.bind_eq_some_iff.mp read
  obtain ⟨⟨_, _⟩, secs, read⟩ := Option.bind_eq_some_iff.mp read
  obtain ⟨⟨_, zone⟩, fraction, read⟩ := Option.bind_eq_some_iff.mp read
  obtain ⟨⟨_, rest⟩, offsets, read⟩ := Option.bind_eq_some_iff.mp read
  obtain ⟨_, _, read⟩ := Option.bind_eq_some_iff.mp read
  obtain ⟨_, _, done⟩ := Option.bind_eq_some_iff.mp read
  split_ifs at done with none
  rw [List.isEmpty_iff.mp none] at offsets
  obtain ⟨last, final, solid⟩ := last_of_offset? offsets
  have behind : zone <:+ cs :=
    (Scan.suffix_of_fraction fraction).trans <| (Scan.suffix_of_number secs).trans <|
      (Scan.suffix_of_char colon2).trans <| (Scan.suffix_of_number minutes).trans <|
      (Scan.suffix_of_char colon).trans <| (Scan.suffix_of_number hours).trans <|
      (suffix_of_separator mark).trans <| (Scan.suffix_of_number days).trans <|
      (Scan.suffix_of_char hyphen2).trans <| (Scan.suffix_of_number months).trans <|
      (Scan.suffix_of_char hyphen).trans (Scan.suffix_of_number years)
  constructor
  · obtain ⟨ds, rfl, digits, four⟩ := Scan.number_eq_some years
    cases ds with
    | nil => cases four
    | cons d others =>
      intro c first
      cases first
      exact isBlank_of_isDigit (digits _ (.head _))
  · intro c same
    rw [getLast?_of_suffix behind final] at same
    cases same
    exact solid

/-- What is read as an instant is read as the same instant without the blanks around it. -/
theorem parse?_trim {s : String} {t : Timestamp} (read : parse? s = some t) :
    parse? (trim s) = some t := by
  obtain ⟨front, back⟩ := ends_of_ofChars? read
  rw [parse?, toList_trim, trimChars_of_ends front back]
  exact read

end Timestamp

end EntitySchema.Calendar
