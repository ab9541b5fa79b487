import EntitySchema.Proofs.Calendar.Timestamp
import Mathlib.Data.Option.Basic

/-!
Dates, times of day and instants have no text in common: a date has no colon, a time of day has a colon
and no hyphen, and an instant has both.
-/

namespace EntitySchema.Calendar

open Text Text.Numeral

namespace Scan

/-- What stands in front of the rest is without this character. -/
def Without (c : Char) (cs rest : List Char) : Prop := ∃ front, cs = front ++ rest ∧ c ∉ front

variable {c : Char} {cs rest after : List Char}

theorem Without.trans (first : Without c cs rest) (second : Without c rest after) :
    Without c cs after := by
  obtain ⟨front, rfl, none⟩ := first
  obtain ⟨next, rfl, absent⟩ := second
  refine ⟨front ++ next, (List.append_assoc _ _ _).symm, ?_⟩
  rw [List.mem_append]
  exact not_or_intro none absent

theorem Without.notMem (all : Without c cs []) : c ∉ cs := by
  obtain ⟨front, rfl, none⟩ := all
  rwa [List.append_nil]

theorem without_cons {d : Char} (other : c ≠ d) (cs : List Char) : Without c (d :: cs) cs :=
  ⟨[d], rfl, mt List.mem_singleton.mp other⟩

theorem without_dropWhile {p : Char → Bool} (fails : p c = false) (cs : List Char) :
    Without c cs (cs.dropWhile p) := by
  refine ⟨cs.takeWhile p, List.takeWhile_append_dropWhile.symm, ?_⟩
  intro member
  rw [List.mem_takeWhile_imp member] at fails
  cases fails

theorem without_char {d : Char} (taken : char d cs = some rest) (other : c ≠ d) :
    Without c cs rest := by
  rw [char_eq_some taken]
  exact without_cons other rest

theorem without_number {least most n : Nat} (taken : number least most cs = some (n, rest))
    (digit : isDigit c = false) : Without c cs rest := by
  obtain ⟨ds, same, digits, _⟩ := number_eq_some taken
  refine ⟨ds, same, ?_⟩
  intro member
  rw [digits c member] at digit
  cases digit

theorem without_fraction {n : Nat} (taken : fraction cs = some (n, rest)) (digit : isDigit c = false)
    (point : c ≠ '.') : Without c cs rest := by
  unfold fraction at taken
  split at taken
  · next behind =>
    obtain ⟨⟨_, left⟩, read, same⟩ := Option.map_eq_some_iff.mp taken
    cases same
    exact ((without_cons point behind).trans (without_number read digit)).trans
      (without_dropWhile digit left)
  · cases taken
    exact ⟨[], rfl, List.not_mem_nil⟩

theorem without_field {n : Nat} (taken : field cs = some (n, rest)) (digit : isDigit c = false)
    (solid : isBlank c = false) : Without c cs rest :=
  (without_dropWhile solid cs).trans (without_number taken digit)

theorem without_year {n : Int} (taken : year cs = some (n, rest)) (digit : isDigit c = false)
    (solid : isBlank c = false) (unsigned : c ≠ '-' ∧ c ≠ '+') : Without c cs rest := by
  apply (without_dropWhile solid cs).trans
  change Without c (skipBlanks cs) rest
  unfold year at taken
  dsimp only at taken
  split at taken
  · next behind same =>
    obtain ⟨⟨_, _⟩, read, done⟩ := Option.map_eq_some_iff.mp taken
    cases done
    rw [same]
    exact (without_cons unsigned.1 behind).trans (without_number read digit)
  · next behind same =>
    obtain ⟨⟨_, _⟩, read, done⟩ := Option.map_eq_some_iff.mp taken
    cases done
    rw [same]
    exact (without_cons unsigned.2 behind).trans (without_number read digit)
  · obtain ⟨⟨_, _⟩, read, done⟩ := Option.map_eq_some_iff.mp taken
    cases done
    exact without_number read digit

theorem suffix_of_field {n : Nat} (taken : field cs = some (n, rest)) : rest <:+ cs :=
  (suffix_of_number taken).trans (List.dropWhile_suffix _)

/-- A character that is taken from the end of a list is in the list. -/
theorem mem_of_char {cs front : List Char} (taken : char c cs = some rest) (behind : cs <:+ front) :
    c ∈ front := by
  apply behind.subset
  rw [char_eq_some taken]
  exact .head _

end Scan

theorem Date.colon_notMem {cs : List Char} {d : Date} (read : ofChars? cs = some d) : ':' ∉ cs := by
  have digit : isDigit ':' = false := by decide
  have solid : isBlank ':' = false := by decide
  unfold ofChars? at read
  obtain ⟨⟨_, _⟩, years, read⟩ := Option.bind_eq_some_iff.mp read
  obtain ⟨_, hyphen, read⟩ := Option.bind_eq_some_iff.mp read
  obtain ⟨⟨_, _⟩, months, read⟩ := Option.bind_eq_some_iff.mp read
  obtain ⟨_, hyphen2, read⟩ := Option.bind_eq_some_iff.mp read
  obtain ⟨⟨_, _⟩, days, done⟩ := Option.bind_eq_some_iff.mp read
  dsimp only at done
  split_ifs at done with none
  rw [List.isEmpty_iff.mp none] at days
  exact ((Scan.without_year years digit solid (by decide)).trans <|
    (Scan.without_char hyphen (by decide)).trans <| (Scan.without_field months digit solid).trans <|
    (Scan.without_char hyphen2 (by decide)).trans (Scan.without_field days digit solid)).notMem

/-- A time of day has a colon, and no other mark than colons and the point of its seconds. -/
theorem Clock.mem_of_ofChars? {cs : List Char} {c : Clock} (read : ofChars? cs = some c) :
    ':' ∈ cs ∧ '-' ∉ cs := by
  have digit : isDigit '-' = false := by decide
  have solid : isBlank '-' = false := by decide
  rcases (Option.orElse_eq_some _ _ _).mp read with long | ⟨_, short⟩
  · unfold ofLongChars? at long
    obtain ⟨⟨_, _⟩, hours, read⟩ := Option.bind_eq_some_iff.mp long
    obtain ⟨_, colon, read⟩ := Option.bind_eq_some_iff.mp read
    obtain ⟨⟨_, _⟩, minutes, read⟩ := Option.bind_eq_some_iff.mp read
    obtain ⟨_, colon2, read⟩ := Option.bind_eq_some_iff.mp read
    obtain ⟨⟨_, _⟩, secs, read⟩ := Option.bind_eq_some_iff.mp read
    obtain ⟨⟨_, _⟩, fraction, done⟩ := Option.bind_eq_some_iff.mp read
    dsimp only at done
    split_ifs at done with none
    rw [List.isEmpty_iff.mp none] at fraction
    refine ⟨Scan.mem_of_char colon (Scan.suffix_of_field hours), ?_⟩
    exact ((Scan.without_field hours digit solid).trans <|
      (Scan.without_char colon (by decide)).trans <| (Scan.without_field minutes digit solid).trans <|
      (Scan.without_char colon2 (by decide)).trans <| (Scan.without_field secs digit solid).trans
      (Scan.without_fraction fraction digit (by decide))).notMem
  · unfold ofShortChars? at short
    obtain ⟨⟨_, _⟩, hours, read⟩ := Option.bind_eq_some_iff.mp short
    obtain ⟨_, colon, read⟩ := Option.bind_eq_some_iff.mp read
    obtain ⟨⟨_, _⟩, minutes, done⟩ := Option.bind_eq_some_iff.mp read
    dsimp only at done
    split_ifs at done with none
    rw [List.isEmpty_iff.mp none] at minutes
    refine ⟨Scan.mem_of_char colon (Scan.suffix_of_field hours), ?_⟩
    exact ((Scan.without_field hours digit solid).trans <|
      (Scan.without_char colon (by decide)).trans (Scan.without_field minutes digit solid)).notMem

theorem Timestamp.mem_of_ofChars? {cs : List Char} {t : Timestamp} (read : ofChars? cs = some t) :
    ':' ∈ cs ∧ '-' ∈ cs := by
  unfold ofChars? at read
  obtain ⟨⟨_, _⟩, years, read⟩ := Option.bind_eq_some_iff.mp read
  obtain ⟨_, hyphen, read⟩ := Option.bind_eq_some_iff.mp read
  obtain ⟨⟨_, _⟩, months, read⟩ := Option.bind_eq_some_iff.mp read
  obtain ⟨_, hyphen2, read⟩ := Option.bind_eq_some_iff.mp read
  obtain ⟨⟨_, _⟩, days, read⟩ := Option.bind_eq_some_iff.mp read
  obtain ⟨_, mark, read⟩ := Option.bind_eq_some_iff.mp read
  obtain ⟨⟨_, _⟩, hours, read⟩ := Option.bind_eq_some_iff.mp read
  obtain ⟨_, colon, _⟩ := Option.bind_eq_some_iff.mp read
  have dated := Scan.suffix_of_number years
  refine ⟨Scan.mem_of_char colon ?_, Scan.mem_of_char hyphen dated⟩
  exact (Scan.suffix_of_number hours).trans <| (suffix_of_separator mark).trans <|
    (Scan.suffix_of_number days).trans <| (Scan.suffix_of_char hyphen2).trans <|
    (Scan.suffix_of_number months).trans <| (Scan.suffix_of_char hyphen).trans dated

end EntitySchema.Calendar
