import EntitySchema.Proofs.Calendar.Spelling
import EntitySchema.Proofs.Sql.Validated

/-!
Texts at columns of dates and times. A text that such a column takes denotes one moment. Texts that
denote the same instant are bound as the same value, whatever the offset. Dates and times of day are kept
as text, so their spelling is kept as well, but for the blanks around it.
-/

namespace EntitySchema.Sql

open Calendar Text

/-- What a text at a column of dates and times stands for. -/
inductive Moment where
  | instant (t : Timestamp)
  | day (d : Date)
  | clock (c : Clock)

/-- The text is read as this moment, blanks around it aside. -/
inductive Denotes (s : String) : Moment → Prop
  | instant {t : Timestamp} (read : Timestamp.parse? (trim s) = some t) : Denotes s (.instant t)
  | day {d : Date} (read : Date.parse? s = some d) : Denotes s (.day d)
  | clock {c : Clock} (read : Clock.parse? s = some c) : Denotes s (.clock c)

/-- The marks by which texts of the three kinds of moments differ. -/
def Moment.Marks (cs : List Char) : Moment → Prop
  | .instant _ => ':' ∈ cs ∧ '-' ∈ cs
  | .day _ => ':' ∉ cs
  | .clock _ => ':' ∈ cs ∧ '-' ∉ cs

/-- What is bound for a text that denotes a moment. -/
def Moment.bound (s : String) : Moment → Value
  | .instant t => .timestamp t
  | .day _ | .clock _ => .text (trim s)

namespace Denotes

variable {s : String} {m n : Moment}

theorem marks (denotes : Denotes s m) : m.Marks (trimChars s.toList) := by
  cases denotes with
  | instant read =>
    rw [Timestamp.parse?, toList_trim] at read
    exact Timestamp.mem_of_ofChars? read
  | day read => exact Date.colon_notMem read
  | clock read => exact Clock.mem_of_ofChars? read

/-- A text denotes one moment. -/
theorem unique (first : Denotes s m) (second : Denotes s n) : m = n := by
  have left := first.marks
  have right := second.marks
  cases first with
  | instant read =>
    cases second with
    | instant other => rw [Option.some.inj (read.symm.trans other)]
    | day _ => exact absurd left.1 right
    | clock _ => exact absurd left.2 right.2
  | day read =>
    cases second with
    | instant _ => exact absurd right.1 left
    | day other => rw [Option.some.inj (read.symm.trans other)]
    | clock _ => exact absurd right.1 left
  | clock read =>
    cases second with
    | instant _ => exact absurd right.2 left.2
    | day _ => exact absurd left.1 right
    | clock other => rw [Option.some.inj (read.symm.trans other)]

variable {column : Column}

theorem convert (denotes : Denotes s m) (category : column.category = .time) :
    column.convert (.text s) = .ok (m.bound s) := by
  have civil (other : ∀ t, m ≠ .instant t)
      (read : (Date.parse? s).isSome ∨ (Clock.parse? s).isSome) :
      Converted column (.text s) (.text (trim s)) := by
    refine .civil category ?_ ?_
    · cases found : Timestamp.parse? (trim s) with
      | none => rfl
      | some t => exact absurd (denotes.unique (.instant found)) (other t)
    · rwa [date_parse?_trim, clock_parse?_trim, Bool.or_eq_true]
  apply Converted.convert
  cases denotes with
  | instant read => exact .instant category read
  | day read => exact civil (fun _ same => by cases same) (.inl (by rw [read]; rfl))
  | clock read => exact civil (fun _ same => by cases same) (.inr (by rw [read]; rfl))

end Denotes

variable {column : Column}

/-- A column of dates and times takes the texts that denote a moment. -/
theorem exists_convert_iff (category : column.category = .time) (s : String) :
    (∃ x, column.convert (.text s) = .ok x) ↔ ∃ m, Denotes s m := by
  constructor
  · intro taken
    obtain ⟨x, done⟩ := taken
    cases Column.converted done with
    | text wrong => cases category.symm.trans wrong
    | number wrong => cases category.symm.trans wrong
    | instant _ read => exact ⟨_, .instant read⟩
    | civil _ _ read =>
      rw [date_parse?_trim, clock_parse?_trim, Bool.or_eq_true] at read
      rcases read with day | clock
      · obtain ⟨d, read⟩ := Option.isSome_iff_exists.mp day
        exact ⟨_, .day read⟩
      · obtain ⟨c, read⟩ := Option.isSome_iff_exists.mp clock
        exact ⟨_, .clock read⟩
  · intro given
    obtain ⟨m, denotes⟩ := given
    exact ⟨_, denotes.convert category⟩

/-- Texts that denote the same moment are bound equally if it is an instant; a date or a time of day is
bound equally if its texts are the same without the blanks around them. -/
theorem moments_bound_equally (category : column.category = .time) :
    (∀ s, (∃ x, column.convert (.text s) = .ok x) ↔ ∃ m, Denotes s m) ∧
    (∀ s m n, Denotes s m → Denotes s n → m = n) ∧
    ∀ s t m, Denotes s m → Denotes t m → ∃ x y, column.convert (.text s) = .ok x ∧
      column.convert (.text t) = .ok y ∧ (x = y ↔ (∃ i, m = .instant i) ∨ trim s = trim t) := by
  refine ⟨exists_convert_iff category, fun _ _ _ => Denotes.unique, ?_⟩
  intro s t m first second
  refine ⟨_, _, first.convert category, second.convert category, ?_⟩
  cases m with
  | instant i => exact iff_of_true rfl (.inl ⟨i, rfl⟩)
  | day d => simp [Moment.bound]
  | clock c => simp [Moment.bound]

def bornColumn : Column := ⟨"born", "DATE", false, none⟩

theorem category_bornColumn : bornColumn.category = .time := by decide

def fifthOfJanuary : Date := ⟨2024, 1, 5, by decide⟩

/-- Ten o'clock in two offsets, and a date with and without blanks around it. -/
theorem moments_bound_equally_births :
    (∃ x, bornColumn.convert (.text "2024-01-05T10:00:00Z") = .ok x ∧
      bornColumn.convert (.text " 2024-01-05T12:00:00.000+02:00") = .ok x) ∧
    ∃ x, bornColumn.convert (.text "2024-1-5") = .ok x ∧
      bornColumn.convert (.text " 2024-1-5 ") = .ok x := by
  obtain ⟨_, _, equal⟩ := moments_bound_equally category_bornColumn
  have morning : ∀ s ∈ ["2024-01-05T10:00:00Z", " 2024-01-05T12:00:00.000+02:00"],
      Timestamp.parse? (trim s) = some ⟨fifthOfJanuary, ⟨10, 0, 0, 0, by decide⟩⟩ := by
    decide +kernel
  have day : ∀ s ∈ ["2024-1-5", " 2024-1-5 "], Date.parse? s = some fifthOfJanuary := by
    decide +kernel
  constructor
  · obtain ⟨x, y, first, second, same⟩ := equal _ _ _ (.instant (morning _ (.head _)))
      (.instant (morning _ (.tail _ (.head _))))
    obtain rfl := same.mpr (.inl ⟨_, rfl⟩)
    exact ⟨x, first, second⟩
  · obtain ⟨x, y, first, second, same⟩ := equal _ _ _ (.day (day _ (.head _)))
      (.day (day _ (.tail _ (.head _))))
    obtain rfl := same.mpr (.inr (by decide +kernel))
    exact ⟨x, first, second⟩

/-- Two spellings of one date are bound as two texts. -/
theorem spellings_of_date_apart : bornColumn.category = .time ∧
    Date.parse? "2024-1-5" = some fifthOfJanuary ∧
    Date.parse? "2024-01-05" = some fifthOfJanuary ∧
    bornColumn.convert (.text "2024-1-5") = .ok (.text "2024-1-5") ∧
    bornColumn.convert (.text "2024-01-05") = .ok (.text "2024-01-05") ∧
    Value.text "2024-1-5" ≠ .text "2024-01-05" := by
  have read : Date.parse? "2024-1-5" = some fifthOfJanuary ∧
      Date.parse? "2024-01-05" = some fifthOfJanuary := by
    decide +kernel
  exact ⟨category_bornColumn, read.1, read.2, rfl, rfl, by simp⟩

end EntitySchema.Sql
