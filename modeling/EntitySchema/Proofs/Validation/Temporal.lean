import EntitySchema.Proofs.Calendar.Order
import EntitySchema.Proofs.Validation.Finding

/-!
Rules on dates and times of day. Both are compared by their texts: times of day in whatever spelling are
in the order of the clock, and dates are in the order of the calendar if their years are.
-/

namespace EntitySchema

open Calendar Validation

variable {edit : Bool} {config : Config}

/-- The time of day that a value stands for. -/
def Value.clock? : Value → Option Clock
  | .text s => Clock.parse? s
  | _ => none

/-- The day that a value stands for; an instant stands for its date. -/
def Value.date? : Value → Option Date
  | .text s => Date.parse? s
  | .timestamp t => some t.date
  | _ => none

/-- Bounds and allowed values of a field are met or broken by what values stand for, in this order. -/
structure Field.DecidesBy {α : Type} (f : Field) (edit : Bool) (config : Config)
    (read? : Value → Option α) (order : α → α → Ordering) : Prop where
  min : ∀ v a, read? v = some a → (f.Finds edit config (some v) "min" ↔
    ∃ bound b, .min bound ∈ f.rules ∧ read? bound = some b ∧ order a b = .lt)
  max : ∀ v a, read? v = some a → (f.Finds edit config (some v) "max" ↔
    ∃ bound b, .max bound ∈ f.rules ∧ read? bound = some b ∧ order a b = .gt)
  oneOf : ∀ v a, read? v = some a → (f.Finds edit config (some v) "one_of" ↔
    ∃ values, .oneOf values ∈ f.rules ∧ ∀ x ∈ values, ∃ b, read? x = some b ∧ order a b ≠ .eq)

namespace Validation

/-- The values of a data type are compared by the texts of what they stand for. -/
structure Spelled {α : Type} (t : DataType) (read? : Value → Option α) (text : α → String) :
    Prop where
  temporal : t = .date ∨ t = .time
  normal : ∀ v, normalizeTemporal t v = (read? v).map fun a => .text (text a)

theorem spelled_time : Spelled .time Value.clock? Clock.text where
  temporal := .inr rfl
  normal v := by cases v <;> rfl

theorem spelled_date : Spelled .date Value.date? Date.text where
  temporal := .inl rfl
  normal v := by cases v <;> rfl

namespace Spelled

variable {α : Type} {t : DataType} {read? : Value → Option α} {text : α → String} {f : Field}

theorem free (spelled : Spelled t read? text) : t.ownsValidation = false := by
  rcases spelled.temporal with rfl | rfl <;> rfl

theorem typed_eq (spelled : Spelled t read? text) (v : Value) :
    typed t v = (read? v).map fun a => .text (text a) := by
  rw [← spelled.normal]
  rcases spelled.temporal with rfl | rfl <;> cases v <;> rfl

theorem boundFor_eq_ok (spelled : Spelled t read? text) (type : f.dataType = t) {rule : String}
    {bound w : Value} : FieldRules.boundFor f rule bound = .ok w ↔
      ∃ b, read? bound = some b ∧ .text (text b) = w := by
  rcases spelled.temporal with rfl | rfl
  · simp only [FieldRules.boundFor, type, spelled.normal]
    cases read? bound <;> simp
  · simp only [FieldRules.boundFor, type, spelled.normal]
    cases read? bound <;> simp

theorem compare_iff (spelled : Spelled t read? text) (type : f.dataType = t) (rule : String) (a : α)
    (bound : Value) (o : Ordering) :
    (∃ w, FieldRules.boundFor f rule bound = .ok w ∧ (Value.text (text a)).compare? w = some o) ↔
      ∃ b, read? bound = some b ∧ Ord.compare (text a) (text b) = o := by
  simp only [spelled.boundFor_eq_ok type]
  cases read? bound <;> simp [Value.compare?]

theorem isEqual_text (s t : String) : isEqual (.text s) (.text t) = false ↔ Ord.compare s t ≠ .eq := by
  have same : Ord.compare s t = .eq ↔ s = t := Std.compare_eq_iff_eq
  simp [isEqual, Value.compare?, Value.same, same]

theorem breaks_oneOf_iff (spelled : Spelled t read? text) (type : f.dataType = t) (a : α)
    (values : List Value) : f.Breaks (.text (text a)) (.oneOf values) ↔
      ∀ x ∈ values, ∃ b, read? x = some b ∧ Ord.compare (text a) (text b) ≠ .eq := by
  simp only [Field.Breaks, FieldRules.allowed, Outcome.exists_mapM_iff, type, spelled.typed_eq]
  apply forall₂_congr
  intro x member
  cases read? x <;> simp [isEqual_text]

/-- A field of such a type decides by the order of the texts. -/
theorem decidesBy {edit : Bool} {config : Config} {r : FieldRules} (spelled : Spelled t read? text)
    (type : f.dataType = t) (built : FieldRules.build f edit config = .ok r) :
    f.DecidesBy edit config read? fun a b => Ord.compare (text a) (text b) := by
  have free : f.dataType.ownsValidation = false := type ▸ spelled.free
  have fits {v : Value} {a : α} (found : read? v = some a) :
      typed f.dataType v = some (.text (text a)) := by
    rw [type, spelled.typed_eq, found]
    rfl
  constructor
  · intro v a found
    simp [finds_min_iff built free (fits found), Field.Breaks, spelled.compare_iff type]
  · intro v a found
    simp [finds_max_iff built free (fits found), Field.Breaks, spelled.compare_iff type]
  · intro v a found
    simp only [finds_oneOf_iff built free (fits found), spelled.breaks_oneOf_iff type]

end Spelled

variable {s : Schema} {v : Validator}

/-- Rules on times of day follow the clock, in whatever spelling the times are given. The normal forms
of two texts are in the order of the times, and the same only if the times are. -/
theorem time_rules_follow_clock (built : Validator.ofSchema s edit config = .ok v) :
    (∀ left right a b, Clock.parse? left = some a → Clock.parse? right = some b → ∃ x y,
      normalizeTemporal .time (.text left) = some x ∧ normalizeTemporal .time (.text right) = some y ∧
        x.compare? y = some (a.compare b) ∧ (x.compare? y = some .eq ↔ a = b)) ∧
    (∀ row path code, v.Reports row path code ↔
      ∃ f ∈ s.fields, f.name = path ∧ f.Finds edit config (row.get? path) code) ∧
    ∀ f ∈ s.fields, f.dataType = .time → f.DecidesBy edit config Value.clock? Clock.compare := by
  refine ⟨?_, Validator.reports_iff built, ?_⟩
  · intro left right a b first second
    refine ⟨.text a.text, .text b.text, ?_, ?_, ?_, ?_⟩
    · rw [normalizeTemporal, first]
      rfl
    · rw [normalizeTemporal, second]
      rfl
    · rw [Value.compare?, Clock.compare_text]
    · rw [Value.compare?, Clock.compare_text, Option.some_inj, Clock.compare_eq_eq]
  · intro f declared type
    obtain ⟨r, done⟩ := Validator.exists_build built declared
    have texts := spelled_time.decidesBy type done
    simp only [Clock.compare_text] at texts
    exact texts

/-- The start of a shift, in its bounds and at one of two moments. -/
def startField : Field :=
  ⟨"start", "start", "", .time, .empty, true, none,
    [.min (.text "08:30"), .max (.text "23:59:60"), .oneOf [.text "09:05", .text "23:59:59.5"]]⟩

def shiftSchema : Schema := ⟨"Shift", "Shift", "", [startField], []⟩

def shiftValidator : Validator where
  entity := "Shift"
  edit := false
  fields := [⟨"start", .time, true, [.min (.text "08:30:00"), .max (.text "23:59:60"),
    .oneOf [.text "09:05:00", .text "23:59:59.500"]]⟩]

unseal Text.Numeral.digits in
theorem time_rules_follow_clock_shift :
    Validator.ofSchema shiftSchema false .standard = .ok shiftValidator ∧
    startField.Finds false .standard (some (.text " 8:29:59.9999999999")) "min" ∧
    ¬startField.Finds false .standard (some (.text "8:30")) "min" ∧
    startField.Finds false .standard (some (.text "23:59:60.5")) "max" ∧
    ¬startField.Finds false .standard (some (.text "9:5:0.000")) "one_of" := by
  have built : Validator.ofSchema shiftSchema false .standard = .ok shiftValidator := rfl
  have rules := (time_rules_follow_clock built).2.2 startField (.head _) rfl
  have early : (Value.text " 8:29:59.9999999999").clock? = some ⟨8, 29, 59, 999999999, by decide⟩ := by
    decide
  have least : (Value.text "08:30").clock? = some ⟨8, 30, 0, 0, by decide⟩ := by decide
  have again : (Value.text "8:30").clock? = some ⟨8, 30, 0, 0, by decide⟩ := by decide
  have late : (Value.text "23:59:60.5").clock? = some ⟨23, 59, 59, 1500000000, by decide⟩ := by decide
  have most : (Value.text "23:59:60").clock? = some ⟨23, 59, 59, 1000000000, by decide⟩ := by decide
  have first : (Value.text "09:05").clock? = some ⟨9, 5, 0, 0, by decide⟩ := by decide
  have five : (Value.text "9:5:0.000").clock? = some ⟨9, 5, 0, 0, by decide⟩ := by decide
  refine ⟨built, (rules.min _ _ early).mpr ⟨_, _, .head _, least, by decide⟩, ?_,
    (rules.max _ _ late).mpr ⟨_, _, .tail _ (.head _), most, by decide⟩, ?_⟩
  · intro finds
    obtain ⟨bound, b, own, read, before⟩ := (rules.min _ _ again).mp finds
    obtain rfl : bound = .text "08:30" := by simpa [startField] using own
    cases least.symm.trans read
    exact absurd before (by decide)
  · intro finds
    obtain ⟨values, own, apart⟩ := (rules.oneOf _ _ five).mp finds
    obtain rfl : values = [.text "09:05", .text "23:59:59.5"] := by simpa [startField] using own
    obtain ⟨b, read, other⟩ := apart _ (.head _)
    cases first.symm.trans read
    exact absurd other (by decide)

/-- Rules on dates follow the texts of the dates. That is the calendar, too, for values and bounds whose
years are in order as texts, and a year is in order with years in four digits unless it is after them.
Allowed dates are the same days in any year. -/
theorem date_rules_follow_calendar (built : Validator.ofSchema s edit config = .ok v) :
    (∀ left right d e, left.date? = some d → right.date? = some e → ∃ x y,
      normalizeTemporal .date left = some x ∧ normalizeTemporal .date right = some y ∧
        (x.compare? y = some (d.compare e) ↔ d.YearsInOrder e) ∧ (x.compare? y = some .eq ↔ d = e)) ∧
    (∀ d e : Date, Date.FourDigits e.year →
      (d.YearsInOrder e ↔ d.year ≤ 9999) ∧ (e.YearsInOrder d ↔ d.year ≤ 9999)) ∧
    (∀ row path code, v.Reports row path code ↔
      ∃ f ∈ s.fields, f.name = path ∧ f.Finds edit config (row.get? path) code) ∧
    ∀ f ∈ s.fields, f.dataType = .date → f.DecidesBy edit config Value.date? Date.compareText ∧
      ∀ x d, x.date? = some d →
        ((∀ bound e, .min bound ∈ f.rules → bound.date? = some e → d.YearsInOrder e) →
          (f.Finds edit config (some x) "min" ↔
            ∃ bound e, .min bound ∈ f.rules ∧ bound.date? = some e ∧ d.compare e = .lt)) ∧
        ((∀ bound e, .max bound ∈ f.rules → bound.date? = some e → d.YearsInOrder e) →
          (f.Finds edit config (some x) "max" ↔
            ∃ bound e, .max bound ∈ f.rules ∧ bound.date? = some e ∧ d.compare e = .gt)) ∧
        (f.Finds edit config (some x) "one_of" ↔
          ∃ values, .oneOf values ∈ f.rules ∧ ∀ y ∈ values, ∃ e, y.date? = some e ∧ d ≠ e) := by
  refine ⟨?_, ?_, Validator.reports_iff built, ?_⟩
  · intro left right d e first second
    refine ⟨.text d.text, .text e.text, ?_, ?_, ?_, ?_⟩
    · rw [spelled_date.normal, first]
      rfl
    · rw [spelled_date.normal, second]
      rfl
    · rw [Value.compare?, Date.compare_text, Option.some_inj, Date.compareText_eq_compare_iff]
    · rw [Value.compare?, Date.compare_text, Option.some_inj, Date.compareText_eq_eq]
  · intro d e short
    have order : d.YearsInOrder e ↔ d.year ≤ 9999 := Date.yearsInOrder_iff short
    exact ⟨order, ⟨order.mp ∘ Date.YearsInOrder.symm, Date.YearsInOrder.symm ∘ order.mpr⟩⟩
  · intro f declared type
    obtain ⟨r, done⟩ := Validator.exists_build built declared
    have texts := spelled_date.decidesBy type done
    simp only [Date.compare_text] at texts
    refine ⟨texts, ?_⟩
    intro x d found
    have agree {o : Ordering} {P : Value → Prop} (within : ∀ bound e, P bound →
        bound.date? = some e → d.YearsInOrder e) (bound : Value) (e : Date) :
        (P bound ∧ bound.date? = some e ∧ d.compareText e = o) ↔
          (P bound ∧ bound.date? = some e ∧ d.compare e = o) := by
      refine and_congr_right fun own => and_congr_right fun read => ?_
      rw [(Date.compareText_eq_compare_iff d e).mpr (within bound e own read)]
    refine ⟨fun within => ?_, fun within => ?_, ?_⟩
    · simp only [texts.min x d found, agree within]
    · simp only [texts.max x d found, agree within]
    · simp only [texts.oneOf x d found, ne_eq, Date.compareText_eq_eq]

/-- The day of a birth, in its bounds. -/
def bornField : Field :=
  ⟨"born", "born", "", .date, .empty, false, none,
    [.min (.text "2024-01-01"), .max (.timestamp ⟨⟨2029, 12, 31, by decide⟩, .midnight⟩)]⟩

def birthSchema : Schema := ⟨"Birth", "Birth", "", [bornField], []⟩

def birthValidator : Validator where
  entity := "Birth"
  edit := false
  fields := [⟨"born", .date, false, [.min (.text "2024-01-01"), .max (.text "2029-12-31")]⟩]

unseal Text.Numeral.digits in
theorem date_rules_follow_calendar_births :
    Validator.ofSchema birthSchema false .standard = .ok birthValidator ∧
    bornField.Finds false .standard (some (.text "-44-3-15")) "min" ∧
    ¬bornField.Finds false .standard (some (.text "2024-1-1")) "min" ∧
    bornField.Finds false .standard (some (.timestamp ⟨⟨2030, 1, 1, by decide⟩, .midnight⟩)) "max" := by
  have built : Validator.ofSchema birthSchema false .standard = .ok birthValidator := rfl
  obtain ⟨_, ordered, _, rules⟩ := date_rules_follow_calendar built
  replace rules := (rules bornField (.head _) rfl).2
  have least : (Value.text "2024-01-01").date? = some ⟨2024, 1, 1, by decide⟩ := by decide
  have early : (Value.text "-44-3-15").date? = some ⟨-44, 3, 15, by decide⟩ := by decide
  have again : (Value.text "2024-1-1").date? = some ⟨2024, 1, 1, by decide⟩ := by decide
  have isLeast {bound : Value} {e : Date} (own : .min bound ∈ bornField.rules)
      (read : bound.date? = some e) : e = ⟨2024, 1, 1, by decide⟩ := by
    obtain rfl : bound = .text "2024-01-01" := by simpa [bornField] using own
    exact Option.some.inj (read.symm.trans least)
  have inOrder {d : Date} (before : d.year ≤ 9999) : ∀ bound e, .min bound ∈ bornField.rules →
      bound.date? = some e → d.YearsInOrder e := by
    intro bound e own read
    rw [isLeast own read]
    exact (ordered d _ (by decide)).1.mpr before
  refine ⟨built, ?_, ?_, ?_⟩
  · exact ((rules _ _ early).1 (inOrder (by decide))).mpr ⟨_, _, .head _, least, by decide⟩
  · rw [(rules _ _ again).1 (inOrder (by decide))]
    intro found
    obtain ⟨bound, e, own, read, before⟩ := found
    rw [isLeast own read] at before
    exact absurd before (by decide)
  · refine ((rules _ ⟨2030, 1, 1, by decide⟩ rfl).2.1 ?_).mpr
      ⟨_, _, .tail _ (.head _), rfl, by decide⟩
    intro bound e own read
    obtain rfl : bound = .timestamp ⟨⟨2029, 12, 31, by decide⟩, .midnight⟩ := by
      simpa [bornField] using own
    cases read
    exact (ordered _ _ (by decide)).1.mpr (by decide)

unseal Text.Numeral.digits in
/-- A day in a year after 9999 is before the least day that is allowed. -/
theorem wide_year_before_bound :
    Validator.ofSchema birthSchema false .standard = .ok birthValidator ∧
    birthValidator.Reports ⟨[("born", .text "+10000-01-01")]⟩ "born" "min" ∧
    ∃ d e, (Value.text "+10000-01-01").date? = some d ∧ (Value.text "2024-01-01").date? = some e ∧
      d.compare e = .gt := by
  refine ⟨rfl, ⟨_, rfl, by decide⟩, ⟨10000, 1, 1, by decide⟩, ⟨2024, 1, 1, by decide⟩, ?_⟩
  decide

end Validation

end EntitySchema
