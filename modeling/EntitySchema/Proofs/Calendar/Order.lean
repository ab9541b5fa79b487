import EntitySchema.Calendar.Timestamp
import EntitySchema.Proofs.Text.Order
import Mathlib.Data.Int.Order.Basic

/-!
Texts of times of day and of dates in order. Times of day are in the order of their texts. Dates are as
long as their years are, which holds for the years that are written in four digits.
-/

namespace EntitySchema.Calendar

open Text Text.Numeral

namespace Clock

/-- Fractions of a second are written in groups of three digits, without groups of zeros at the end. -/
structure IsFraction (nano groups digits : Nat) : Prop where
  some : 0 < groups
  most : groups ≤ 3
  fits : digits < 10 ^ (3 * groups)
  last : digits % 10 ^ 3 ≠ 0
  value : nano = digits * 10 ^ (3 * (3 - groups))
  chars : fractionChars nano = '.' :: padded (3 * groups) digits

theorem exists_isFraction {nano : Nat} (positive : 0 < nano) (fits : nano < second) :
    ∃ groups digits, IsFraction nano groups digits := by
  have zero : nano ≠ 0 := positive.ne'
  unfold second at fits
  by_cases milli : nano % 1000000 = 0
  · refine ⟨1, nano / 1000000, by decide, by decide, by omega, by omega, by omega, ?_⟩
    rw [fractionChars, if_neg zero, if_pos milli]
  · by_cases micro : nano % 1000 = 0
    · refine ⟨2, nano / 1000, by decide, by decide, by omega, by omega, by omega, ?_⟩
      rw [fractionChars, if_neg zero, if_neg milli, if_pos micro]
    · refine ⟨3, nano, by decide, by decide, by omega, micro, by omega, ?_⟩
      rw [fractionChars, if_neg zero, if_neg milli, if_neg micro]

theorem IsFraction.compare_le {m n groups more a b : Nat} (left : IsFraction m groups a)
    (right : IsFraction n more b) (shorter : groups ≤ more) :
    Ord.compare (fractionChars m) (fractionChars n) = Ord.compare m n := by
  have width : 0 < 3 * groups := by
    have some := left.some
    omega
  have unit : 0 < 10 ^ (3 * (3 - more)) := Nat.pow_pos (by decide)
  rw [left.chars, right.chars, compare_cons_self]
  rcases Nat.eq_or_lt_of_le shorter with rfl | less
  · rw [compare_padded width left.fits right.fits, left.value, right.value, compare_mul_right unit]
  · -- the longer one goes on with a group that is not zero
    have digits : 3 * more = 3 * groups + 3 * (more - groups) := by omega
    have goesOn : b % 10 ^ (3 * (more - groups)) ≠ 0 := by
      intro zero
      apply right.last
      have whole : 10 ^ 3 ∣ 10 ^ (3 * (more - groups)) := Nat.pow_dvd_pow 10 (by omega)
      exact Nat.mod_eq_zero_of_dvd (Nat.dvd_trans whole (Nat.dvd_of_mod_eq_zero zero))
    have value : m = a * 10 ^ (3 * (more - groups)) * 10 ^ (3 * (3 - more)) := by
      have most := right.most
      rw [left.value, Nat.mul_assoc, ← Nat.pow_add]
      congr 2
      omega
    rw [digits, compare_padded_longer width (by omega) left.fits (digits ▸ right.fits) goesOn,
      value, right.value, compare_mul_right unit]

/-- Fractions of a second are in the order of their nanoseconds. -/
theorem compare_fractionChars {m n : Nat} (left : m < second) (right : n < second) :
    Ord.compare (fractionChars m) (fractionChars n) = Ord.compare m n := by
  rcases Nat.eq_zero_or_pos m with rfl | more
  · rcases Nat.eq_zero_or_pos n with rfl | some
    · rfl
    · obtain ⟨groups, b, fraction⟩ := exists_isFraction some right
      rw [fraction.chars, compare_lt_iff_lt.mpr some]
      rfl
  · obtain ⟨groups, a, fraction⟩ := exists_isFraction more left
    rcases Nat.eq_zero_or_pos n with rfl | some
    · rw [fraction.chars, compare_gt_iff_gt.mpr more]
      rfl
    · obtain ⟨others, b, other⟩ := exists_isFraction some right
      rcases Nat.le_total groups others with shorter | longer
      · exact fraction.compare_le other shorter
      · rw [Std.OrientedOrd.eq_swap (a := m), Std.OrientedOrd.eq_swap (a := fractionChars m),
          other.compare_le fraction longer]

theorem shown_lt (c : Clock) : c.shown.1 < 10 ^ 2 ∧ c.shown.2 < second := by
  obtain ⟨_, _, sixty, fits⟩ := c.valid
  unfold shown
  split
  · exact ⟨by dsimp only; omega, by assumption⟩
  · exact ⟨by dsimp only; omega, by dsimp only; omega⟩

/-- A leap second is shown behind all other seconds of its minute. -/
theorem compare_shown (a b : Clock) :
    (Ord.compare a.shown.1 b.shown.1).then (Ord.compare a.shown.2 b.shown.2) =
      (Ord.compare a.sec b.sec).then (Ord.compare a.nano b.nano) := by
  obtain ⟨_, _, left, first⟩ := a.valid
  obtain ⟨_, _, right, other⟩ := b.valid
  unfold shown
  by_cases plain : a.nano < second <;> by_cases regular : b.nano < second
  · rw [if_pos plain, if_pos regular]
  · have before : (Ord.compare a.sec b.sec).then (Ord.compare a.nano b.nano) = .lt := by
      rw [Ordering.then_eq_lt, compare_lt_iff_lt, compare_lt_iff_lt, compare_eq_iff_eq]
      omega
    rw [if_pos plain, if_neg regular, before, Ordering.then_eq_lt, compare_lt_iff_lt]
    exact .inl (by dsimp only; omega)
  · have behind : (Ord.compare a.sec b.sec).then (Ord.compare a.nano b.nano) = .gt := by
      rw [Ordering.then_eq_gt, compare_gt_iff_gt, compare_gt_iff_gt, compare_eq_iff_eq]
      omega
    rw [if_neg plain, if_pos regular, behind, Ordering.then_eq_gt, compare_gt_iff_gt]
    exact .inl (by dsimp only; omega)
  · have same : a.sec = b.sec := by omega
    have left := Nat.sub_add_cancel (Nat.not_lt.mp plain)
    have right := Nat.sub_add_cancel (Nat.not_lt.mp regular)
    rw [if_neg plain, if_neg regular, same]
    dsimp only
    rw [Std.ReflOrd.compare_self, Std.ReflOrd.compare_self, Ordering.eq_then, Ordering.eq_then,
      ← compare_add_left second (a.nano - second), Nat.add_comm, left, Nat.add_comm second, right]

theorem compare_wholeChars (a b : Clock) (front back : List Char) :
    Ord.compare (a.wholeChars ++ front) (b.wholeChars ++ back) =
      (Ord.compare a.hour b.hour).then ((Ord.compare a.minute b.minute).then
        ((Ord.compare a.shown.1 b.shown.1).then (Ord.compare front back))) := by
  have hours : ∀ c : Clock, c.hour < 10 ^ 2 := fun c => lt_trans c.valid.1 (by decide)
  have minutes : ∀ c : Clock, c.minute < 10 ^ 2 := fun c => lt_trans c.valid.2.1 (by decide)
  have piece {m n : Nat} (left : m < 10 ^ 2) (right : n < 10 ^ 2) (front back : List Char) :
      Ord.compare (padded 2 m ++ front) (padded 2 n ++ back) =
        (Ord.compare m n).then (Ord.compare front back) := by
    rw [compare_append, compare_padded (by decide) left right]
    rw [length_padded_eq (by decide) left, length_padded_eq (by decide) right]
  simp only [wholeChars, List.append_assoc, List.cons_append]
  rw [piece (hours a) (hours b), compare_cons_self, piece (minutes a) (minutes b), compare_cons_self,
    piece a.shown_lt.1 b.shown_lt.1]

/-- Times of day are in the order of their texts. -/
theorem compare_text (a b : Clock) : Ord.compare a.text b.text = a.compare b := by
  rw [compare_toList, text, text, String.toList_ofList, String.toList_ofList, chars, chars,
    compare_wholeChars, compare_fractionChars a.shown_lt.2 b.shown_lt.2, compare_shown, compare]

theorem compare_eq_eq {a b : Clock} : a.compare b = .eq ↔ a = b := by
  cases a
  cases b
  simp [compare, Ordering.then_eq_eq]

end Clock

namespace Date

/-- The year is written in four digits, without a sign. -/
def FourDigits (year : Int) : Prop := 0 ≤ year ∧ year ≤ 9999

instance (year : Int) : Decidable (FourDigits year) := inferInstanceAs (Decidable (_ ∧ _))

theorem yearChars_of_fourDigits {year : Int} (short : FourDigits year) :
    yearChars year = padded 4 year.natAbs := if_pos short

theorem yearChars_of_signed {year : Int} (wide : ¬ FourDigits year) :
    yearChars year = (if year < 0 then '-' else '+') :: padded 4 year.natAbs := if_neg wide

theorem exists_yearChars (year : Int) :
    ∃ c cs, yearChars year = c :: cs ∧ ∀ x ∈ cs, isDigit x = true := by
  have digits := isDigit_of_mem_padded 4 year.natAbs
  by_cases short : FourDigits year
  · rw [yearChars_of_fourDigits short]
    cases written : padded 4 year.natAbs with
    | nil =>
      have long := length_padded 4 year.natAbs
      rw [written] at long
      cases long
    | cons c cs =>
      rw [written] at digits
      exact ⟨c, cs, rfl, fun x member => digits x (.tail _ member)⟩
  · exact ⟨_, _, yearChars_of_signed short, digits⟩

/-- Years with a sign come before years without one as texts. -/
theorem compare_signed {year other : Int} (wide : ¬ FourDigits year) (short : FourDigits other) :
    Ord.compare (yearChars year) (yearChars other) = .lt := by
  have before {c : Char} (digit : isDigit c = true) : (if year < 0 then '-' else '+') < c := by
    obtain ⟨n, small, rfl⟩ := exists_digitChar digit
    split
    · revert n
      decide
    · revert n
      decide
  have digits := isDigit_of_mem_padded 4 other.natAbs
  have long := length_padded 4 other.natAbs
  rw [yearChars_of_signed wide, yearChars_of_fourDigits short]
  cases written : padded 4 other.natAbs with
  | nil =>
    rw [written] at long
    cases long
  | cons c cs =>
    rw [List.compare_cons_cons, compare_lt_iff_lt.mpr (before (digits c (written ▸ .head _)))]
    rfl

/-- Years are told apart by their texts. -/
theorem yearChars_inj {year other : Int} : yearChars year = yearChars other ↔ year = other := by
  refine ⟨fun same => ?_, fun same => by rw [same]⟩
  by_cases left : FourDigits year <;> by_cases right : FourDigits other
  · rw [yearChars_of_fourDigits left, yearChars_of_fourDigits right] at same
    have values := congrArg value same
    rw [value_padded, value_padded] at values
    obtain ⟨_, _⟩ := left
    obtain ⟨_, _⟩ := right
    omega
  · have before := compare_signed right left
    rw [same, Std.ReflOrd.compare_self] at before
    cases before
  · have before := compare_signed left right
    rw [same, Std.ReflOrd.compare_self] at before
    cases before
  · rw [yearChars_of_signed left, yearChars_of_signed right, List.cons.injEq] at same
    have values := congrArg value same.2
    have signs := same.1
    rw [value_padded, value_padded] at values
    split_ifs at signs <;> first | omega | cases signs

/-- Years in four digits are in the order of their texts. -/
theorem compare_fourDigits {year other : Int} (left : FourDigits year) (right : FourDigits other) :
    Ord.compare (yearChars year) (yearChars other) = Ord.compare year other := by
  rw [yearChars_of_fourDigits left, yearChars_of_fourDigits right]
  obtain ⟨low, high⟩ := left
  obtain ⟨least, most⟩ := right
  rw [compare_padded (by decide) (by omega) (by omega), ← Ordering.then_eq (o := Ord.compare _ _)]
  apply then_eq_compare
  · omega
  · omega
  · intro same
    exact (compare_eq_iff_eq.mpr (by omega)).symm

/-- Orders by the texts of the years, then by month and day. -/
def compareText (a b : Date) : Ordering :=
  (Ord.compare (yearChars a.year) (yearChars b.year)).then
    ((Ord.compare a.month b.month).then (Ord.compare a.day b.day))

/-- The years of two dates are in the order of their texts. -/
def YearsInOrder (a b : Date) : Prop :=
  Ord.compare (yearChars a.year) (yearChars b.year) = Ord.compare a.year b.year

theorem compare_text (a b : Date) : Ord.compare a.text b.text = a.compareText b := by
  have months : ∀ d : Date, d.month < 10 ^ 2 := fun d => lt_of_le_of_lt d.valid.2.2.2.1 (by decide)
  have days : ∀ d : Date, d.day < 10 ^ 2 := by
    intro d
    have last := d.valid.2.2.2.2.2
    unfold daysInMonth at last
    split_ifs at last <;> omega
  have widths : (padded 2 a.month).length = (padded 2 b.month).length := by
    rw [length_padded_eq (by decide) (months a), length_padded_eq (by decide) (months b)]
  obtain ⟨c, cs, left, digits⟩ := exists_yearChars a.year
  obtain ⟨d, ds, right, others⟩ := exists_yearChars b.year
  rw [compareText, compare_toList, text, text, String.toList_ofList, String.toList_ofList, chars, chars,
    left, right,
    List.append_assoc, List.append_assoc, List.cons_append (a := '-'), List.cons_append (a := '-'),
    compare_before_mark (fun x member => hyphen_lt_of_isDigit (digits x member))
      fun x member => hyphen_lt_of_isDigit (others x member),
    compare_append widths, compare_padded (by decide) (months a) (months b), compare_cons_self,
    compare_padded (by decide) (days a) (days b)]

theorem YearsInOrder.symm {a b : Date} (ordered : a.YearsInOrder b) : b.YearsInOrder a := by
  unfold YearsInOrder at *
  rw [Std.OrientedOrd.eq_swap, ordered, ← Std.OrientedOrd.eq_swap]

/-- A year is in order with years in four digits unless it is after them. -/
theorem yearsInOrder_iff {a b : Date} (short : FourDigits b.year) :
    a.YearsInOrder b ↔ a.year ≤ 9999 := by
  unfold YearsInOrder
  by_cases left : FourDigits a.year
  · simp [compare_fourDigits left short, left.2]
  · have before := compare_signed left short
    obtain ⟨least, most⟩ := short
    rw [before, eq_comm, compare_lt_iff_lt]
    unfold FourDigits at left
    omega

/-- Two dates are in the order of their texts if their years are. -/
theorem compareText_eq_compare_iff (a b : Date) : a.compareText b = a.compare b ↔ a.YearsInOrder b := by
  have decided {o : Ordering} (apart : o ≠ .eq) (next : Ordering) : o.then next = o := by
    cases o <;> first | rfl | exact absurd rfl apart
  unfold compareText compare YearsInOrder
  by_cases same : a.year = b.year
  · simp [same]
  · rw [decided, decided]
    · exact fun equal => same (compare_eq_iff_eq.mp equal)
    · exact fun equal => same (yearChars_inj.mp (Std.compare_eq_iff_eq.mp equal))

/-- Only one date has a text. -/
theorem compareText_eq_eq {a b : Date} : a.compareText b = .eq ↔ a = b := by
  rw [compareText, Ordering.then_eq_eq, Ordering.then_eq_eq, Std.compare_eq_iff_eq,
    compare_eq_iff_eq, compare_eq_iff_eq, yearChars_inj]
  cases a
  cases b
  simp

end Date

end EntitySchema.Calendar
