import EntitySchema.Proofs.Calendar.Order
import EntitySchema.Proofs.Calendar.Timestamp

/-!
Dates, times of day and instants are read back from their texts: years of any width with or without a
sign, fractions of a second of any of the fixed widths, and leap seconds. Instants of the years that are
written in four digits are read back from either notation of their offset.
-/

namespace EntitySchema.Calendar

open Text Text.Numeral

namespace Scan

/-- Characters that do not go on with a number. -/
def Stops (rest : List Char) : Prop := ∀ c ∈ rest.head?, isDigit c = false

variable {rest : List Char}

/-- Digits are taken up to the most that may be taken, or up to where they end. -/
theorem number_append {least most : Nat} {ds : List Char} (digits : ∀ d ∈ ds, isDigit d = true)
    (enough : least ≤ ds.length) (fits : ds.length ≤ most) (full : ds.length = most ∨ Stops rest) :
    number least most (ds ++ rest) = some (value ds, rest) := by
  have taken : ((ds ++ rest).take most).takeWhile isDigit = ds := by
    rw [List.take_append, List.take_of_length_le fits]
    apply takeWhile_append_of_stops digits
    intro c first
    rcases full with all | stops
    · rw [all, Nat.sub_self, List.take_zero] at first
      cases first
    · rw [List.head?_take] at first
      split at first
      · cases first
      · exact stops c first
  unfold number
  dsimp only
  rw [taken, if_pos enough, List.drop_left]

theorem number_padded {width n : Nat} (some : 0 < width) (fits : n < 10 ^ width) (rest : List Char) :
    number width width (padded width n ++ rest) = .some (n, rest) := by
  have long := length_padded_eq some fits
  rw [number_append (isDigit_of_mem_padded width n) long.ge long.le (.inl long), value_padded]

theorem exists_padded {width : Nat} (some : 0 < width) (n : Nat) :
    ∃ c cs, padded width n = c :: cs ∧ isDigit c = true := by
  have long := length_padded width n
  obtain ⟨c, cs, written⟩ := List.exists_cons_of_length_pos (Nat.lt_of_lt_of_le some long)
  exact ⟨c, cs, written, isDigit_of_mem_padded width n c (written ▸ .head cs)⟩

/-- No blanks are skipped in front of a digit. -/
theorem skipBlanks_padded {width : Nat} (some : 0 < width) (n : Nat) (rest : List Char) :
    skipBlanks (padded width n ++ rest) = padded width n ++ rest := by
  obtain ⟨c, cs, written, digit⟩ := exists_padded some n
  rw [written]
  apply skipBlanks_of_head
  intro d first
  cases first
  exact isBlank_of_isDigit digit

theorem field_padded {n : Nat} (fits : n < 10 ^ 2) (rest : List Char) :
    field (padded 2 n ++ rest) = some (n, rest) := by
  have long := length_padded_eq (by decide) fits
  rw [field, skipBlanks_padded (by decide), number_append (isDigit_of_mem_padded 2 n) (by omega)
    long.le (.inl long), value_padded]

theorem char_cons (c : Char) (rest : List Char) : char c (c :: rest) = some rest := if_pos rfl

/-- A year in four digits is read without a sign, and any other year with its sign. -/
theorem year_yearChars (y : Int) (stops : Stops rest) :
    year (Date.yearChars y ++ rest) = some (y, rest) := by
  have digits := isDigit_of_mem_padded 4 y.natAbs
  have long := length_padded 4 y.natAbs
  have size : value (padded 4 y.natAbs) = y.natAbs := value_padded 4 y.natAbs
  by_cases short : Date.FourDigits y
  · obtain ⟨nonneg, fits⟩ := short
    have width := length_padded_eq (show 0 < 4 by decide) (show y.natAbs < 10 ^ 4 by omega)
    have taken : number 1 4 (padded 4 y.natAbs ++ rest) = some (y.natAbs, rest) := by
      rw [number_append digits (by omega) width.le (.inl width), size]
    obtain ⟨c, cs, written, digit⟩ := exists_padded (show 0 < 4 by decide) y.natAbs
    rw [Date.yearChars_of_fourDigits ⟨nonneg, fits⟩]
    unfold year
    dsimp only
    rw [skipBlanks_padded (by decide)]
    split
    · next first =>
      rw [written] at first
      cases first
      exact absurd digit (by decide)
    · next first =>
      rw [written] at first
      cases first
      exact absurd digit (by decide)
    · rw [taken, Option.map_some]
      dsimp only
      rw [Int.natAbs_of_nonneg nonneg]
  · have taken : number 1 (padded 4 y.natAbs ++ rest).length (padded 4 y.natAbs ++ rest) =
        some (y.natAbs, rest) := by
      rw [number_append digits (by omega) _ (.inr stops), size]
      rw [List.length_append]
      exact Nat.le_add_right _ _
    have solid {c : Char} (sign : c = '-' ∨ c = '+') (cs : List Char) :
        skipBlanks (c :: cs) = c :: cs := by
      apply skipBlanks_of_head
      rintro d ⟨⟩
      rcases sign with rfl | rfl <;> decide
    rw [Date.yearChars_of_signed short, List.cons_append]
    unfold year
    dsimp only
    by_cases below : y < 0
    · rw [if_pos below, solid (.inl rfl)]
      change (number 1 _ (padded 4 y.natAbs ++ rest)).map (fun x => (-1 * (x.1 : Int), x.2)) = _
      rw [taken, Option.map_some]
      congr 2
      omega
    · rw [if_neg below, solid (.inr rfl)]
      change (number 1 _ (padded 4 y.natAbs ++ rest)).map (fun x => (1 * (x.1 : Int), x.2)) = _
      rw [taken, Option.map_some]
      congr 2
      omega

/-- A fraction of a second is read to the nanosecond. -/
theorem fraction_fractionChars {nano : Nat} (fits : nano < second) (stops : Stops rest)
    (unpointed : rest.head? ≠ some '.') :
    fraction (Clock.fractionChars nano ++ rest) = some (nano, rest) := by
  rcases Nat.eq_zero_or_pos nano with rfl | positive
  · rw [Clock.fractionChars, if_pos rfl, List.nil_append]
    unfold fraction
    split
    · exact absurd rfl unpointed
    · rfl
  · obtain ⟨groups, digits, read⟩ := Clock.exists_isFraction positive fits
    have some := read.some
    have most := read.most
    have long := length_padded_eq (by omega) read.fits
    rw [read.chars, List.cons_append, fraction, nanos, number_append (isDigit_of_mem_padded _ _)
      (by omega) (by omega) (.inr stops), value_padded, Option.map_some, List.length_append, long]
    have none : ([] ++ rest).dropWhile isDigit = rest :=
      dropWhile_append_of_stops (List.forall_mem_nil _) stops
    have places : 9 - (3 * groups + rest.length - rest.length) = 3 * (3 - groups) := by omega
    dsimp only
    rw [places, read.value, Nat.pow_eq]
    exact congrArg (fun after => Option.some (_, after)) none

end Scan

namespace Date

theorem month_lt (d : Date) : d.month < 10 ^ 2 := lt_of_le_of_lt d.valid.2.2.2.1 (by decide)

theorem day_lt (d : Date) : d.day < 10 ^ 2 := by
  have last := d.valid.2.2.2.2.2
  unfold daysInMonth at last
  split_ifs at last <;> omega

theorem of?_parts (d : Date) : of? d.year d.month d.day = some d := dif_pos d.valid

/-- The characters of a date. -/
def isChar (c : Char) : Bool := isDigit c || c = '-' || c = '+'

theorem isChar_of_mem_chars (d : Date) : ∀ c ∈ d.chars, isChar c = true := by
  have digits (width n : Nat) : ∀ c ∈ padded width n, isChar c = true := by
    intro c member
    simp [isChar, isDigit_of_mem_padded width n c member]
  have year : ∀ c ∈ yearChars d.year, isChar c = true := by
    by_cases short : FourDigits d.year
    · rw [yearChars_of_fourDigits short]
      exact digits 4 _
    · rw [yearChars_of_signed short, List.forall_mem_cons]
      exact ⟨by split <;> decide, digits 4 _⟩
  rw [chars, List.append_assoc, List.cons_append, List.forall_mem_append, List.forall_mem_cons,
    List.forall_mem_append, List.forall_mem_cons]
  exact ⟨year, by decide, digits 2 _, by decide, digits 2 _⟩

theorem ofChars?_chars (d : Date) : ofChars? d.chars = some d := by
  have hyphen (cs : List Char) : Scan.Stops ('-' :: cs) := by
    rintro c ⟨⟩
    decide
  have last := Scan.field_padded d.day_lt []
  rw [List.append_nil] at last
  rw [chars, ofChars?]
  simp only [List.append_assoc, List.cons_append, Scan.year_yearChars _ (hyphen _),
    Scan.char_cons, Scan.field_padded d.month_lt, last, Option.bind_eq_bind, Option.bind_some]
  exact d.of?_parts

/-- The text of a date is read as the date, in whatever year it is. -/
theorem parse?_text (d : Date) : parse? d.text = some d := by
  have solid : ∀ c ∈ d.chars, isBlank c = false := by
    intro c member
    have kind := d.isChar_of_mem_chars c member
    simp only [isChar, Bool.or_eq_true, decide_eq_true_eq] at kind
    rcases kind with (digit | rfl) | rfl
    · exact isBlank_of_isDigit digit
    · decide
    · decide
  rw [parse?, text, String.toList_ofList, trimChars_of_solid solid]
  exact d.ofChars?_chars

end Date

namespace Clock

/-- Second 60 is the leap second that it stands for. -/
theorem of?_shown (c : Clock) : of? c.hour c.minute c.shown.1 c.shown.2 = some c := by
  obtain ⟨_, _, sixty, fits⟩ := c.valid
  have parts : (if c.shown.1 = 60 then (59, c.shown.2 + second) else (c.shown.1, c.shown.2)) =
      (c.sec, c.nano) := by
    unfold shown
    by_cases plain : c.nano < second
    · rw [if_pos plain, if_neg (by dsimp only; omega)]
    · rw [if_neg plain, if_pos (by dsimp only; omega), Prod.mk.injEq]
      dsimp only
      omega
  unfold of?
  simp only [parts, c.valid, dite_true]

theorem hour_lt (c : Clock) : c.hour < 10 ^ 2 := lt_trans c.valid.1 (by decide)

theorem minute_lt (c : Clock) : c.minute < 10 ^ 2 := lt_trans c.valid.2.1 (by decide)

/-- The characters of a time of day. -/
def isChar (c : Char) : Bool := isDigit c || c = ':' || c = '.'

theorem isChar_of_mem_chars (c : Clock) : ∀ d ∈ c.chars, isChar d = true := by
  have digits (width n : Nat) : ∀ d ∈ padded width n, isChar d = true := by
    intro d member
    simp [isChar, isDigit_of_mem_padded width n d member]
  have fraction : ∀ d ∈ fractionChars c.shown.2, isChar d = true := by
    rcases Nat.eq_zero_or_pos c.shown.2 with none | positive
    · rw [none]
      exact List.forall_mem_nil _
    · obtain ⟨groups, places, read⟩ := exists_isFraction positive c.shown_lt.2
      rw [read.chars, List.forall_mem_cons]
      exact ⟨by decide, digits _ _⟩
  simp only [chars, wholeChars, List.append_assoc, List.cons_append, List.forall_mem_append,
    List.forall_mem_cons]
  exact ⟨digits 2 _, by decide, digits 2 _, by decide, digits 2 _, fraction⟩

theorem ofChars?_chars (c : Clock) : ofChars? c.chars = some c := by
  have fraction : Scan.fraction (fractionChars c.shown.2 ++ []) = some (c.shown.2, []) :=
    Scan.fraction_fractionChars c.shown_lt.2 nofun nofun
  rw [List.append_nil] at fraction
  have read : ofLongChars? c.chars = some c := by
    rw [chars, wholeChars, ofLongChars?]
    simp only [List.append_assoc, List.cons_append, Scan.char_cons, Scan.field_padded c.hour_lt,
      Scan.field_padded c.minute_lt, Scan.field_padded c.shown_lt.1, fraction, Option.bind_eq_bind,
      Option.bind_some]
    exact c.of?_shown
  rw [ofChars?, read]
  rfl

/-- The text of a time of day is read as the time, to the nanosecond, leap seconds included. -/
theorem parse?_text (c : Clock) : parse? c.text = some c := by
  have solid : ∀ d ∈ c.chars, isBlank d = false := by
    intro d member
    have kind := c.isChar_of_mem_chars d member
    simp only [isChar, Bool.or_eq_true, decide_eq_true_eq] at kind
    rcases kind with (digit | rfl) | rfl
    · exact isBlank_of_isDigit digit
    · decide
    · decide
  rw [parse?, text, String.toList_ofList, trimChars_of_solid solid]
  exact c.ofChars?_chars

end Clock

namespace Timestamp

theorem later?_zero (t : Timestamp) : t.later? 0 = some t := by
  obtain ⟨hours, minutes, _⟩ := t.clock.valid
  have total : (t.clock.hour * 60 + t.clock.minute : Nat) + (0 : Int) =
      (t.clock.hour * 60 + t.clock.minute : Nat) := Int.add_zero _
  have parts : ((t.clock.hour * 60 + t.clock.minute : Nat) % (1440 : Int)).toNat =
      t.clock.hour * 60 + t.clock.minute := by omega
  have hour : (t.clock.hour * 60 + t.clock.minute) / 60 = t.clock.hour := by omega
  have minute : (t.clock.hour * 60 + t.clock.minute) % 60 = t.clock.minute := by omega
  unfold later?
  dsimp only
  rw [total, if_neg (by omega), if_pos (by omega), parts]
  simp only [hour, minute, Option.bind_eq_bind, Option.bind_some, t.clock.valid, dite_true]

theorem later?_neg_zero (t : Timestamp) : t.later? (-0) = some t := by
  rw [Int.neg_zero]
  exact t.later?_zero

theorem offset?_chars (zone : Zone) : offset? zone.chars = some (0, []) := by
  cases zone <;> decide

/-- Instants of the years that are written in four digits are read back. -/
theorem ofChars?_chars (zone : Zone) {t : Timestamp} (short : Date.FourDigits t.date.year) :
    ofChars? (t.chars zone) = some t := by
  obtain ⟨nonneg, fits⟩ := short
  have year := fun rest => Scan.number_padded (show 0 < 4 by decide)
    (show t.date.year.natAbs < 10 ^ 4 by omega) rest
  have two {n : Nat} (fits : n < 10 ^ 2) (rest : List Char) :
      Scan.number 2 2 (padded 2 n ++ rest) = some (n, rest) :=
    Scan.number_padded (by decide) fits rest
  have fraction : Scan.fraction (Clock.fractionChars t.clock.shown.2 ++ zone.chars) =
      some (t.clock.shown.2, zone.chars) := by
    apply Scan.fraction_fractionChars t.clock.shown_lt.2
    · cases zone <;> (rintro c ⟨⟩; decide)
    · cases zone <;> decide
  have separates (rest : List Char) : separator ('T' :: rest) = some rest := rfl
  have date : Date.of? t.date.year.natAbs t.date.month t.date.day = some t.date := by
    rw [Int.natAbs_of_nonneg nonneg]
    exact t.date.of?_parts
  have written : t.chars zone = padded 4 t.date.year.natAbs ++ '-' :: (padded 2 t.date.month ++
      '-' :: (padded 2 t.date.day ++ 'T' :: (padded 2 t.clock.hour ++ ':' ::
      (padded 2 t.clock.minute ++ ':' :: (padded 2 t.clock.shown.1 ++
      (Clock.fractionChars t.clock.shown.2 ++ zone.chars)))))) := by
    simp only [chars, Date.chars, Clock.chars, Clock.wholeChars,
      Date.yearChars_of_fourDigits ⟨nonneg, fits⟩, List.append_assoc, List.cons_append]
  rw [written]
  unfold ofChars?
  refine Option.bind_eq_some_iff.mpr ⟨_, year _, ?_⟩
  refine Option.bind_eq_some_iff.mpr ⟨_, Scan.char_cons _ _, ?_⟩
  refine Option.bind_eq_some_iff.mpr ⟨_, two t.date.month_lt _, ?_⟩
  refine Option.bind_eq_some_iff.mpr ⟨_, Scan.char_cons _ _, ?_⟩
  refine Option.bind_eq_some_iff.mpr ⟨_, two t.date.day_lt _, ?_⟩
  refine Option.bind_eq_some_iff.mpr ⟨_, separates _, ?_⟩
  refine Option.bind_eq_some_iff.mpr ⟨_, two t.clock.hour_lt _, ?_⟩
  refine Option.bind_eq_some_iff.mpr ⟨_, Scan.char_cons _ _, ?_⟩
  refine Option.bind_eq_some_iff.mpr ⟨_, two t.clock.minute_lt _, ?_⟩
  refine Option.bind_eq_some_iff.mpr ⟨_, Scan.char_cons _ _, ?_⟩
  refine Option.bind_eq_some_iff.mpr ⟨_, two t.clock.shown_lt.1 _, ?_⟩
  refine Option.bind_eq_some_iff.mpr ⟨_, fraction, ?_⟩
  refine Option.bind_eq_some_iff.mpr ⟨_, offset?_chars zone, ?_⟩
  refine Option.bind_eq_some_iff.mpr ⟨_, date, ?_⟩
  refine Option.bind_eq_some_iff.mpr ⟨_, t.clock.of?_shown, ?_⟩
  exact (if_pos rfl).trans t.later?_neg_zero

/-- Reads an instant of any year: a date and a time of day with a mark between them, and an offset. -/
def ofWideChars? (cs : List Char) : Option Timestamp := do
  let date ← Date.ofChars? (cs.takeWhile Date.isChar)
  let cs ← separator (cs.dropWhile Date.isChar)
  let clock ← Clock.ofChars? (cs.takeWhile Clock.isChar)
  let (offset, rest) ← offset? (cs.dropWhile Clock.isChar)
  if rest.isEmpty then later? ⟨date, clock⟩ (-offset) else none

/-- Every instant is read back from either notation. -/
theorem ofWideChars?_chars (zone : Zone) (t : Timestamp) : ofWideChars? (t.chars zone) = some t := by
  have mark : ∀ c ∈ ('T' :: (t.clock.chars ++ zone.chars)).head?, Date.isChar c = false := by
    rintro c ⟨⟩
    decide
  have ends : ∀ c ∈ zone.chars.head?, Clock.isChar c = false := by
    cases zone <;> (rintro c ⟨⟩; decide)
  have dated := t.date.isChar_of_mem_chars
  have timed := t.clock.isChar_of_mem_chars
  rw [chars, List.append_assoc, List.cons_append, ofWideChars?,
    takeWhile_append_of_stops dated mark, dropWhile_append_of_stops dated mark]
  refine Option.bind_eq_some_iff.mpr ⟨_, t.date.ofChars?_chars, ?_⟩
  refine Option.bind_eq_some_iff.mpr ⟨_, rfl, ?_⟩
  rw [takeWhile_append_of_stops timed ends, dropWhile_append_of_stops timed ends]
  refine Option.bind_eq_some_iff.mpr ⟨_, t.clock.ofChars?_chars, ?_⟩
  refine Option.bind_eq_some_iff.mpr ⟨_, offset?_chars zone, ?_⟩
  exact (if_pos rfl).trans t.later?_neg_zero

/-- The text is read as the instant, and if the year has four digits, then also as RFC 3339. -/
def Named (t : Timestamp) (s : String) : Prop :=
  ofWideChars? s.toList = some t ∧ (Date.FourDigits t.date.year → parse? s = some t)

theorem named_chars (zone : Zone) (t : Timestamp) : t.Named (String.ofList (t.chars zone)) := by
  rw [Named, parse?, String.toList_ofList]
  exact ⟨t.ofWideChars?_chars zone, ofChars?_chars zone⟩

end Timestamp

end EntitySchema.Calendar
