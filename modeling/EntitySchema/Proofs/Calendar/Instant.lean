import EntitySchema.Proofs.Calendar.Reading
import Mathlib.Data.Int.Order.Basic
import Mathlib.Data.Option.Basic

/-!
Instants on the time line. The days of the calendar are numbered one after the other, so an instant is a
number of minutes in universal time with a second and a fraction. A local time with an offset is the
instant that many minutes before, across the ends of days, months and years.
-/

namespace EntitySchema.Calendar

open Text Text.Numeral

namespace Date

/-- The days of the years from year zero up to this one. -/
def daysBeforeYear (year : Int) : Int :=
  365 * year + (year + 3) / 4 - (year + 99) / 100 + (year + 399) / 400

/-- The days of the months of a year up to this one. -/
def daysBeforeMonth (year : Int) : Nat → Nat
  | 0 | 1 => 0
  | month + 2 => daysBeforeMonth year (month + 1) + daysInMonth year (month + 1)

/-- The number of a day; the first day of year zero has number one. -/
def number (d : Date) : Int := daysBeforeYear d.year + daysBeforeMonth d.year d.month + d.day

theorem daysBeforeYear_succ (year : Int) :
    daysBeforeYear (year + 1) = daysBeforeYear year + if leapYear year then 366 else 365 := by
  unfold daysBeforeYear leapYear
  simp only [Bool.and_eq_true, Bool.or_eq_true, beq_iff_eq, bne_iff_ne]
  split_ifs <;> omega

theorem daysBeforeYear_le {year other : Int} (before : year ≤ other) :
    daysBeforeYear year ≤ daysBeforeYear other := by
  unfold daysBeforeYear
  omega

theorem daysBeforeMonth_succ {month : Nat} (some : 1 ≤ month) (year : Int) :
    daysBeforeMonth year (month + 1) = daysBeforeMonth year month + daysInMonth year month := by
  cases month with
  | zero => cases some
  | succ month => rfl

theorem daysBeforeMonth_le (year : Int) {month other : Nat} (before : month ≤ other) :
    daysBeforeMonth year month ≤ daysBeforeMonth year other := by
  induction other, before using Nat.le_induction with
  | base => exact Nat.le_refl _
  | succ other _ ih =>
    refine ih.trans ?_
    cases other with
    | zero => exact Nat.zero_le _
    | succ other => exact Nat.le_add_right _ _

/-- The twelve months are the year. -/
theorem daysBeforeMonth_thirteen (year : Int) :
    daysBeforeMonth year 13 = if leapYear year then 366 else 365 := by
  cases leap : leapYear year <;> simp [daysBeforeMonth, daysInMonth, leap]

theorem of?_eq_some {year : Int} {month day : Nat} {d : Date} (given : of? year month day = some d) :
    d.year = year ∧ d.month = month ∧ d.day = day := by
  unfold of? at given
  split_ifs at given
  cases given
  exact ⟨rfl, rfl, rfl⟩

theorem of?_eq_none {year : Int} {month day : Nat} :
    of? year month day = none ↔ ¬ ValidDate year month day := by
  unfold of?
  split_ifs with valid
  · exact iff_of_false id (not_not.mpr valid)
  · exact iff_of_true rfl valid

theorem daysInMonth_pos (year : Int) (month : Nat) : 1 ≤ daysInMonth year month := by
  unfold daysInMonth
  split_ifs <;> decide

/-- The day `e` is the one after `d`. -/
inductive Follows (d e : Date) : Prop where
  | inMonth (year : e.year = d.year) (month : e.month = d.month) (day : e.day = d.day + 1)
  | newMonth (last : d.day = daysInMonth d.year d.month) (year : e.year = d.year)
    (month : e.month = d.month + 1) (first : e.day = 1)
  | newYear (december : d.month = 12) (last : d.day = 31) (year : e.year = d.year + 1)
    (january : e.month = 1) (first : e.day = 1)

/-- The next day is in the same month if it can be, else in the same year, else it starts a year. -/
theorem follows_of_next {d e : Date} (next : d.next? = some e) : d.Follows e := by
  obtain ⟨least, most, january, december, first, last⟩ := d.valid
  rcases (Option.orElse_eq_some _ _ _).mp next with inMonth | ⟨monthEnds, others⟩
  · obtain ⟨year, month, day⟩ := of?_eq_some inMonth
    exact .inMonth year month day
  · rw [of?_eq_none] at monthEnds
    have ended : d.day = daysInMonth d.year d.month := by
      refine Nat.le_antisymm last ?_
      by_contra more
      exact monthEnds ⟨least, most, january, december, by omega, by omega⟩
    rcases (Option.orElse_eq_some _ _ _).mp others with inYear | ⟨yearEnds, newYear⟩
    · obtain ⟨year, month, day⟩ := of?_eq_some inYear
      exact .newMonth ended year month day
    · rw [of?_eq_none] at yearEnds
      obtain ⟨year, month, day⟩ := of?_eq_some newYear
      have twelfth : d.month = 12 := by
        by_contra earlier
        exact yearEnds ⟨least, most, by omega, by omega, Nat.le_refl 1, daysInMonth_pos _ _⟩
      rw [twelfth] at ended
      exact .newYear twelfth ended year month day

theorem follows_of_previous {d e : Date} (previous : d.previous? = some e) : e.Follows d := by
  obtain ⟨least, most, january, december, first, last⟩ := d.valid
  obtain ⟨_, _, january', _, first', _⟩ := e.valid
  rcases (Option.orElse_eq_some _ _ _).mp previous with inMonth | ⟨monthStarts, others⟩
  · obtain ⟨year, month, day⟩ := of?_eq_some inMonth
    exact .inMonth year.symm month.symm (by omega)
  · rw [of?_eq_none] at monthStarts
    have started : d.day = 1 := by
      by_contra later
      exact monthStarts ⟨least, most, january, december, by omega, by omega⟩
    rcases (Option.orElse_eq_some _ _ _).mp others with inYear | ⟨yearStarts, oldYear⟩
    · obtain ⟨year, month, day⟩ := of?_eq_some inYear
      rw [← year, ← month] at day
      exact .newMonth day year.symm (by omega) started
    · rw [of?_eq_none] at yearStarts
      obtain ⟨year, month, day⟩ := of?_eq_some oldYear
      have firstMonth : d.month = 1 := by
        by_contra later
        exact yearStarts ⟨least, most, by omega, by omega, daysInMonth_pos _ _, Nat.le_refl _⟩
      exact .newYear month day (by omega) firstMonth started

/-- The day after has the number after. -/
theorem Follows.number {d e : Date} (follows : d.Follows e) : e.number = d.number + 1 := by
  unfold Date.number
  cases follows with
  | inMonth year month day =>
    rw [year, month, day]
    omega
  | newMonth last year month first =>
    have months := daysBeforeMonth_succ d.valid.2.2.1 d.year
    rw [year, month, first]
    omega
  | newYear december last year january first =>
    have lastMonth : daysBeforeMonth d.year 13 = daysBeforeMonth d.year 12 + 31 := rfl
    have newYear : daysBeforeMonth (d.year + 1) 1 = 0 := rfl
    have whole := daysBeforeMonth_thirteen d.year
    rw [year, january, first, daysBeforeYear_succ, december, last, newYear]
    split_ifs at whole ⊢ <;> omega

/-- A day before the last year of the calendar has one after it. -/
theorem exists_next {d : Date} (within : d.year < maxYear) : ∃ e, d.next? = some e := by
  obtain ⟨least, _⟩ := d.valid
  have newYear : ValidDate (d.year + 1) 1 1 :=
    ⟨by omega, within, by decide, by decide, by decide, daysInMonth_pos _ _⟩
  by_contra none
  rw [← Option.ne_none_iff_exists', not_not, next?, Option.orElse_eq_none, Option.orElse_eq_none] at none
  exact of?_eq_none.mp none.2.2 newYear

/-- A day after the first year of the calendar has one before it. -/
theorem exists_previous {d : Date} (within : minYear < d.year) : ∃ e, d.previous? = some e := by
  obtain ⟨_, most, _⟩ := d.valid
  have oldYear : ValidDate (d.year - 1) 12 31 :=
    ⟨Int.le_sub_one_of_lt within, by omega, by decide, by decide, by decide, Nat.le_refl 31⟩
  by_contra none
  rw [← Option.ne_none_iff_exists', not_not, previous?, Option.orElse_eq_none,
    Option.orElse_eq_none] at none
  exact of?_eq_none.mp none.2.2 oldYear

/-! A moment that many minutes from the start of a day is on that day or next to it. -/

/-- The day of a moment, by its minutes from the start of a day; at most one day is passed. -/
def onDay? (d : Date) (minutes : Int) : Option Date :=
  if minutes < 0 then d.previous? else if minutes < 1440 then some d else d.next?

theorem number_onDay {d e : Date} {minutes : Int} (least : -1440 ≤ minutes) (most : minutes < 2880)
    (found : d.onDay? minutes = some e) :
    1440 * e.number + minutes % 1440 = 1440 * d.number + minutes := by
  unfold onDay? at found
  split_ifs at found
  · have number := (follows_of_previous found).number
    omega
  · cases found
    omega
  · have number := (follows_of_next found).number
    omega

theorem exists_onDay (minutes : Int) {d : Date} (after : minYear < d.year)
    (before : d.year < maxYear) : ∃ e, d.onDay? minutes = some e := by
  unfold onDay?
  split_ifs
  · exact exists_previous after
  · exact ⟨d, rfl⟩
  · exact exists_next before

/-! A number is that of one day. -/

theorem dayOfYear_le (d : Date) :
    daysBeforeMonth d.year d.month + d.day ≤ daysBeforeMonth d.year (d.month + 1) := by
  obtain ⟨_, _, january, _, _, last⟩ := d.valid
  rw [daysBeforeMonth_succ january]
  omega

theorem number_le (d : Date) : d.number ≤ daysBeforeYear (d.year + 1) := by
  obtain ⟨_, _, _, december, _, _⟩ := d.valid
  have inMonth := d.dayOfYear_le
  have inYear : daysBeforeMonth d.year (d.month + 1) ≤ daysBeforeMonth d.year 13 :=
    daysBeforeMonth_le d.year (Nat.succ_le_succ december)
  have whole := daysBeforeMonth_thirteen d.year
  unfold number
  rw [daysBeforeYear_succ]
  split_ifs at whole ⊢ <;> omega

theorem lt_number (d : Date) :
    daysBeforeYear d.year + daysBeforeMonth d.year d.month < d.number := by
  have first : 1 ≤ d.day := d.valid.2.2.2.2.1
  unfold number
  omega

theorem number_lt_of_year {a b : Date} (before : a.year < b.year) : a.number < b.number := by
  have years := daysBeforeYear_le (Int.add_one_le_of_lt before)
  have left := a.number_le
  have right := b.lt_number
  omega

theorem number_lt_of_month {a b : Date} (same : a.year = b.year) (before : a.month < b.month) :
    a.number < b.number := by
  have months : daysBeforeMonth a.year (a.month + 1) ≤ daysBeforeMonth a.year b.month :=
    daysBeforeMonth_le a.year before
  have left := a.dayOfYear_le
  have right := b.lt_number
  unfold number at right ⊢
  rw [← same] at right ⊢
  omega

theorem number_inj {a b : Date} : a.number = b.number ↔ a = b := by
  refine ⟨fun same => ?_, fun same => by rw [same]⟩
  have years : a.year = b.year := by
    rcases lt_trichotomy a.year b.year with before | equal | behind
    · exact absurd same (number_lt_of_year before).ne
    · exact equal
    · exact absurd same (number_lt_of_year behind).ne'
  have months : a.month = b.month := by
    rcases lt_trichotomy a.month b.month with before | equal | behind
    · exact absurd same (number_lt_of_month years before).ne
    · exact equal
    · exact absurd same (number_lt_of_month years.symm behind).ne'
  cases a
  cases b
  dsimp only at years months
  subst years months
  unfold number at same
  dsimp only at same
  congr 1
  omega

end Date

namespace Scan

theorem number_lt {least most n : Nat} {cs rest : List Char}
    (taken : number least most cs = some (n, rest)) : n < 10 ^ most := by
  unfold number at taken
  dsimp only at taken
  split_ifs at taken
  cases taken
  have short : ((cs.take most).takeWhile isDigit).length ≤ most :=
    (List.takeWhile_prefix _).length_le.trans (List.length_take_le _ _)
  exact Nat.lt_of_lt_of_le (value_lt _) (Nat.pow_le_pow_right (by decide) short)

end Scan

theorem Clock.eq_of_parts {c d : Clock} (hour : c.hour = d.hour) (minute : c.minute = d.minute)
    (sec : c.sec = d.sec) (nano : c.nano = d.nano) : c = d := by
  cases c
  cases d
  cases hour
  cases minute
  cases sec
  cases nano
  rfl

namespace Timestamp

/-- The minutes from the start of the day. -/
def ofDay (t : Timestamp) : Nat := t.clock.hour * 60 + t.clock.minute

/-- The minutes up to an instant, from the start of the day before the first day of year zero. -/
def minutes (t : Timestamp) : Int := 1440 * t.date.number + t.ofDay

/-- A place on the time line, to the nanosecond; a leap second has the nanoseconds past its second. -/
structure Point where
  minutes : Int
  sec : Nat
  nano : Nat
deriving DecidableEq

def point (t : Timestamp) : Point := ⟨t.minutes, t.clock.sec, t.clock.nano⟩

variable {t u : Timestamp} {n : Int}

/-- A point is that of one instant. -/
theorem point_inj : t.point = u.point ↔ t = u := by
  refine ⟨fun same => ?_, fun same => by rw [same]⟩
  rw [point, point, Point.mk.injEq, minutes, minutes, ofDay, ofDay] at same
  obtain ⟨minutes, sec, nano⟩ := same
  obtain ⟨leftHour, leftMinute, _⟩ := t.clock.valid
  obtain ⟨rightHour, rightMinute, _⟩ := u.clock.valid
  have dates : t.date = u.date := Date.number_inj.mp (by omega)
  have hours : t.clock.hour = u.clock.hour := by omega
  have minutes : t.clock.minute = u.clock.minute := by omega
  cases t
  cases u
  cases dates
  exact congrArg _ (Clock.eq_of_parts hours minutes sec nano)

theorem ofDay_lt (t : Timestamp) : t.ofDay < 1440 := by
  obtain ⟨hour, minute, _⟩ := t.clock.valid
  unfold ofDay
  omega

theorem validClock_ofDay (t : Timestamp) (minutes : Int) :
    ValidClock ((minutes % 1440).toNat / 60) ((minutes % 1440).toNat % 60) t.clock.sec
      t.clock.nano := by
  obtain ⟨_, _, seconds⟩ := t.clock.valid
  refine ⟨?_, Nat.mod_lt _ (by decide), seconds⟩
  omega

/-- What is moved is the minute of the day, and with it perhaps the day. -/
theorem later?_eq (t : Timestamp) (n : Int) : t.later? n =
    (t.date.onDay? (t.ofDay + n)).map fun date =>
      ⟨date, ⟨_, _, _, _, t.validClock_ofDay (t.ofDay + n)⟩⟩ := by
  have valid := t.validClock_ofDay (t.ofDay + n)
  unfold ofDay at valid
  unfold later? Date.onDay? ofDay
  simp only [valid, dite_true]
  split_ifs <;> simp [Option.map_eq_bind]

/-- An instant that is moved by at most a day is moved by so many minutes. -/
theorem point_of_later? (least : -1440 ≤ n) (most : n ≤ 1440) (moved : t.later? n = some u) :
    u.point = ⟨t.minutes + n, t.clock.sec, t.clock.nano⟩ := by
  rw [later?_eq, Option.map_eq_some_iff] at moved
  obtain ⟨date, found, rfl⟩ := moved
  have whole := t.ofDay_lt
  have number := Date.number_onDay (by omega) (by omega) found
  have part : (ofDay ⟨date, ⟨_, _, _, _, t.validClock_ofDay (t.ofDay + n)⟩⟩ : Int) =
      (t.ofDay + n) % 1440 := by
    conv_lhs => rw [ofDay]
    dsimp only
    omega
  rw [point, minutes, minutes, Point.mk.injEq, part]
  refine ⟨?_, rfl, rfl⟩
  dsimp only
  omega

theorem exists_later? (n : Int) (after : minYear < t.date.year) (before : t.date.year < maxYear) :
    ∃ u, t.later? n = some u := by
  obtain ⟨date, found⟩ := Date.exists_onDay (t.ofDay + n) after before
  rw [later?_eq, found]
  exact ⟨_, rfl⟩

/-! An RFC 3339 text gives a local time and an offset from universal time. -/

/-- Reads a local time and its offset in minutes. -/
def zoned? (cs : List Char) : Option (Timestamp × Int) := do
  let (year, cs) ← Scan.number 4 4 cs
  let (month, cs) ← Scan.number 2 2 (← Scan.char '-' cs)
  let (day, cs) ← Scan.number 2 2 (← Scan.char '-' cs)
  let (hour, cs) ← Scan.number 2 2 (← separator cs)
  let (minute, cs) ← Scan.number 2 2 (← Scan.char ':' cs)
  let (sec, cs) ← Scan.number 2 2 (← Scan.char ':' cs)
  let (nano, cs) ← Scan.fraction cs
  let (offset, cs) ← offset? cs
  let date ← Date.of? year month day
  let clock ← Clock.of? hour minute sec nano
  if cs.isEmpty then some (⟨date, clock⟩, offset) else none

/-- The instant of a text is its local time, moved back by its offset. -/
theorem ofChars?_eq (cs : List Char) :
    ofChars? cs = (zoned? cs).bind fun (t, offset) => t.later? (-offset) := by
  have step {α β : Type} {x : Option α} {f : α → Option Timestamp} {g : α → Option β}
      {h : β → Option Timestamp} (same : ∀ a, f a = (g a).bind h) : x.bind f = (x.bind g).bind h := by
    rw [Option.bind_assoc, funext same]
  unfold ofChars? zoned?
  refine step fun (year, cs) => step fun cs => step fun (month, cs) => step fun cs =>
    step fun (day, cs) => step fun cs => step fun (hour, cs) => step fun cs =>
    step fun (minute, cs) => step fun cs => step fun (sec, cs) => step fun (nano, cs) =>
    step fun (offset, cs) => step fun date => step fun clock => ?_
  dsimp only
  split_ifs <;> rfl

/-- An offset is less than a day. -/
theorem offset?_lt {cs rest : List Char} {offset : Int} (taken : offset? cs = some (offset, rest)) :
    -1440 < offset ∧ offset < 1440 := by
  cases cs with
  | nil => cases taken
  | cons c others =>
    simp only [offset?] at taken
    split_ifs at taken with letter
    · cases taken
      decide
    all_goals
      simp only [Option.bind_eq_bind, Option.bind_eq_some_iff, Prod.exists] at taken
      obtain ⟨_, sign, _, _, _, _, _, _, _, _, done⟩ := taken
      split_ifs at done
      cases done
      cases sign <;> omega

/-- A local time is in a year of four digits and away from universal time by less than a day. -/
theorem zoned?_bounds {cs : List Char} {offset : Int} (read : zoned? cs = some (t, offset)) :
    Date.FourDigits t.date.year ∧ -1440 < offset ∧ offset < 1440 := by
  unfold zoned? at read
  obtain ⟨⟨year, _⟩, years, read⟩ := Option.bind_eq_some_iff.mp read
  obtain ⟨_, _, read⟩ := Option.bind_eq_some_iff.mp read
  obtain ⟨⟨_, _⟩, _, read⟩ := Option.bind_eq_some_iff.mp read
  obtain ⟨_, _, read⟩ := Option.bind_eq_some_iff.mp read
  obtain ⟨⟨_, _⟩, _, read⟩ := Option.bind_eq_some_iff.mp read
  obtain ⟨_, _, read⟩ := Option.bind_eq_some_iff.mp read
  obtain ⟨⟨_, _⟩, _, read⟩ := Option.bind_eq_some_iff.mp read
  obtain ⟨_, _, read⟩ := Option.bind_eq_some_iff.mp read
  obtain ⟨⟨_, _⟩, _, read⟩ := Option.bind_eq_some_iff.mp read
  obtain ⟨_, _, read⟩ := Option.bind_eq_some_iff.mp read
  obtain ⟨⟨_, _⟩, _, read⟩ := Option.bind_eq_some_iff.mp read
  obtain ⟨⟨_, _⟩, _, read⟩ := Option.bind_eq_some_iff.mp read
  obtain ⟨⟨_, _⟩, offsets, read⟩ := Option.bind_eq_some_iff.mp read
  obtain ⟨date, parts, read⟩ := Option.bind_eq_some_iff.mp read
  obtain ⟨_, _, done⟩ := Option.bind_eq_some_iff.mp read
  split_ifs at done
  cases done
  obtain ⟨same, _⟩ := Date.of?_eq_some parts
  have short := Scan.number_lt years
  refine ⟨⟨?_, ?_⟩, offset?_lt offsets⟩ <;> dsimp only <;> omega

/-- A local time with its offset as a point of universal time. -/
def zonedPoint (t : Timestamp) (offset : Int) : Point :=
  ⟨t.minutes - offset, t.clock.sec, t.clock.nano⟩

/-- A text with a local time and an offset is read, as the point that both give. -/
theorem map_point_ofChars? (cs : List Char) : (ofChars? cs).map point =
    (zoned? cs).map fun (t, offset) => t.zonedPoint offset := by
  rw [ofChars?_eq]
  cases read : zoned? cs with
  | none => rfl
  | some zoned =>
    obtain ⟨t, offset⟩ := zoned
    obtain ⟨⟨first, last⟩, least, most⟩ := zoned?_bounds read
    obtain ⟨u, moved⟩ := exists_later? (t := t) (-offset) (lt_of_lt_of_le (by decide) first)
      (lt_of_le_of_lt last (by decide))
    change (t.later? (-offset)).map point = _
    rw [moved]
    exact congrArg some (point_of_later? (by omega) (by omega) moved)

end Timestamp

end EntitySchema.Calendar
