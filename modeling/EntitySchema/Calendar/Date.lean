import EntitySchema.Calendar.Scan

/-!
Dates of the Gregorian calendar, extended to all years from 262143 before to 262142 after year
zero, with their text form of year, month and day.
-/

namespace EntitySchema.Calendar

open Text Text.Numeral

def leapYear (year : Int) : Bool :=
  year % 4 == 0 && (year % 100 != 0 || year % 400 == 0)

def daysInMonth (year : Int) (month : Nat) : Nat :=
  if month = 2 then (if leapYear year then 29 else 28)
  else if month = 4 ∨ month = 6 ∨ month = 9 ∨ month = 11 then 30
  else 31

def minYear : Int := -262143

def maxYear : Int := 262142

/-- The day exists and its year is within the calendar's range. -/
def ValidDate (year : Int) (month day : Nat) : Prop :=
  minYear ≤ year ∧ year ≤ maxYear ∧ 1 ≤ month ∧ month ≤ 12 ∧ 1 ≤ day ∧ day ≤ daysInMonth year month

instance (year : Int) (month day : Nat) : Decidable (ValidDate year month day) :=
  inferInstanceAs (Decidable (_ ∧ _ ∧ _ ∧ _ ∧ _ ∧ _))

structure Date where
  year : Int
  month : Nat
  day : Nat
  valid : ValidDate year month day
deriving DecidableEq

namespace Date

def epoch : Date := ⟨1970, 1, 1, by decide⟩

instance : Inhabited Date := ⟨epoch⟩

def of? (year : Int) (month day : Nat) : Option Date :=
  if h : ValidDate year month day then some ⟨year, month, day, h⟩ else none

/-- Orders by year, then month, then day. -/
def compare (a b : Date) : Ordering :=
  (Ord.compare a.year b.year).then ((Ord.compare a.month b.month).then (Ord.compare a.day b.day))

/-- The following day, if it is within range. -/
def next? (d : Date) : Option Date :=
  of? d.year d.month (d.day + 1) <|> of? d.year (d.month + 1) 1 <|> of? (d.year + 1) 1 1

/-- The day before, if it is within range. -/
def previous? (d : Date) : Option Date :=
  of? d.year d.month (d.day - 1)
    <|> of? d.year (d.month - 1) (daysInMonth d.year (d.month - 1))
    <|> of? (d.year - 1) 12 31

/-- Four digits, or a sign and at least four digits outside the years 0 to 9999. -/
def yearChars (year : Int) : List Char :=
  if 0 ≤ year ∧ year ≤ 9999 then padded 4 year.natAbs
  else (if year < 0 then '-' else '+') :: padded 4 year.natAbs

/-- Year, two digits of the month and two of the day, joined by hyphens. -/
def chars (d : Date) : List Char :=
  yearChars d.year ++ '-' :: padded 2 d.month ++ '-' :: padded 2 d.day

def text (d : Date) : String := String.ofList d.chars

/-- Reads a date with nothing after it; numbers may be short and have blanks before them. -/
def ofChars? (cs : List Char) : Option Date := do
  let (year, cs) ← Scan.year cs
  let (month, cs) ← Scan.field (← Scan.char '-' cs)
  let (day, cs) ← Scan.field (← Scan.char '-' cs)
  if cs.isEmpty then of? year month day else none

/-- Reads a date from a text, blanks around it aside. -/
def parse? (s : String) : Option Date := ofChars? (trimChars s.toList)

end Date

end EntitySchema.Calendar
