import EntitySchema.Calendar.Scan

/-!
Times of day to the nanosecond. A leap second is the sixtieth second of a minute whose fraction
runs on past one second.
-/

namespace EntitySchema.Calendar

open Text Text.Numeral

/-- Nanoseconds of one second. -/
def second : Nat := 1000000000

/-- The parts are within range, and only the last second of a minute is a leap second. -/
def ValidClock (hour minute sec nano : Nat) : Prop :=
  hour < 24 ∧ minute < 60 ∧ sec < 60 ∧ (nano < second ∨ (sec = 59 ∧ nano < 2 * second))

instance (hour minute sec nano : Nat) : Decidable (ValidClock hour minute sec nano) :=
  inferInstanceAs (Decidable (_ ∧ _ ∧ _ ∧ (_ ∨ (_ ∧ _))))

structure Clock where
  hour : Nat
  minute : Nat
  sec : Nat
  nano : Nat
  valid : ValidClock hour minute sec nano
deriving DecidableEq

namespace Clock

def midnight : Clock := ⟨0, 0, 0, 0, by decide⟩

instance : Inhabited Clock := ⟨midnight⟩

/-- A time of these parts; second 60 is the leap second after second 59. -/
def of? (hour minute sec nano : Nat) : Option Clock :=
  let (sec, nano) := if sec = 60 then (59, nano + second) else (sec, nano)
  if h : ValidClock hour minute sec nano then some ⟨hour, minute, sec, nano, h⟩ else none

/-- Orders by hour, minute, second and fraction. -/
def compare (a b : Clock) : Ordering :=
  (Ord.compare a.hour b.hour).then ((Ord.compare a.minute b.minute).then
    ((Ord.compare a.sec b.sec).then (Ord.compare a.nano b.nano)))

/-- No fraction, or three, six or nine digits, the fewest that hold the nanoseconds. -/
def fractionChars (nano : Nat) : List Char :=
  if nano = 0 then []
  else if nano % 1000000 = 0 then '.' :: padded 3 (nano / 1000000)
  else if nano % 1000 = 0 then '.' :: padded 6 (nano / 1000)
  else '.' :: padded 9 nano

/-- The second as it is shown, 60 for a leap second, and its fraction. -/
def shown (c : Clock) : Nat × Nat :=
  if c.nano < second then (c.sec, c.nano) else (c.sec + 1, c.nano - second)

/-- Hour, minute and second in two digits each. -/
def wholeChars (c : Clock) : List Char :=
  padded 2 c.hour ++ ':' :: padded 2 c.minute ++ ':' :: padded 2 c.shown.1

/-- Hours, minutes, seconds and the fraction in its shortest of the fixed widths. -/
def chars (c : Clock) : List Char := c.wholeChars ++ fractionChars c.shown.2

def text (c : Clock) : String := String.ofList c.chars

/-- Reads hours, minutes and seconds with an optional fraction. -/
def ofLongChars? (cs : List Char) : Option Clock := do
  let (hour, cs) ← Scan.field cs
  let (minute, cs) ← Scan.field (← Scan.char ':' cs)
  let (sec, cs) ← Scan.field (← Scan.char ':' cs)
  let (nano, cs) ← Scan.fraction cs
  if cs.isEmpty then of? hour minute sec nano else none

/-- Reads hours and minutes. -/
def ofShortChars? (cs : List Char) : Option Clock := do
  let (hour, cs) ← Scan.field cs
  let (minute, cs) ← Scan.field (← Scan.char ':' cs)
  if cs.isEmpty then of? hour minute 0 0 else none

def ofChars? (cs : List Char) : Option Clock := ofLongChars? cs <|> ofShortChars? cs

/-- Reads a time of day from a text, blanks around it aside. -/
def parse? (s : String) : Option Clock := ofChars? (trimChars s.toList)

end Clock

end EntitySchema.Calendar
