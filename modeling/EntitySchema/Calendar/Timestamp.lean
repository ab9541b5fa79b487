import EntitySchema.Calendar.Date
import EntitySchema.Calendar.Clock

/-!
Instants in coordinated universal time and their RFC 3339 text. Text with an offset is moved to
universal time when it is read.
-/

namespace EntitySchema.Calendar

open Text Text.Numeral

structure Timestamp where
  date : Date
  clock : Clock
deriving DecidableEq

namespace Timestamp

def epoch : Timestamp := ⟨Date.epoch, Clock.midnight⟩

instance : Inhabited Timestamp := ⟨epoch⟩

def compare (a b : Timestamp) : Ordering :=
  (a.date.compare b.date).then (a.clock.compare b.clock)

/-- How the offset of universal time is written. -/
inductive Zone where
  | letter
  | numeric

def Zone.chars : Zone → List Char
  | .letter => ['Z']
  | .numeric => "+00:00".toList

/-- Date and time joined by `T`, then the offset. -/
def chars (zone : Zone) (t : Timestamp) : List Char :=
  t.date.chars ++ 'T' :: t.clock.chars ++ zone.chars

/-- The text with a numeric offset. -/
def text (t : Timestamp) : String := String.ofList (t.chars .numeric)

/-- The text that ends in `Z`. -/
def textZ (t : Timestamp) : String := String.ofList (t.chars .letter)

/-- The instant `minutes` later; the distance is less than a day. -/
def later? (t : Timestamp) (minutes : Int) : Option Timestamp := do
  let total : Int := (t.clock.hour * 60 + t.clock.minute : Nat) + minutes
  let date ←
    if total < 0 then t.date.previous? else if total < 1440 then some t.date else t.date.next?
  let ofDay := (total % 1440).toNat
  let sec := t.clock.sec
  let nano := t.clock.nano
  if h : ValidClock (ofDay / 60) (ofDay % 60) sec nano then
    some ⟨date, ⟨ofDay / 60, ofDay % 60, sec, nano, h⟩⟩
  else none

/-- Reads an offset in minutes: `Z`, or a sign with hours and minutes of two digits each. -/
def offset? : List Char → Option (Int × List Char)
  | [] => none
  | c :: rest =>
    if c = 'Z' ∨ c = 'z' then some (0, rest)
    else do
      let sign : Int ← if c = '+' then some 1 else if c = '-' ∨ c = '−' then some (-1) else none
      let (hours, rest) ← Scan.number 2 2 rest
      let (minutes, rest) ← Scan.number 2 2 (← Scan.char ':' rest)
      if hours < 24 ∧ minutes < 60 then some (sign * (hours * 60 + minutes : Nat), rest) else none

/-- Takes the mark between date and time. -/
def separator : List Char → Option (List Char)
  | [] => none
  | c :: rest => if c = 'T' ∨ c = 't' ∨ c = ' ' then some rest else none

/-- Reads an RFC 3339 text: all numbers in full width, nothing around it. -/
def ofChars? (cs : List Char) : Option Timestamp := do
  let (year, cs) ← Scan.number 4 4 cs
  let (month, cs) ← Scan.number 2 2 (← Scan.char '-' cs)
  let (day, cs) ← Scan.number 2 2 (← Scan.char '-' cs)
  let (hour, cs) ← Scan.number 2 2 (← separator cs)
  let (minute, cs) ← Scan.number 2 2 (← Scan.char ':' cs)
  let (sec, cs) ← Scan.number 2 2 (← Scan.char ':' cs)
  let (nano, cs) ← Scan.fraction cs
  let (offset, cs) ← offset? cs
  let date ← Date.of? year month day
  let clock ← Clock.of? hour minute sec nano
  if cs.isEmpty then later? ⟨date, clock⟩ (-offset) else none

def parse? (s : String) : Option Timestamp := ofChars? s.toList

end Timestamp

end EntitySchema.Calendar
