import EntitySchema.Text.Blank
import EntitySchema.Text.Numeral

/-!
The pieces of dates and times as text: single characters and numbers of a limited width. Each step
gives what it has read and the characters after it.
-/

namespace EntitySchema.Calendar.Scan

open Text Text.Numeral

/-- Takes one given character. -/
def char (c : Char) : List Char → Option (List Char)
  | [] => none
  | d :: rest => if c = d then some rest else none

/-- Takes at least `least` and at most `most` digits as one number. -/
def number (least most : Nat) (cs : List Char) : Option (Nat × List Char) :=
  let ds := (cs.take most).takeWhile isDigit
  if least ≤ ds.length then some (value ds, cs.drop ds.length) else none

/-- Takes one or two digits after any blanks. -/
def field (cs : List Char) : Option (Nat × List Char) := number 1 2 (skipBlanks cs)

/-- Takes a year after any blanks: up to four digits, or a sign and any number of digits. -/
def year (cs : List Char) : Option (Int × List Char) :=
  let signed (rest : List Char) (sign : Int) : Option (Int × List Char) :=
    (number 1 rest.length rest).map fun (n, after) => (sign * n, after)
  match skipBlanks cs with
  | '-' :: rest => signed rest (-1)
  | '+' :: rest => signed rest 1
  | rest => (number 1 4 rest).map fun (n, after) => ((n : Int), after)

/-- Takes the digits after a decimal point of seconds as nanoseconds; digits after the ninth are
passed over. -/
def nanos (cs : List Char) : Option (Nat × List Char) :=
  (number 1 9 cs).map fun (n, rest) =>
    (n * Nat.pow 10 (9 - (cs.length - rest.length)), rest.dropWhile isDigit)

/-- Takes a fraction of a second, if there is a decimal point. -/
def fraction : List Char → Option (Nat × List Char)
  | '.' :: rest => nanos rest
  | rest => some (0, rest)

end EntitySchema.Calendar.Scan
