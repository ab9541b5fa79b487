import EntitySchema.Toml.Tree
import EntitySchema.Number.BinaryText
import EntitySchema.Calendar.Date
import EntitySchema.Text.Hex

/-!
Bare words in the place of a TOML value: truth values, integers in four bases, floats, dates and
times of day.
-/

namespace EntitySchema.Toml

open Number Text.Numeral

/-- Digits with single underscores between them, without the underscores. -/
def digits? (isDigit : Char → Bool) : List Char → Option (List Char)
  | [] => none
  | [c] => if isDigit c then some [c] else none
  | c :: '_' :: rest => if isDigit c then (digits? isDigit rest).map (c :: ·) else none
  | c :: rest => if isDigit c then (digits? isDigit rest).map (c :: ·) else none

/-- Decimal digits without a zero in front of other digits. -/
def whole? (cs : List Char) : Option (List Char) :=
  (digits? isDigit cs).bind fun ds => if ds.head? = some '0' ∧ 1 < ds.length then none else some ds

/-- A sign, if there is one, as whether it is a minus sign, and the characters after it. -/
def sign : List Char → Bool × List Char
  | '-' :: rest => (true, rest)
  | '+' :: rest => (false, rest)
  | cs => (false, cs)

/-- The integer, if it has 64 bits. -/
def word? (i : Int) : Option Toml :=
  if Int64.minValue.toInt ≤ i ∧ i ≤ Int64.maxValue.toInt then some (.integer (Int64.ofInt i)) else none

/-- An integer without a sign in base sixteen, eight or two. -/
def based? (base : Nat) (cs : List Char) : Option Toml := do
  let isDigit := fun c => (Text.Hex.digit? c).any fun d => decide (d.val < base)
  let ds ← (← digits? isDigit cs).mapM Text.Hex.digit?
  word? (ds.foldl (fun (n : Int) d => base * n + d.val) 0)

def integer? : List Char → Option Toml
  | '0' :: 'x' :: rest => based? 16 rest
  | '0' :: 'o' :: rest => based? 8 rest
  | '0' :: 'b' :: rest => based? 2 rest
  | cs =>
    let (negative, rest) := sign cs
    (whole? rest).bind fun ds => word? (if negative then -(value ds : Int) else value ds)

/-- An exponent with its mark; nothing stands for the exponent zero. -/
def exponent? : List Char → Option Int
  | [] => some 0
  | mark :: rest =>
    let (negative, cs) := sign rest
    if mark = 'e' ∨ mark = 'E' then
      (digits? isDigit cs).map fun ds => if negative then -(value ds : Int) else value ds
    else none

/-- A float: the name of infinity or of the value that is not a number, or a decimal with a fraction
or an exponent. A decimal beyond every finite float is refused, unless it is negative. -/
def float? (cs : List Char) : Option Toml :=
  let (negative, rest) := sign cs
  if rest = ['i', 'n', 'f'] then some (.float (.infinite negative))
  else if rest = ['n', 'a', 'n'] then some (.float .nan)
  else do
    let isPart := fun c => isDigit c || c == '_'
    let (whole, tail) := rest.span isPart
    if tail.isEmpty then none
    let ds ← whole? whole
    let (fraction, tail) ← match tail with
      | '.' :: more => (digits? isDigit (more.takeWhile isPart)).map (·, more.dropWhile isPart)
      | _ => some ([], tail)
    let e ← exponent? tail
    match Binary.ofDecimal .double negative (value (ds ++ fraction)) (e - fraction.length) with
    | .infinite false => none
    | x => some (.float x)

/-- The number of exactly `width` digits. -/
def fixed? (width : Nat) (cs : List Char) : Option Nat :=
  if cs.length = width then nat? cs else none

/-- Year, month and day of the calendar. -/
def isDate (cs : List Char) : Bool :=
  cs[4]? == some '-' && cs[7]? == some '-' &&
    ((do
      let year ← fixed? 4 (cs.take 4)
      let month ← fixed? 2 ((cs.drop 5).take 2)
      let day ← fixed? 2 (cs.drop 8)
      Calendar.Date.of? year month day).isSome)

/-- Hour and minute, with a colon between them. -/
def isMinute (cs : List Char) : Bool :=
  cs[2]? == some ':' &&
    (fixed? 2 (cs.take 2)).any (· < 24) && (fixed? 2 (cs.drop 3)).any (· < 60)

/-- A second, with a fraction or without. -/
def isSecond (cs : List Char) : Bool :=
  (fixed? 2 (cs.take 2)).any (· ≤ 60) &&
    match cs.drop 2 with
    | [] => true
    | '.' :: fraction => (nat? fraction).isSome
    | _ => false

def isTime (cs : List Char) : Bool :=
  isMinute (cs.take 5) && cs[5]? == some ':' && isSecond (cs.drop 6)

/-- A time of day and, if there is one, the distance from universal time. -/
def isZonedTime (cs : List Char) : Bool :=
  let (time, zone) := cs.span fun c => isDigit c || c == ':' || c == '.'
  isTime time &&
    match zone with
    | [] => true
    | ['Z'] => true
    | ['z'] => true
    | '+' :: offset => isMinute offset
    | '-' :: offset => isMinute offset
    | _ => false

/-- A date, a time of day, or both with a letter or one blank between them. -/
def moment? (cs : List Char) : Option Toml :=
  let isBoth := isDate (cs.take 10) && isZonedTime (cs.drop 11) &&
    (cs[10]?).any fun c => c == 'T' || c == 't' || c == ' '
  if isDate cs || isTime cs || isBoth then some (.moment (String.ofList cs)) else none

/-- The value of a bare word. -/
def scalar? (cs : List Char) : Option Toml :=
  match String.ofList cs with
  | "true" => some (.bool true)
  | "false" => some (.bool false)
  | _ => moment? cs <|> float? cs <|> integer? cs

end EntitySchema.Toml
