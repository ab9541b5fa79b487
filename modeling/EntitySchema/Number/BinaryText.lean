import EntitySchema.Number.Shortest
import EntitySchema.Text.Numeral
import EntitySchema.Text.Case

/-!
Floating-point numbers as text. A layout says how the shortest digits of a number are set out; the
reader takes any decimal with an optional exponent and rounds it once.
-/

namespace EntitySchema.Number

open Text Text.Numeral

/-- How the shortest digits of a number are written. -/
structure FloatLayout where
  tie : Tie
  /-- A whole number in positional form ends in `.0`. -/
  wholePoint : Bool
  /-- Range of the leading digit's exponent that is written in positional form; all if absent. -/
  positional : Option (Int × Int)

namespace FloatLayout

/-- Plain text never has an exponent. -/
def plain : FloatLayout := ⟨.up, false, none⟩

def isPositional (l : FloatLayout) (leading : Int) : Bool :=
  match l.positional with
  | none => true
  | some (low, high) => low ≤ leading && leading ≤ high

/-- The digits with a decimal point after the first `point` of them; `point` may lie outside. -/
def positionalChars (l : FloatLayout) (ds : List Char) (point : Int) : List Char :=
  if point ≤ 0 then '0' :: '.' :: List.replicate (-point).toNat '0' ++ ds
  else if point < ds.length then ds.take point.toNat ++ '.' :: ds.drop point.toNat
  else
    ds ++ List.replicate (point - ds.length).toNat '0' ++ (if l.wholePoint then ['.', '0'] else [])

/-- One digit before the point, then the exponent with its sign. -/
def scientificChars (ds : List Char) (leading : Int) : List Char :=
  let mantissa := match ds with
    | [] => []
    | [d] => [d]
    | d :: rest => d :: '.' :: rest
  mantissa ++ 'e' :: (if leading < 0 then '-' else '+') :: digits leading.natAbs

def magnitudeChars {f : BinaryFormat} (l : FloatLayout) (x : FiniteBinary f) : List Char :=
  if x.isZero then '0' :: (if l.wholePoint then ['.', '0'] else [])
  else
    let d := Shortest.decimal l.tie x
    let ds := digits d.digits
    let point : Int := ds.length + d.exponent
    if l.isPositional (point - 1) then l.positionalChars ds point
    else scientificChars ds (point - 1)

/-- A finite number in this layout; negative zero keeps its sign. -/
def chars {f : BinaryFormat} (l : FloatLayout) (x : FiniteBinary f) : List Char :=
  if x.negative then '-' :: l.magnitudeChars x else l.magnitudeChars x

end FloatLayout

namespace Binary

variable {f : BinaryFormat}

/-- The number as plain text. -/
def text : Binary f → String
  | .nan => "NaN"
  | .infinite false => "inf"
  | .infinite true => "-inf"
  | .finite x => String.ofList (FloatLayout.plain.chars x)

/-- The number nearest to `digits · 10^exponent`. Beyond four hundred places the decimal is outside
every format's range, so a larger exponent cannot change the result. -/
def ofDecimal (f : BinaryFormat) (negative : Bool) (digits : Nat) (exponent : Int) : Binary f :=
  let e := max (-401 - (digits.log2 : Int)) (min 400 exponent)
  let (num, den) := scaled 10 digits e
  round f negative num den

/-- An exponent mark with digits, or nothing. -/
def exponent? : List Char → Option Int
  | [] => some 0
  | c :: cs => if c = 'e' ∨ c = 'E' then int? cs else none

/-- A decimal without a sign: digits with at most one point, then an optional exponent. -/
def ofUnsigned? (f : BinaryFormat) (negative : Bool) (cs : List Char) : Option (Binary f) :=
  let (whole, rest) := spanDigits cs
  let (fraction, rest) := match rest with
    | '.' :: more => spanDigits more
    | _ => ([], rest)
  if whole.isEmpty && fraction.isEmpty then none
  else (exponent? rest).map fun e =>
    ofDecimal f negative (value (whole ++ fraction)) (e - fraction.length)

/-- The infinities and the value that is not a number, by name. -/
def named? (negative : Bool) (cs : List Char) : Option (Binary f) :=
  match String.ofList (cs.map asciiLowerChar) with
  | "nan" => some .nan
  | "inf" | "infinity" => some (.infinite negative)
  | _ => none

/-- Reads a name or a decimal after an optional sign. -/
def ofChars? (f : BinaryFormat) (cs : List Char) : Option (Binary f) :=
  let (negative, rest) := match cs with
    | '-' :: more => (true, more)
    | '+' :: more => (false, more)
    | _ => (false, cs)
  named? negative rest <|> ofUnsigned? f negative rest

end Binary

end EntitySchema.Number
