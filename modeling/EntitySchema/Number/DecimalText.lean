import EntitySchema.Number.Decimal
import EntitySchema.Number.Rounding

/-!
Reading a decimal. Digits may be grouped by underscores, and an exponent may follow. Digits after
the point that do not fit are rounded away, half up, at the first of them; only digits and
underscores may follow it. Digits before the point that do not fit are an error.
-/

namespace EntitySchema.Number.Decimal

open Text.Numeral

/-- What has been read: the digits as one number, how many of them follow the point, whether the
point and any digit have been met. -/
structure Reading where
  mantissa : Nat
  scale : Nat
  point : Bool
  digits : Bool

/-- Mantissas below this are sure to fit 64 bits with one more digit. -/
def narrow : Nat := 18446744073709551615 / 10 - 255

/-- What may follow the digit at which a decimal is rounded. -/
def isTail (cs : List Char) : Bool := cs.all fun c => isDigit c || c == '_'

/-- Rounds half up at digit `d`; a mantissa that grows past its limit gives up one place. -/
def roundAt (negative : Bool) (mantissa scale d : Nat) : Option Decimal :=
  if d < 5 then ofUnsignedZero? negative mantissa scale
  else if mantissa + 1 < limit then ofUnsignedZero? negative (mantissa + 1) scale
  else if scale = 0 then none
  else ofUnsignedZero? negative (roundHalfUp mantissa 10) (scale - 1)

namespace Reading

/-- No further place can be held after the digits read so far. -/
def full (r : Reading) : Bool := r.point && r.digits && maxScale ≤ r.scale

/-- The mantissa was narrow before its last digit. -/
def short (r : Reading) : Bool := r.mantissa / 10 < narrow

/-- The digit that `c` stands for in the first place that cannot be held. An underscore in that
place is passed over if the mantissa is long and counts as zero if it is short. -/
def lastDigit? (r : Reading) (c : Char) : Option Nat :=
  if c = '_' ∧ r.short then some 0 else digit? c

end Reading

/-- Reads digits, underscores and one point to the end of the text. -/
def readFrom (negative : Bool) (r : Reading) : List Char → Option Decimal
  | [] => if r.digits then ofUnsignedZero? negative r.mantissa r.scale else none
  | c :: rest =>
    if c = '_' ∧ r.digits ∧ !(r.full && r.short) then readFrom negative r rest
    else if r.full then
      if isTail rest then (r.lastDigit? c).bind (roundAt negative r.mantissa r.scale) else none
    else match digit? c with
      | some d =>
        let next := 10 * r.mantissa + d
        if next < limit then
          readFrom negative ⟨next, if r.point then r.scale + 1 else r.scale, r.point, true⟩ rest
        else if r.point ∧ isTail rest then roundAt negative r.mantissa r.scale d
        else none
      | none => if c = '.' ∧ !r.point then readFrom negative { r with point := true } rest else none

/-- Reads a decimal without an exponent, after an optional sign. -/
def ofPlain? : List Char → Option Decimal
  | '-' :: cs => readFrom true ⟨0, 0, false, false⟩ cs
  | '+' :: cs => readFrom false ⟨0, 0, false, false⟩ cs
  | cs => readFrom false ⟨0, 0, false, false⟩ cs

/-- The decimal times a power of ten: places are given up first, then the mantissa grows. -/
def shiftUp (d : Decimal) (n : Nat) : Option Decimal :=
  if n ≤ d.scale then ofUnsignedZero? d.negative d.mantissa (d.scale - n)
  else if n ≤ maxScale then
    ofUnsignedZero? d.negative (d.mantissa * Nat.pow 10 (n - d.scale)) 0
  else none

/-- The decimal divided by a power of ten; the digits that have no place then are rounded away, half
up, and the sign stays. -/
def shiftDown (d : Decimal) (n : Nat) : Option Decimal :=
  if maxScale < n then none
  else if d.scale + n ≤ maxScale then ofParts? d.negative d.mantissa (d.scale + n)
  else ofParts? d.negative (roundHalfUp d.mantissa (Nat.pow 10 (d.scale + n - maxScale))) maxScale

/-- Reads a decimal with an exponent. -/
def ofScientific? (cs : List Char) : Option Decimal :=
  let isMark := fun c : Char => c == 'e' || c == 'E'
  let base := cs.takeWhile (!isMark ·)
  match cs.dropWhile (!isMark ·) with
  | [] => none
  | _ :: exponent => (ofPlain? base).bind fun d =>
    match exponent with
    | '-' :: ds => (unsigned? ds).bind d.shiftDown
    | ds => (unsigned? ds).bind d.shiftUp

/-- Reads a decimal in either form. -/
def ofChars? (cs : List Char) : Option Decimal := ofPlain? cs <|> ofScientific? cs

end EntitySchema.Number.Decimal
