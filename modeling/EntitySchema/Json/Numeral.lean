import EntitySchema.Json.Tree
import EntitySchema.Number.BinaryText

/-!
Numbers as JSON text writes them. Digits alone are an integer as long as a word holds it. Every
other number is a double, and it is read in the arithmetic of doubles: the leading digits that fit a
64-bit word are rounded to a double, which is then multiplied or divided by the double nearest to a
power of ten. Since each step rounds, the result may lie next to the double that is nearest to the
number as written.
-/

namespace EntitySchema.JsonNumber

open Number Text.Numeral

/-- The greatest number that digits are gathered in. -/
def maxGathered : Nat := 18446744073709551615

/-- The greatest exponent of ten for which a double has a power. -/
def maxTens : Nat := 308

/-- Appends digits to a number as long as the result fits a word. The digits from the first that
does not fit are left over. -/
def gather (n : Nat) : List Char → Nat × List Char
  | [] => (n, [])
  | c :: cs =>
    let next := 10 * n + (digit? c).getD 0
    if next ≤ maxGathered then gather next cs else (n, c :: cs)

/-- The double nearest to a power of ten. -/
def tens (k : Nat) : Rat := nearestDouble (Nat.pow 10 k : Nat)

/-- A double divided by a power of ten, before its last rounding. A power that no double reaches is
divided out in parts. -/
def shiftDown (q : Rat) (k : Nat) : Rat :=
  if k ≤ maxTens then q / tens k
  else if q = 0 then 0
  else shiftDown (nearestDouble (q / tens maxTens)) (k - maxTens)
termination_by k
decreasing_by simp [maxTens] at *; omega

/-- A double times a power of ten, before its last rounding. Only zero can be multiplied by a power
that no double reaches. -/
def shift? (q : Rat) (e : Int) : Option Rat :=
  if e < 0 then some (shiftDown q (-e).toNat)
  else if e ≤ maxTens then some (q * tens e.toNat)
  else if q = 0 then some 0
  else none

/-- The double that digits before and after the point and an exponent are read as; none if it is out
of range. Digits left over before the point still count as places. -/
def float? (negative : Bool) (whole fraction : List Char) (e : Int) : Option JsonNumber :=
  let (high, wholeRest) := gather 0 whole
  let (n, fractionRest) := gather high fraction
  let places : Int := (fraction.length : Int) - fractionRest.length
  (shift? (nearestDouble (n : Nat)) (e + wholeRest.length - places)).bind fun q =>
    match Binary.round .double negative q.num.natAbs q.den with
    | .finite x => some (.float x)
    | _ => none

/-- A number written with digits only. It is a float if no word holds it, and `-0` is one too, since
integers have no negative zero. -/
def integer? (negative : Bool) (ds : List Char) : Option JsonNumber :=
  let i : Int := if negative then -(value ds : Int) else value ds
  if h : WordSized i ∧ ¬(negative = true ∧ i = 0) then some (.integer i h.1)
  else float? negative ds [] 0

/-- A number without its sign: an integer, or a float if there is a fraction or an exponent. -/
def ofUnsigned? (negative : Bool) (cs : List Char) : Option JsonNumber :=
  let (whole, rest) := spanDigits cs
  if whole.isEmpty ∨ (1 < whole.length ∧ whole.head? = some '0') then none
  else if rest.isEmpty then integer? negative whole
  else
    let (fraction, after) := match rest with
      | '.' :: more => spanDigits more
      | _ => ([], rest)
    if rest.head? = some '.' ∧ fraction.isEmpty then none
    else (Binary.exponent? after).bind (float? negative whole fraction)

/-- A number with or without a minus sign. -/
def ofChars? : List Char → Option JsonNumber
  | '-' :: cs => ofUnsigned? true cs
  | cs => ofUnsigned? false cs

end EntitySchema.JsonNumber
