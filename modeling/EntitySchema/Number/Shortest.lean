import EntitySchema.Number.Binary

/-!
The shortest decimal of a floating-point number: of the decimals that round to the number, those
on the coarsest power-of-ten grid have the fewest digits, and of these the nearest is taken.
-/

namespace EntitySchema.Number

/-- A positive decimal, `digits · 10^exponent`. -/
structure DecimalForm where
  digits : Nat
  exponent : Int
deriving DecidableEq, Repr

/-- Which neighbour is taken when a number lies halfway between two. -/
inductive Tie where
  | up
  | even
deriving DecidableEq

namespace Shortest

variable {f : BinaryFormat}

/-- The reals that round to a number, in quarters of its last place. -/
structure Interval where
  low : Nat
  centre : Nat
  high : Nat
  closed : Bool

/-- Half a place to each side, but only a quarter below where the places get finer; the ends belong
to the interval when the significand is even. -/
def interval (x : FiniteBinary f) : Interval where
  low :=
    if 2 * x.significand = Nat.pow 2 f.precision ∧ x.exponent ≠ f.minExponent then
      4 * x.significand - 1
    else 4 * x.significand - 2
  centre := 4 * x.significand
  high := 4 * x.significand + 2
  closed := x.significand % 2 == 0

/-- A quarter place over `10^k`, as numerator and denominator. -/
def unit (x : FiniteBinary f) (k : Int) : Nat × Nat :=
  let e := x.exponent - 2
  (Nat.pow 2 e.toNat * Nat.pow 10 (-k).toNat, Nat.pow 2 (-e).toNat * Nat.pow 10 k.toNat)

/-- The multiple of `10^k` that is nearest to the number among its two neighbours on that grid, if
one of them rounds to the number. -/
def onGrid? (tie : Tie) (x : FiniteBinary f) (k : Int) : Option Nat :=
  let i := interval x
  let (num, den) := unit x k
  let inside (c : Nat) : Bool :=
    if i.closed then i.low * num ≤ c * den && c * den ≤ i.high * num
    else i.low * num < c * den && c * den < i.high * num
  let below := i.centre * num / den
  let above := below + 1
  match inside below, inside above with
  | false, false => none
  | true, false => some below
  | false, true => some above
  | true, true =>
    let twice := 2 * (i.centre * num - below * den)
    if twice < den then some below
    else if den < twice then some above
    else match tie with
      | .up => some above
      | .even => some (if below % 2 = 0 then below else above)

/-- A power of ten above the number. -/
def exponentAbove (x : FiniteBinary f) : Int :=
  ((x.significand.log2 : Int) + 2 + x.exponent) * 30103 / 100000 + 2

/-- The shortest decimal of a number other than zero; the grids that can hold it are tried from the
coarsest one down. -/
def decimal (tie : Tie) (x : FiniteBinary f) : DecimalForm :=
  let top := exponentAbove x
  let found := (List.range 24).findSome? fun (i : Nat) =>
    (onGrid? tie x (top - (i : Int))).map fun d => (⟨d, top - (i : Int)⟩ : DecimalForm)
  found.getD ⟨0, 0⟩

end Shortest

end EntitySchema.Number
