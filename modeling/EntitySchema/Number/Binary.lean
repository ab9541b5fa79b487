import EntitySchema.Number.Rounding

/-!
Binary floating-point numbers of a given format, with exact values. A finite number is a signed
significand times a power of two in the one form that its format stores, so equal values of equal
sign are equal terms; every operation computes exactly and then rounds once.
-/

namespace EntitySchema.Number

/-- A binary format: the bits of a significand and the range of exponents of its last bit. -/
structure BinaryFormat where
  precision : Nat
  minExponent : Int
  maxExponent : Int

namespace BinaryFormat

def double : BinaryFormat := ⟨53, -1074, 971⟩

def single : BinaryFormat := ⟨24, -149, 104⟩

/-- `significand · 2^exponent` is in the form that the format stores: the significand uses all
bits, unless the exponent is the least one. -/
def Canonical (f : BinaryFormat) (significand : Nat) (exponent : Int) : Prop :=
  significand < Nat.pow 2 f.precision ∧ f.minExponent ≤ exponent ∧ exponent ≤ f.maxExponent ∧
    (Nat.pow 2 f.precision ≤ 2 * significand ∨ exponent = f.minExponent)

instance (f : BinaryFormat) (significand : Nat) (exponent : Int) :
    Decidable (f.Canonical significand exponent) :=
  inferInstanceAs (Decidable (_ ∧ _ ∧ _ ∧ _))

end BinaryFormat

/-- A finite number of a format; zero has a sign. -/
structure FiniteBinary (f : BinaryFormat) where
  negative : Bool
  significand : Nat
  exponent : Int
  canonical : f.Canonical significand exponent
deriving DecidableEq

/-- A number of a format, an infinity or the one value that is not a number. -/
inductive Binary (f : BinaryFormat) where
  | nan
  | infinite (negative : Bool)
  | finite (x : FiniteBinary f)
deriving DecidableEq

abbrev Binary64 := Binary BinaryFormat.double

abbrev Binary32 := Binary BinaryFormat.single

/-- `n · base^e` as numerator and denominator. -/
def scaled (base n : Nat) (e : Int) : Nat × Nat :=
  (n * Nat.pow base e.toNat, Nat.pow base (-e).toNat)

/-- The exponent of the greatest power of two that a positive quotient reaches. -/
def log2Quotient (num den : Nat) : Int :=
  let l : Int := (num.log2 : Int) - den.log2
  if den * Nat.pow 2 l.toNat ≤ num * Nat.pow 2 (-l).toNat then l else l - 1

namespace FiniteBinary

variable {f : BinaryFormat}

/-- The value of the number as numerator and denominator, without its sign. -/
def magnitude (x : FiniteBinary f) : Nat × Nat := scaled 2 x.significand x.exponent

def isZero (x : FiniteBinary f) : Bool := x.significand == 0

def neg (x : FiniteBinary f) : FiniteBinary f := { x with negative := !x.negative }

/-- The exact value of the number. -/
def toRat (x : FiniteBinary f) : Rat :=
  let (num, den) := x.magnitude
  let q : Rat := (num : Rat) / (den : Rat)
  if x.negative then -q else q

/-- The signed significand at an exponent that is no greater than the number's own. -/
def significandAt (x : FiniteBinary f) (e : Int) : Int :=
  let n : Int := x.significand * Nat.pow 2 (x.exponent - e).toNat
  if x.negative then -n else n

/-- Orders by value, so the two zeros are equal. -/
def compare (x y : FiniteBinary f) : Ordering :=
  let e := min x.exponent y.exponent
  Ord.compare (x.significandAt e) (y.significandAt e)

/-- The value is a whole number. -/
def isWhole (x : FiniteBinary f) : Bool :=
  let (num, den) := x.magnitude
  num % den == 0

end FiniteBinary

namespace Binary

variable {f : BinaryFormat}

/-- A rounded significand and its exponent as a number: a significand that rounding made one bit
too long moves to the next exponent, and what the format cannot hold then is infinite. -/
def assemble (f : BinaryFormat) (negative : Bool) (significand : Nat) (exponent : Int) : Binary f :=
  if h : f.Canonical significand exponent then .finite ⟨negative, significand, exponent, h⟩
  else if h : f.Canonical (significand / 2) (exponent + 1) then
    .finite ⟨negative, significand / 2, exponent + 1, h⟩
  else .infinite negative

/-- The number of the format nearest to a quotient with the given sign; a half goes to the even
significand. -/
def round (f : BinaryFormat) (negative : Bool) (num den : Nat) : Binary f :=
  if num = 0 then assemble f negative 0 f.minExponent
  else
    let e := max f.minExponent (log2Quotient num den + 1 - f.precision)
    let (n, d) := scaled 2 den e
    assemble f negative (roundHalfEven (num * d) n) e

def ofRat (f : BinaryFormat) (q : Rat) : Binary f :=
  round f (decide (q < 0)) q.num.natAbs q.den

def ofInt (f : BinaryFormat) (i : Int) : Binary f := round f (decide (i < 0)) i.natAbs 1

/-- The number in another format. -/
def convert (g : BinaryFormat) : Binary f → Binary g
  | .nan => .nan
  | .infinite negative => .infinite negative
  | .finite x => round g x.negative x.magnitude.1 x.magnitude.2

def isFinite : Binary f → Bool
  | .finite _ => true
  | _ => false

/-- Orders by value; what is not a number has no place in the order. -/
def compare? : Binary f → Binary f → Option Ordering
  | .nan, _ => none
  | _, .nan => none
  | .infinite a, .infinite b => some (if a == b then .eq else if a then .lt else .gt)
  | .infinite a, .finite _ => some (if a then .lt else .gt)
  | .finite _, .infinite b => some (if b then .gt else .lt)
  | .finite x, .finite y => some (x.compare y)

/-- Equality of values: the two zeros are equal and `nan` differs from itself. -/
def same (x y : Binary f) : Bool := x.compare? y == some .eq

end Binary

/-- The double nearest to a rational number in its range, as a rational number. -/
def nearestDouble (q : Rat) : Rat :=
  match Binary.ofRat .double q with
  | .finite x => x.toRat
  | _ => q

end EntitySchema.Number
