import EntitySchema.Text.Numeral

/-!
Decimal numbers of fixed capacity: a sign, a mantissa of at most 96 bits and at most 28 decimal
places. Places are kept as written, so `1.5` and `1.50` are two decimals of one value.
-/

namespace EntitySchema.Number

open Text.Numeral

/-- One more than the greatest mantissa, `2^96`. -/
def Decimal.limit : Nat := 79228162514264337593543950336

def Decimal.maxScale : Nat := 28

structure Decimal where
  negative : Bool
  mantissa : Nat
  scale : Nat
  mantissa_lt : mantissa < Decimal.limit
  scale_le : scale ≤ Decimal.maxScale
deriving DecidableEq

namespace Decimal

def zero : Decimal := ⟨false, 0, 0, by decide, by decide⟩

instance : Inhabited Decimal := ⟨zero⟩

/-- A decimal of these parts, if they fit. -/
def ofParts? (negative : Bool) (mantissa scale : Nat) : Option Decimal :=
  if h : mantissa < limit ∧ scale ≤ maxScale then
    some ⟨negative, mantissa, scale, h.1, h.2⟩
  else none

/-- A decimal of these parts whose zero has no sign. -/
def ofUnsignedZero? (negative : Bool) (mantissa scale : Nat) : Option Decimal :=
  ofParts? (negative && mantissa != 0) mantissa scale

def ofInt? (i : Int) : Option Decimal := ofParts? (decide (i < 0)) i.natAbs 0

/-- The mantissa with its sign. -/
def signed (d : Decimal) : Int := if d.negative then -(d.mantissa : Int) else d.mantissa

/-- The exact value of the decimal. -/
def toRat (d : Decimal) : Rat := (d.signed : Rat) / (Nat.pow 10 d.scale : Nat)

/-- Orders by value, whatever the places. -/
def compare (a b : Decimal) : Ordering :=
  Ord.compare (a.signed * Nat.pow 10 b.scale) (b.signed * Nat.pow 10 a.scale)

def isWhole (d : Decimal) : Bool := d.mantissa % Nat.pow 10 d.scale == 0

/-- The whole part, towards zero. -/
def whole (d : Decimal) : Int :=
  let n : Int := d.mantissa / Nat.pow 10 d.scale
  if d.negative then -n else n

/-- All places are written; a sign is written also before zero. -/
def chars (d : Decimal) : List Char :=
  let ds := padded (d.scale + 1) d.mantissa
  let body :=
    if d.scale = 0 then ds
    else ds.take (ds.length - d.scale) ++ '.' :: ds.drop (ds.length - d.scale)
  if d.negative then '-' :: body else body

def text (d : Decimal) : String := String.ofList d.chars

end Decimal

end EntitySchema.Number
