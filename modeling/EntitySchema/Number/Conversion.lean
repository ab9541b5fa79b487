import EntitySchema.Number.Binary
import EntitySchema.Number.Decimal

/-!
Doubles as decimals and decimals as doubles. A double whose power of two is not negative becomes the
decimal of its exact value. Any other becomes a decimal of about sixteen digits: its power of two is
traded for powers of five and ten while the mantissa stays within 96 bits, then places are dropped
until the mantissa has at most 52 bits. Tiny numbers become zero and keep their sign.
-/

namespace EntitySchema.Number

/-- A decimal under way, `mantissa · 10^exponent`. -/
structure Scaling where
  mantissa : Nat
  exponent : Int

namespace Scaling

/-- Multiplies by `5^n · 10^-n`, that is by `2^-n`: an even mantissa is halved, an odd one times five
if that fits and halved with loss otherwise. -/
def halve : Nat → Scaling → Scaling
  | 0, s => s
  | n + 1, s =>
    if s.mantissa % 2 = 0 then halve n ⟨s.mantissa / 2, s.exponent + 1⟩
    else if s.mantissa * 5 < Decimal.limit then halve n ⟨s.mantissa * 5, s.exponent⟩
    else halve n ⟨s.mantissa / 2, s.exponent + 1⟩

/-- Drops the last digit, rounding half up. -/
def dropDigit (s : Scaling) : Scaling := ⟨roundHalfUp s.mantissa 10, s.exponent + 1⟩

/-- Drops `n` digits one after the other; a mantissa that falls to zero leaves plain zero. -/
def dropDigits : Nat → Scaling → Scaling
  | 0, s => s
  | n + 1, s => if s.mantissa < 10 then ⟨0, 0⟩ else dropDigits n s.dropDigit

/-- Drops up to `n` digits until the mantissa has at most 52 bits. -/
def trimBits : Nat → Scaling → Scaling
  | 0, s => s
  | n + 1, s => if s.mantissa < Nat.pow 2 52 then s else trimBits n s.dropDigit

/-- Drops up to `n` zeros at the end. -/
def trimZeros : Nat → Scaling → Scaling
  | 0, s => s
  | n + 1, s =>
    if s.mantissa % 10 = 0 then trimZeros n ⟨s.mantissa / 10, s.exponent + 1⟩ else s

/-- The number of decimal places that the exponent stands for. -/
def places (s : Scaling) : Nat := (-s.exponent).toNat

end Scaling

/-- A finite double as a decimal; absent when it is too large. -/
def FiniteBinary.toDecimal? (x : FiniteBinary .double) : Option Decimal :=
  if 0 ≤ x.exponent then
    Decimal.ofParts? x.negative (x.significand * Nat.pow 2 x.exponent.toNat) 0
  else
    let tens := Scaling.halve (-x.exponent).toNat ⟨x.significand, x.exponent⟩
    let fits := Scaling.dropDigits (tens.places - Decimal.maxScale) tens
    let rounded := Scaling.trimBits fits.places fits
    let short := Scaling.trimZeros rounded.places rounded
    Decimal.ofParts? x.negative short.mantissa short.places

/-- A double as a decimal; absent when it is not finite or too large. -/
def Binary.toDecimal? : Binary64 → Option Decimal
  | .finite x => x.toDecimal?
  | _ => none

namespace Decimal

/-- The magnitude as a double. Whole and fractional part are rounded apart and added, and the sum is
brought back to the decimal's places. -/
def nearestMagnitude (d : Decimal) : Rat :=
  let unit := Nat.pow 10 d.scale
  let whole := nearestDouble (d.mantissa / unit : Nat)
  let tens := nearestDouble (unit : Nat)
  let fraction := nearestDouble (nearestDouble (d.mantissa % unit : Nat) / tens)
  if fraction = 0 then whole
  else
    let shifted := nearestDouble (nearestDouble (whole + fraction) * tens)
    nearestDouble (((shifted + 1 / 2).floor : Rat) / tens)

/-- The decimal as a double; a whole decimal without places has no negative zero. -/
def toBinary (d : Decimal) : Binary64 :=
  let q := if d.scale = 0 then nearestDouble (d.mantissa : Nat) else d.nearestMagnitude
  Binary.round .double (d.negative && !(d.scale == 0 && d.mantissa == 0)) q.num.natAbs q.den

end Decimal

end EntitySchema.Number
