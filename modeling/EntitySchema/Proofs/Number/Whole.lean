import EntitySchema.Proofs.Number.Conversion

/-!
Doubles and decimals that are whole numbers. A whole double has the decimal of its own value, unless it
is too large for any, and no double has a decimal right below `2^96`.
-/

namespace EntitySchema.Number

/-- A quotient of natural numbers is a whole number if nothing remains. -/
theorem quotient_eq_iff {num den : Nat} (nonzero : 0 < den) (i : Int) :
    (num : ℚ) / den = i ↔ num % den = 0 ∧ ((num / den : Nat) : Int) = i := by
  have divisor : (den : ℚ) ≠ 0 := by exact_mod_cast nonzero.ne'
  rw [div_eq_iff divisor]
  constructor
  · intro same
    have product : (num : Int) = i * den := by exact_mod_cast same
    constructor
    · apply Nat.mod_eq_zero_of_dvd
      apply Int.natCast_dvd_natCast.mp
      exact ⟨i, product.trans (mul_comm i den)⟩
    · rw [Int.natCast_ediv, product]
      exact Int.mul_ediv_cancel i (by exact_mod_cast nonzero.ne')
  · intro given
    obtain ⟨none, rfl⟩ := given
    have parts := Nat.div_add_mod' num den
    rw [none, Nat.add_zero] at parts
    exact_mod_cast parts.symm

/-- The same with a sign. -/
theorem signed_quotient_eq_iff {num den : Nat} (nonzero : 0 < den) (negative : Bool) (i : Int) :
    (if negative then -((num : ℚ) / den) else (num : ℚ) / den) = i ↔
      num % den = 0 ∧ (if negative then -((num / den : Nat) : Int) else (num / den : Nat)) = i := by
  cases negative with
  | false => exact quotient_eq_iff nonzero i
  | true =>
    have opposite := @quotient_eq_iff num den nonzero (-i)
    rw [Int.cast_neg, ← neg_eq_iff_eq_neg, ← neg_eq_iff_eq_neg] at opposite
    exact opposite

namespace Decimal

/-- The decimal is a whole number, and it is this one. -/
theorem toRat_eq_iff (d : Decimal) (i : Int) : d.toRat = i ↔ d.isWhole = true ∧ d.whole = i := by
  have unit : 0 < Nat.pow 10 d.scale := Nat.pow_pos (by decide)
  rw [toRat_eq, signed_quotient_eq_iff unit, isWhole, beq_iff_eq]
  rfl

theorem natAbs_whole_lt (d : Decimal) : d.whole.natAbs < limit := by
  have short : d.mantissa / Nat.pow 10 d.scale < limit :=
    Nat.lt_of_le_of_lt (Nat.div_le_self _ _) d.mantissa_lt
  have same : ((d.mantissa / Nat.pow 10 d.scale : Nat) : Int) = d.mantissa / Nat.pow 10 d.scale :=
    Int.natCast_ediv _ _
  unfold whole
  dsimp only
  rw [← same]
  split
  · rw [Int.natAbs_neg, Int.natAbs_natCast]
    exact short
  · rw [Int.natAbs_natCast]
    exact short

end Decimal

namespace Scaling

/-- A power of two that divides the mantissa is taken out of it without loss. -/
theorem halve_mul_pow (m k : Nat) (e : Int) : halve k ⟨m * 2 ^ k, e⟩ = ⟨m, e + k⟩ := by
  induction k generalizing e with
  | zero => simp [halve]
  | succ k ih =>
    have double : m * 2 ^ (k + 1) = m * 2 ^ k * 2 := by ring
    rw [halve, double, if_pos (Nat.mul_mod_left _ 2), Nat.mul_div_cancel _ (by decide), ih]
    congr 1
    push_cast
    ring

/-- One place less for a greater exponent. -/
theorem places_succ (m : Nat) (s : Scaling) : places ⟨m, s.exponent + 1⟩ = s.places - 1 := by
  unfold places
  dsimp only
  omega

/-- The number under way is no greater than a bound. -/
def Within (s : Scaling) (bound : Nat) : Prop := s.mantissa ≤ bound * 10 ^ s.places

variable {s : Scaling} {bound : Nat}

/-- A place less is a tenth of the mantissa, and half of the new last place is not too much. -/
theorem within_next {m : Nat} (some : 0 < s.places) (less : 10 * m ≤ bound * 10 ^ s.places + 5) :
    Within ⟨m, s.exponent + 1⟩ bound := by
  have power : 10 ^ s.places = 10 ^ (s.places - 1) * 10 := by
    rw [← pow_succ, Nat.sub_add_cancel some]
  rw [power, ← mul_assoc] at less
  rw [Within, places_succ]
  dsimp only
  omega

theorem Within.dropDigit (within : s.Within bound) (some : 0 < s.places) :
    s.dropDigit.Within bound := by
  apply within_next some
  unfold Within at within
  unfold roundHalfUp
  omega

theorem Within.dropDigits {n : Nat} (within : s.Within bound) (room : n ≤ s.places) :
    (Scaling.dropDigits n s).Within bound := by
  induction n generalizing s with
  | zero => exact within
  | succ n ih =>
    rw [Scaling.dropDigits]
    split
    · exact Nat.zero_le _
    · apply ih (within.dropDigit (by omega))
      rw [Scaling.dropDigit, places_succ]
      omega

theorem Within.trimBits {n : Nat} (within : s.Within bound) (room : n ≤ s.places) :
    (Scaling.trimBits n s).Within bound := by
  induction n generalizing s with
  | zero => exact within
  | succ n ih =>
    rw [Scaling.trimBits]
    split
    · exact within
    · apply ih (within.dropDigit (by omega))
      rw [Scaling.dropDigit, places_succ]
      omega

theorem Within.trimZeros {n : Nat} (within : s.Within bound) (room : n ≤ s.places) :
    (Scaling.trimZeros n s).Within bound := by
  induction n generalizing s with
  | zero => exact within
  | succ n ih =>
    rw [Scaling.trimZeros]
    split
    · apply ih
      · apply within_next (by omega)
        unfold Within at within
        omega
      · rw [places_succ]
        omega
    · exact within

/-- Every halving takes a factor two and trades it for a five and a place. -/
theorem within_halve {n : Nat} (room : n ≤ s.places)
    (below : s.mantissa * 5 ^ n ≤ bound * 10 ^ s.places) : (Scaling.halve n s).Within bound := by
  induction n generalizing s with
  | zero =>
    rw [pow_zero, mul_one] at below
    exact below
  | succ n ih =>
    have halved : Scaling.Within (halve n ⟨s.mantissa / 2, s.exponent + 1⟩) bound := by
      apply ih
      · rw [places_succ]
        omega
      · have power : 10 ^ s.places = 10 ^ (s.places - 1) * 10 := by
          rw [← pow_succ, Nat.sub_add_cancel (by omega)]
        have half := Nat.mul_le_mul_right (5 ^ n) (Nat.div_mul_le_self s.mantissa 2)
        rw [power] at below
        rw [places_succ]
        apply Nat.le_of_mul_le_mul_right _ (show 0 < 10 by decide)
        calc
          s.mantissa / 2 * 5 ^ n * 10 = s.mantissa / 2 * 2 * 5 ^ n * 5 := by ring
          _ ≤ s.mantissa * 5 ^ n * 5 := Nat.mul_le_mul_right 5 half
          _ = s.mantissa * 5 ^ (n + 1) := by ring
          _ ≤ bound * (10 ^ (s.places - 1) * 10) := below
          _ = bound * 10 ^ (s.places - 1) * 10 := by ring
    rw [Scaling.halve]
    split
    · exact halved
    · split
      · apply ih
        · change n ≤ s.places
          omega
        · change s.mantissa * 5 * 5 ^ n ≤ bound * 10 ^ s.places
          rw [mul_assoc, ← pow_succ']
          exact below
      · exact halved

end Scaling

namespace FiniteBinary

theorem ofParts?_eq_some {negative : Bool} {mantissa scale : Nat} {d : Decimal}
    (parts : Decimal.ofParts? negative mantissa scale = some d) :
    d.negative = negative ∧ d.mantissa = mantissa ∧ d.scale = scale := by
  unfold Decimal.ofParts? at parts
  split at parts
  · cases parts
    exact ⟨rfl, rfl, rfl⟩
  · cases parts

/-- The double is a whole number, and it is this one. -/
theorem toRat_eq_iff (x : FiniteBinary .double) (i : Int) : x.toRat = i ↔ x.isWhole = true ∧
    (if x.negative then -((x.magnitude.1 / x.magnitude.2 : Nat) : Int)
      else (x.magnitude.1 / x.magnitude.2 : Nat)) = i := by
  have divisor : 0 < x.magnitude.2 := Nat.pow_pos (by decide)
  have value := @signed_quotient_eq_iff x.magnitude.1 x.magnitude.2 divisor x.negative i
  rw [isWhole, beq_iff_eq]
  exact value

/-- A whole double has the decimal of its value, without places, if that is not too large. -/
theorem toDecimal?_of_isWhole {x : FiniteBinary .double} (whole : x.isWhole = true) :
    x.toDecimal? = Decimal.ofParts? x.negative (x.magnitude.1 / x.magnitude.2) 0 := by
  unfold toDecimal?
  split
  · next up =>
    have none : (-x.exponent).toNat = 0 := by omega
    rw [magnitude, scaled, none]
    simp
  · next down =>
    have none : x.exponent.toNat = 0 := by omega
    have taken : x.significand = x.significand / 2 ^ (-x.exponent).toNat * 2 ^ (-x.exponent).toNat := by
      rw [isWhole, beq_iff_eq, magnitude, scaled, none] at whole
      have parts := Nat.div_add_mod' x.significand (2 ^ (-x.exponent).toNat)
      simp only [Nat.pow_eq, pow_zero, mul_one] at whole
      omega
    have power : x.exponent + ((-x.exponent).toNat : Int) = 0 := by omega
    have halved : Scaling.halve (-x.exponent).toNat ⟨x.significand, x.exponent⟩ =
        ⟨x.significand / 2 ^ (-x.exponent).toNat, 0⟩ := by
      conv_lhs => rw [taken]
      rw [Scaling.halve_mul_pow, power]
    -- no places are left, so nothing is rounded
    rw [halved, magnitude, scaled, none]
    simp [Scaling.places, Scaling.dropDigits, Scaling.trimBits, Scaling.trimZeros]

theorem toRat_of_isWhole {x : FiniteBinary .double} (whole : x.isWhole = true) {d : Decimal}
    (found : x.toDecimal? = some d) : d.toRat = x.toRat := by
  rw [toDecimal?_of_isWhole whole] at found
  obtain ⟨negative, mantissa, scale⟩ := ofParts?_eq_some found
  rw [(x.toRat_eq_iff _).mpr ⟨whole, rfl⟩, Decimal.toRat, Decimal.signed, negative, mantissa, scale]
  simp

/-- The decimal of a whole double is found up to `2^96`, and is the same whole number. -/
theorem whole_eq_some_iff (x : FiniteBinary .double) (i : Int) :
    (if x.isWhole then x.toDecimal?.map Decimal.whole else none) = some i ↔
      x.toRat = i ∧ i.natAbs < Decimal.limit := by
  by_cases whole : x.isWhole = true
  · rw [if_pos whole, Option.map_eq_some_iff]
    constructor
    · intro found
      obtain ⟨d, found, rfl⟩ := found
      have value := (toRat_of_isWhole whole found).trans ((x.toRat_eq_iff _).mpr ⟨whole, rfl⟩)
      have own := (d.toRat_eq_iff _).mpr ⟨((d.toRat_eq_iff _).mp value).1, rfl⟩
      exact ⟨(toRat_of_isWhole whole found).symm.trans own, d.natAbs_whole_lt⟩
    · intro given
      obtain ⟨value, short⟩ := given
      have small : x.size < 2 ^ 96 := by
        have magnitude : x.size = (i.natAbs : ℚ) := by
          rw [← x.abs_toRat, value, Nat.cast_natAbs, Int.cast_abs]
        unfold Decimal.limit at short
        rw [magnitude]
        exact_mod_cast short
      cases found : x.toDecimal? with
      | none => exact absurd small (not_lt.mpr (x.toDecimal?_eq_none_iff.mp found))
      | some d =>
        have same := (toRat_of_isWhole whole found).trans value
        exact ⟨d, rfl, ((d.toRat_eq_iff i).mp same).2⟩
  · rw [if_neg whole]
    refine iff_of_false nofun ?_
    intro given
    exact whole ((x.toRat_eq_iff i).mp given.1).1

/-- Below `2^96` doubles are at least `2^43` apart from it. -/
theorem size_le_of_lt {x : FiniteBinary .double} (small : x.size < 2 ^ 96) :
    x.size ≤ 2 ^ 96 - 2 ^ 43 := by
  obtain ⟨bits, _, _, full⟩ := x.canonical
  change x.significand < 2 ^ 53 at bits
  have low : x.exponent ≤ 43 := by
    by_contra high
    have filled : 2 ^ 52 ≤ x.significand := by
      rcases full with full | least
      · change 2 ^ 53 ≤ 2 * x.significand at full
        omega
      · change x.exponent = -1074 at least
        omega
    have large : (2 : ℚ) ^ 96 ≤ x.size := by
      calc
        (2 : ℚ) ^ 96 = (2 ^ 52 : Nat) * 2 ^ (44 : Int) := by norm_num
        _ ≤ x.significand * 2 ^ x.exponent := by
          apply mul_le_mul (by exact_mod_cast filled) _ (by positivity) (by positivity)
          exact zpow_le_zpow_right₀ (by norm_num) (by omega)
    exact absurd small (not_lt.mpr large)
  have most : x.significand ≤ 2 ^ 53 - 1 := by omega
  calc
    x.size = x.significand * 2 ^ x.exponent := rfl
    _ ≤ (2 ^ 53 - 1 : Nat) * 2 ^ (43 : Int) := by
      apply mul_le_mul (by exact_mod_cast most) _ (by positivity) (by positivity)
      exact zpow_le_zpow_right₀ (by norm_num) low
    _ = 2 ^ 96 - 2 ^ 43 := by norm_num

/-- A decimal that comes from a double is as far from `2^96` as doubles below it are. -/
theorem abs_toRat_le_of_toDecimal? {x : FiniteBinary .double} {d : Decimal}
    (found : x.toDecimal? = some d) : |d.toRat| ≤ 2 ^ 96 - 2 ^ 43 := by
  have bits : x.significand < 2 ^ 53 := x.canonical.1
  have small : x.size < 2 ^ 96 := by
    apply not_le.mp
    intro large
    rw [← x.toDecimal?_eq_none_iff] at large
    cases large.symm.trans found
  unfold toDecimal? at found
  split at found
  · next up =>
    obtain ⟨_, mantissa, scale⟩ := ofParts?_eq_some found
    obtain ⟨k, same⟩ := Int.eq_ofNat_of_zero_le up
    have value : |d.toRat| = x.size := by
      rw [d.abs_toRat, mantissa, scale, size, same, Int.toNat_natCast, zpow_natCast]
      simp
    rw [value]
    exact size_le_of_lt small
  · next down =>
    have start : Scaling.Within (Scaling.halve (-x.exponent).toNat ⟨x.significand, x.exponent⟩)
        (2 ^ 53) := by
      apply Scaling.within_halve (s := ⟨x.significand, x.exponent⟩) le_rfl
      exact Nat.mul_le_mul bits.le (Nat.pow_le_pow_left (by decide) _)
    have short := ((start.dropDigits (Nat.sub_le _ Decimal.maxScale)).trimBits le_rfl).trimZeros le_rfl
    obtain ⟨_, mantissa, scale⟩ := ofParts?_eq_some found
    rw [Scaling.Within, ← mantissa, ← scale] at short
    have unit : (0 : ℚ) < (Nat.pow 10 d.scale : Nat) := by exact_mod_cast Nat.pow_pos (by decide)
    have bound : |d.toRat| ≤ (2 ^ 53 : Nat) := by
      rw [d.abs_toRat, div_le_iff₀ unit]
      exact_mod_cast short
    exact bound.trans (by norm_num)

end FiniteBinary

end EntitySchema.Number
