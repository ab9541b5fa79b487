import EntitySchema.Number.Conversion
import EntitySchema.Proofs.Number.Rounding

/-!
Numbers in the order of their values. Decimals of any places are compared like the rational numbers that
they stand for, and so are finite numbers of a binary format.
-/

namespace EntitySchema.Number

/-- Whole numbers are in the order of their values at any unit. -/
theorem compare_unit {unit : ℚ} (positive : 0 < unit) (m n : Int) :
    compare m n = compare (m * unit) (n * unit) := by
  rw [← cmp_eq_compare, ← cmp_eq_compare, cmp_mul_pos_right positive, Int.cast_strictMono.cmp_map_eq]

namespace Decimal

theorem compare_eq (a b : Decimal) : a.compare b = Ord.compare a.toRat b.toRat := by
  have left : (0 : ℚ) < (Nat.pow 10 a.scale : Nat) := by exact_mod_cast Nat.pow_pos (by decide)
  have right : (0 : ℚ) < (Nat.pow 10 b.scale : Nat) := by exact_mod_cast Nat.pow_pos (by decide)
  rw [compare, compare_unit (inv_pos.mpr (mul_pos left right))]
  congr 1
  · rw [toRat]
    push_cast
    field_simp
  · rw [toRat]
    push_cast
    field_simp

theorem toRat_eq (d : Decimal) : d.toRat =
    if d.negative then -((d.mantissa : ℚ) / (Nat.pow 10 d.scale : Nat))
    else (d.mantissa : ℚ) / (Nat.pow 10 d.scale : Nat) := by
  rw [toRat, signed]
  split
  · rw [Int.cast_neg, neg_div, Int.cast_natCast]
  · rw [Int.cast_natCast]

theorem abs_toRat (d : Decimal) : |d.toRat| = d.mantissa / (Nat.pow 10 d.scale : Nat) := by
  have size : (0 : ℚ) ≤ d.mantissa / (Nat.pow 10 d.scale : Nat) := by positivity
  rw [toRat_eq]
  split
  · rw [abs_neg, abs_of_nonneg size]
  · rw [abs_of_nonneg size]

/-- The mantissa has at most 96 bits. -/
theorem cast_mantissa_lt (d : Decimal) : (d.mantissa : ℚ) < 2 ^ 96 := by
  have bound := d.mantissa_lt
  unfold limit at bound
  exact_mod_cast bound

theorem abs_toRat_lt (d : Decimal) : |d.toRat| < 2 ^ 96 := by
  have unit : (1 : ℚ) ≤ (Nat.pow 10 d.scale : Nat) := by exact_mod_cast Nat.pow_pos (by decide)
  rw [abs_toRat]
  exact lt_of_le_of_lt (div_le_self (by positivity) unit) d.cast_mantissa_lt

end Decimal

namespace FiniteBinary

variable {f : BinaryFormat}

theorem size_nonneg (x : FiniteBinary f) : 0 ≤ x.size := by
  unfold size
  positivity

theorem toRat_eq (x : FiniteBinary f) : x.toRat = if x.negative then -x.size else x.size := by
  rw [toRat, size, ← scaled_two]
  rfl

theorem abs_toRat (x : FiniteBinary f) : |x.toRat| = x.size := by
  rw [toRat_eq]
  split
  · rw [abs_neg, abs_of_nonneg x.size_nonneg]
  · exact abs_of_nonneg x.size_nonneg

theorem significandAt_mul (x : FiniteBinary f) {e : Int} (lower : e ≤ x.exponent) :
    (x.significandAt e : ℚ) * 2 ^ e = x.toRat := by
  obtain ⟨k, same⟩ := Int.le.dest lower
  have value : ((x.significand * Nat.pow 2 (x.exponent - e).toNat : Int) : ℚ) * 2 ^ e = x.size := by
    have digits : (x.exponent - e).toNat = k := by omega
    rw [size, digits, ← same, add_comm, zpow_add₀ (by norm_num), zpow_natCast, Nat.pow_eq]
    push_cast
    ring
  rw [toRat_eq, significandAt]
  split
  · rw [Int.cast_neg, neg_mul, value]
  · exact value

theorem compare_eq (x y : FiniteBinary f) : x.compare y = Ord.compare x.toRat y.toRat := by
  have unit : (0 : ℚ) < 2 ^ min x.exponent y.exponent := by positivity
  rw [compare, compare_unit unit, x.significandAt_mul (min_le_left _ _),
    y.significandAt_mul (min_le_right _ _)]

end FiniteBinary

end EntitySchema.Number
