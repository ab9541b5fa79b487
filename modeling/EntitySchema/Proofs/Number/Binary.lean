import EntitySchema.Number.Binary
import Mathlib.Algebra.Order.Field.Power
import Mathlib.Data.Int.Log
import Mathlib.Data.Rat.Floor
import Mathlib.Tactic.FieldSimp
import Mathlib.Tactic.Positivity
import Mathlib.Tactic.Ring

/-!
Numbers that a format holds are not changed by rounding. Every single is the value of a double, so
singles come back from their doubles.
-/

namespace EntitySchema.Number

/-- A power as the quotient that stands for it. -/
theorem pow_toNat_div (base : ℚ) (e : Int) : base ^ e.toNat / base ^ (-e).toNat = base ^ e := by
  rcases Int.le_total 0 e with up | down
  · have none : (-e).toNat = 0 := by omega
    rw [none, pow_zero, div_one, ← zpow_natCast, Int.toNat_of_nonneg up]
  · have none : e.toNat = 0 := by omega
    have power : ((-e).toNat : Int) = -e := Int.toNat_of_nonneg (by omega)
    rw [none, pow_zero, one_div, ← zpow_natCast, power, zpow_neg, inv_inv]

theorem scaled_two (n : Nat) (e : Int) :
    ((scaled 2 n e).1 : ℚ) / (scaled 2 n e).2 = n * 2 ^ e := by
  simp only [scaled, Nat.pow_eq, Nat.cast_mul, Nat.cast_pow, Nat.cast_ofNat]
  rw [mul_div_assoc, pow_toNat_div]

theorem pow_log2_le {n : Nat} (positive : 0 < n) : (2 : ℚ) ^ n.log2 ≤ n := by
  exact_mod_cast Nat.log2_self_le positive.ne'

theorem lt_pow_log2 (n : Nat) : (n : ℚ) < 2 ^ (n.log2 + 1) := by
  exact_mod_cast Nat.lt_log2_self

theorem log_eq_of_between {q : ℚ} {l : Int} (low : (2 : ℚ) ^ l ≤ q) (high : q < 2 ^ (l + 1)) :
    Int.log 2 q = l := by
  have positive : 0 < q := lt_of_lt_of_le (by positivity) low
  have least : l ≤ Int.log 2 q :=
    (Int.zpow_le_iff_le_log (by decide) positive).mp (by exact_mod_cast low)
  have most : Int.log 2 q < l + 1 :=
    (Int.lt_zpow_iff_log_lt (by decide) positive).mp (by exact_mod_cast high)
  omega

theorem log2Quotient_eq_log {num den : Nat} (positive : 0 < num) (nonzero : 0 < den) :
    log2Quotient num den = Int.log 2 ((num : ℚ) / den) := by
  have divisor : (0 : ℚ) < den := by exact_mod_cast nonzero
  let l : Int := (num.log2 : Int) - den.log2
  have reaches : den * Nat.pow 2 l.toNat ≤ num * Nat.pow 2 (-l).toNat ↔
      (2 : ℚ) ^ l ≤ (num : ℚ) / den := by
    have power : (0 : ℚ) < 2 ^ (-l).toNat := by positivity
    rw [← pow_toNat_div, div_le_div_iff₀ power divisor, mul_comm ((2 : ℚ) ^ l.toNat)]
    simp only [Nat.pow_eq]
    exact_mod_cast Iff.rfl
  -- the difference of the logarithms is right or one too much
  have under : (2 : ℚ) ^ (l - 1) ≤ (num : ℚ) / den := by
    rw [le_div_iff₀ divisor]
    calc
      (2 : ℚ) ^ (l - 1) * den ≤ 2 ^ (l - 1) * 2 ^ (den.log2 + 1) :=
        mul_le_mul_of_nonneg_left (lt_pow_log2 den).le (by positivity)
      _ = 2 ^ num.log2 := by
        rw [← zpow_natCast, ← zpow_natCast, ← zpow_add₀ (by norm_num)]
        congr 1
        push_cast
        omega
      _ ≤ num := pow_log2_le positive
  have below : (num : ℚ) / den < 2 ^ (l + 1) := by
    rw [div_lt_iff₀ divisor]
    calc
      (num : ℚ) < 2 ^ (num.log2 + 1) := lt_pow_log2 num
      _ = 2 ^ (l + 1) * 2 ^ den.log2 := by
        rw [← zpow_natCast, ← zpow_natCast, ← zpow_add₀ (by norm_num)]
        congr 1
        push_cast
        omega
      _ ≤ 2 ^ (l + 1) * den := mul_le_mul_of_nonneg_left (pow_log2_le nonzero) (by positivity)
  change (if den * Nat.pow 2 l.toNat ≤ num * Nat.pow 2 (-l).toNat then l else l - 1) = _
  by_cases reached : den * Nat.pow 2 l.toNat ≤ num * Nat.pow 2 (-l).toNat
  · rw [if_pos reached]
    exact (log_eq_of_between (reaches.mp reached) below).symm
  · rw [if_neg reached]
    have short : (num : ℚ) / den < 2 ^ (l - 1 + 1) := by
      rw [sub_add_cancel]
      exact not_le.mp (reached ∘ reaches.mpr)
    exact (log_eq_of_between under short).symm

theorem log_scaled {s : Nat} (positive : 0 < s) (e : Int) :
    Int.log 2 ((s : ℚ) * 2 ^ e) = s.log2 + e := by
  apply log_eq_of_between
  · rw [zpow_add₀ (by norm_num), zpow_natCast]
    exact mul_le_mul_of_nonneg_right (pow_log2_le positive) (by positivity)
  · rw [add_right_comm, zpow_add₀ (by norm_num), ← Nat.cast_add_one, zpow_natCast]
    exact mul_lt_mul_of_pos_right (lt_pow_log2 s) (by positivity)

theorem roundHalfEven_mul (s n : Nat) (positive : 0 < n) : roundHalfEven (s * n) n = s := by
  unfold roundHalfEven
  dsimp only
  rw [Nat.mul_mod_left, Nat.mul_div_cancel _ positive, if_pos (.inl (by simpa using positive))]

namespace BinaryFormat

/-- The exponent of a number that the format holds is the one that rounding gives its value. -/
theorem Canonical.exponent_eq {f : BinaryFormat} {s : Nat} {e : Int} (holds : f.Canonical s e)
    (positive : 0 < s) : max f.minExponent (s.log2 + e + 1 - f.precision) = e := by
  obtain ⟨bound, least, _, full⟩ := holds
  simp only [Nat.pow_eq] at bound full
  have digits : s.log2 < f.precision := (Nat.log2_lt positive.ne').mpr bound
  rcases full with full | lowest
  · have filled : f.precision ≤ s.log2 + 1 := by
      by_contra short
      have small : 2 * s < 2 ^ (s.log2 + 1 + 1) := by
        have next := Nat.lt_log2_self (n := s)
        rw [pow_succ]
        omega
      have power : 2 ^ (s.log2 + 1 + 1) ≤ 2 ^ f.precision :=
        Nat.pow_le_pow_right (by decide) (by omega)
      omega
    omega
  · omega

end BinaryFormat

namespace Binary

variable {f : BinaryFormat}

theorem assemble_canonical {s : Nat} {e : Int} (holds : f.Canonical s e) (negative : Bool) :
    assemble f negative s e = .finite ⟨negative, s, e, holds⟩ :=
  dif_pos holds

/-- A quotient that is the value of a number of the format is rounded to that number. -/
theorem round_exact {s : Nat} {e : Int} (holds : f.Canonical s e) (negative : Bool) {num den : Nat}
    (nonzero : 0 < den) (value : (num : ℚ) / den = s * 2 ^ e) :
    round f negative num den = .finite ⟨negative, s, e, holds⟩ := by
  have divisor : (0 : ℚ) < den := by exact_mod_cast nonzero
  unfold round
  rcases Nat.eq_zero_or_pos s with rfl | positive
  · have lowest : e = f.minExponent := by
      obtain ⟨_, _, _, full | lowest⟩ := holds
      · have power : 0 < Nat.pow 2 f.precision := Nat.pow_pos (by decide)
        omega
      · exact lowest
    have zero : num = 0 := by
      rw [Nat.cast_zero, zero_mul, div_eq_zero_iff] at value
      exact_mod_cast value.resolve_right divisor.ne'
    subst lowest
    rw [if_pos zero, assemble_canonical holds]
  · have dividend : 0 < num := by
      have ratio : (0 : ℚ) < num / den := by
        rw [value]
        positivity
      exact_mod_cast (div_pos_iff_of_pos_right divisor).mp ratio
    have exponent : max f.minExponent (log2Quotient num den + 1 - f.precision) = e := by
      rw [log2Quotient_eq_log dividend nonzero, value, log_scaled positive]
      exact holds.exponent_eq positive
    rw [if_neg dividend.ne']
    dsimp only
    rw [exponent]
    -- at its own exponent the quotient is the significand, and nothing is left to round
    have whole : num * (scaled 2 den e).2 = s * (scaled 2 den e).1 := by
      have unit := pow_toNat_div 2 e
      rw [div_eq_iff (by positivity)] at unit
      rw [div_eq_iff divisor.ne'] at value
      simp only [scaled, Nat.pow_eq]
      have cast : ((num * 2 ^ (-e).toNat : Nat) : ℚ) = ((s * (den * 2 ^ e.toNat) : Nat) : ℚ) := by
        push_cast
        rw [value, unit]
        ring
      exact_mod_cast cast
    have unit : 0 < (scaled 2 den e).1 := Nat.mul_pos nonzero (Nat.pow_pos (by decide))
    change assemble f negative (roundHalfEven (num * (scaled 2 den e).2) (scaled 2 den e).1) e = _
    rw [whole, roundHalfEven_mul _ _ unit, assemble_canonical holds]

theorem convert_finite {g : BinaryFormat} (x : FiniteBinary f) {s : Nat} {e : Int}
    (holds : g.Canonical s e) (same : (s : ℚ) * 2 ^ e = x.significand * 2 ^ x.exponent) :
    convert g (.finite x) = .finite ⟨x.negative, s, e, holds⟩ := by
  apply round_exact holds
  · exact Nat.pow_pos (by decide)
  · rw [same]
    exact scaled_two x.significand x.exponent

/-- The value of every single is the value of a double. -/
theorem exists_double {s : Nat} {e : Int} (holds : BinaryFormat.single.Canonical s e) :
    ∃ t g, BinaryFormat.double.Canonical t g ∧ (t : ℚ) * 2 ^ g = s * 2 ^ e := by
  obtain ⟨bound, least, most, _⟩ := holds
  simp only [BinaryFormat.single, Nat.pow_eq] at bound least most
  rcases Nat.eq_zero_or_pos s with rfl | positive
  · exact ⟨0, -1074, by decide, by simp⟩
  · -- the significand is moved up until it fills all bits
    have digits : s.log2 < 24 := (Nat.log2_lt positive.ne').mpr bound
    have low := Nat.log2_self_le positive.ne'
    have high := Nat.lt_log2_self (n := s)
    have total : 2 ^ s.log2 * 2 ^ (52 - s.log2) = 2 ^ 52 := by
      rw [← pow_add]
      congr 1
      omega
    have filled : 2 ^ 52 ≤ s * 2 ^ (52 - s.log2) := by
      rw [← total]
      exact Nat.mul_le_mul_right _ low
    have fits : s * 2 ^ (52 - s.log2) < 2 ^ 53 := by
      have scaled : s * 2 ^ (52 - s.log2) < 2 ^ (s.log2 + 1) * 2 ^ (52 - s.log2) :=
        Nat.mul_lt_mul_of_pos_right high (by positivity)
      rw [pow_succ, mul_right_comm, total] at scaled
      omega
    refine ⟨s * 2 ^ (52 - s.log2), e - (52 - s.log2 : Nat), ?_, ?_⟩
    · refine ⟨?_, ?_, ?_, .inl ?_⟩
      · simpa only [BinaryFormat.double, Nat.pow_eq] using fits
      · simp only [BinaryFormat.double]
        omega
      · simp only [BinaryFormat.double]
        omega
      · simp only [BinaryFormat.double, Nat.pow_eq]
        omega
    · rw [zpow_sub₀ (by norm_num), zpow_natCast]
      push_cast
      field_simp

/-- Singles come back from their doubles, and a single that is finite has a finite double. -/
theorem convert_double (x : Binary32) : convert .single (convert .double x) = x ∧
    (convert .double x).isFinite = x.isFinite := by
  cases x with
  | nan => exact ⟨rfl, rfl⟩
  | infinite negative => exact ⟨rfl, rfl⟩
  | finite x =>
    obtain ⟨t, g, holds, same⟩ := exists_double x.canonical
    rw [convert_finite x holds same]
    exact ⟨convert_finite _ x.canonical same.symm, rfl⟩

end Binary

end EntitySchema.Number
