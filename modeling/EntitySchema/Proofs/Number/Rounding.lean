import EntitySchema.Proofs.Number.Binary

/-!
Rounding in order. Rounding never passes a number that the format holds: quotients up to such a number
are rounded to no more than it, and quotients from it on to no less. A quotient is rounded to the number
that it is at most half a place away from.
-/

namespace EntitySchema.Number

theorem roundHalfEven_le {num den bound : Nat} (positive : 0 < den) (below : num ≤ bound * den) :
    roundHalfEven num den ≤ bound := by
  have low : num / den ≤ bound := Nat.div_le_of_le_mul (Nat.mul_comm bound den ▸ below)
  unfold roundHalfEven
  dsimp only
  split
  · exact low
  · next up =>
    have parts := Nat.div_add_mod' num den
    rcases Nat.lt_or_eq_of_le low with less | same
    · exact less
    · rw [same] at parts
      omega

theorem le_roundHalfEven {num den bound : Nat} (positive : 0 < den) (above : bound * den ≤ num) :
    bound ≤ roundHalfEven num den := by
  have low : bound ≤ num / den := (Nat.le_div_iff_mul_le positive).mpr above
  unfold roundHalfEven
  dsimp only
  split
  · exact low
  · omega

/-- The integer `s` is nearest to a quotient that is at most half away from it, and less than half away
if `s` is odd. -/
theorem roundHalfEven_eq {num den s : Nat} (positive : 0 < den) (low : 2 * s * den ≤ 2 * num + den)
    (high : 2 * num ≤ 2 * s * den + den)
    (odd : s % 2 = 1 → 2 * s * den ≠ 2 * num + den ∧ 2 * num ≠ 2 * s * den + den) :
    roundHalfEven num den = s := by
  have parts := Nat.div_add_mod' num den
  have rest := Nat.mod_lt num positive
  unfold roundHalfEven
  dsimp only
  generalize num % den = r at *
  generalize num / den = n at *
  -- the whole part is `s` or the integer before it
  have most : n ≤ s := by
    by_contra more
    have product : (s + 1) * den ≤ n * den := Nat.mul_le_mul_right den (Nat.not_le.mp more)
    rw [Nat.add_mul] at product
    linarith
  have least : s ≤ n + 1 := by
    by_contra less
    have product : (n + 2) * den ≤ s * den := Nat.mul_le_mul_right den (by omega)
    rw [Nat.add_mul] at product
    linarith
  rcases Nat.lt_or_eq_of_le most with before | rfl
  · obtain rfl : s = n + 1 := by omega
    have half : den ≤ 2 * r := by linarith
    rw [if_neg]
    rintro (less | ⟨tie, even⟩)
    · omega
    · exact (odd (by omega)).1 (by linarith)
  · have half : 2 * r ≤ den := by linarith
    rw [if_pos]
    rcases Nat.lt_or_eq_of_le half with less | tie
    · exact .inl less
    · refine .inr ⟨tie, ?_⟩
      by_contra notEven
      exact (odd (by omega)).2 (by linarith)

theorem BinaryFormat.Canonical.bits {f : BinaryFormat} {s : Nat} {e : Int} (holds : f.Canonical s e)
    (positive : 0 < s) : 0 < f.precision := by
  by_contra none
  have bound := holds.1
  rw [Nat.eq_zero_of_not_pos none, Nat.pow_eq, pow_zero] at bound
  omega

/-- The number without its sign. -/
def FiniteBinary.size {f : BinaryFormat} (x : FiniteBinary f) : ℚ := x.significand * 2 ^ x.exponent

/-- What is divided to round a quotient, in one unit. -/
theorem exists_unit {den : Nat} (nonzero : 0 < den) (num : Nat) (e : Int) : ∃ unit : ℚ, 0 < unit ∧
    ((scaled 2 den e).1 : ℚ) = 2 ^ e * unit ∧
      ((num * (scaled 2 den e).2 : Nat) : ℚ) = num / den * unit := by
  have divisor : (0 : ℚ) < den := by exact_mod_cast nonzero
  refine ⟨den * 2 ^ (-e).toNat, by positivity, ?_, ?_⟩
  · simp only [← pow_toNat_div, scaled, Nat.pow_eq]
    push_cast
    field_simp
  · simp only [scaled, Nat.pow_eq]
    push_cast
    field_simp

theorem scaled_le_iff {num den : Nat} (nonzero : 0 < den) (e : Int) (bound : Nat) :
    num * (scaled 2 den e).2 ≤ bound * (scaled 2 den e).1 ↔
      (num : ℚ) / den ≤ bound * 2 ^ e := by
  obtain ⟨unit, positive, own, other⟩ := exists_unit nonzero num e
  rw [← Nat.cast_le (α := ℚ), other, Nat.cast_mul, own, ← mul_assoc, mul_le_mul_iff_left₀ positive]

theorem le_scaled_iff {num den : Nat} (nonzero : 0 < den) (e : Int) (bound : Nat) :
    bound * (scaled 2 den e).1 ≤ num * (scaled 2 den e).2 ↔
      (bound : ℚ) * 2 ^ e ≤ (num : ℚ) / den := by
  obtain ⟨unit, positive, own, other⟩ := exists_unit nonzero num e
  rw [← Nat.cast_le (α := ℚ), other, Nat.cast_mul, own, ← mul_assoc, mul_le_mul_iff_left₀ positive]

namespace Binary

variable {f : BinaryFormat}

/-- The exponent at which a quotient is rounded. -/
def exponentOf (f : BinaryFormat) (num den : Nat) : Int :=
  max f.minExponent (log2Quotient num den + 1 - f.precision)

/-- The significand to which a quotient is rounded. -/
def significandOf (f : BinaryFormat) (num den : Nat) : Nat :=
  let (n, d) := scaled 2 den (exponentOf f num den)
  roundHalfEven (num * d) n

theorem round_of_positive {num : Nat} (positive : 0 < num) (negative : Bool) (den : Nat) :
    round f negative num den =
      assemble f negative (significandOf f num den) (exponentOf f num den) :=
  if_neg positive.ne'

section

variable {num den : Nat} (nonzero : 0 < den)

include nonzero

theorem significandOf_le {bound : Nat}
    (below : (num : ℚ) / den ≤ bound * 2 ^ exponentOf f num den) : significandOf f num den ≤ bound :=
  roundHalfEven_le (Nat.mul_pos nonzero (Nat.pow_pos (by decide)))
    ((scaled_le_iff nonzero _ bound).mpr below)

theorem le_significandOf {bound : Nat}
    (above : bound * 2 ^ exponentOf f num den ≤ (num : ℚ) / den) : bound ≤ significandOf f num den :=
  le_roundHalfEven (Nat.mul_pos nonzero (Nat.pow_pos (by decide)))
    ((le_scaled_iff nonzero _ bound).mpr above)

end

/-- A quotient in terms of the exponent at which it is rounded. -/
theorem exponentOf_bounds {num den : Nat} (positive : 0 < num) (nonzero : 0 < den) :
    (num : ℚ) / den < 2 ^ (exponentOf f num den + f.precision) ∧
    (exponentOf f num den = f.minExponent ∨
      2 ^ (exponentOf f num den + f.precision - 1) ≤ (num : ℚ) / den) := by
  have quotient : (0 : ℚ) < num / den := by positivity
  have log := log2Quotient_eq_log positive nonzero
  unfold exponentOf
  rw [log]
  constructor
  · calc
      (num : ℚ) / den < 2 ^ (Int.log 2 ((num : ℚ) / den) + 1) := Int.lt_zpow_succ_log_self (by decide) _
      _ ≤ _ := zpow_le_zpow_right₀ (by norm_num) (by omega)
  · rcases max_choice f.minExponent (Int.log 2 ((num : ℚ) / den) + 1 - f.precision) with least | full
    · exact .inl least
    · right
      rw [full, sub_add_cancel, add_sub_cancel_right]
      exact Int.zpow_log_le_self (by decide) quotient

theorem significandOf_le_pow {num den : Nat} (positive : 0 < num) (nonzero : 0 < den) :
    significandOf f num den ≤ 2 ^ f.precision := by
  apply significandOf_le nonzero
  have below := (exponentOf_bounds (f := f) positive nonzero).1
  rw [zpow_add₀ (by norm_num), mul_comm, zpow_natCast] at below
  exact_mod_cast below.le

/-- The significand uses all bits, unless the exponent is the least one. -/
theorem significandOf_full {num den : Nat} (positive : 0 < num) (nonzero : 0 < den)
    (bits : 0 < f.precision) : exponentOf f num den = f.minExponent ∨
      2 ^ f.precision ≤ 2 * significandOf f num den := by
  rcases (exponentOf_bounds (f := f) positive nonzero).2 with least | above
  · exact .inl least
  · right
    obtain ⟨p, same⟩ := Nat.exists_eq_add_one.mpr bits
    have reached : 2 ^ p ≤ significandOf f num den := by
      apply le_significandOf nonzero
      have exponent : exponentOf f num den + f.precision - 1 = p + exponentOf f num den := by
        rw [same]
        push_cast
        omega
      rw [exponent, zpow_add₀ (by norm_num), zpow_natCast] at above
      exact_mod_cast above
    rw [same, pow_succ']
    omega

/-- A significand that rounding has made one bit too long has room at the next exponent. -/
theorem exists_assemble {s : Nat} {e : Int} (bits : 0 < f.precision) (fits : s ≤ 2 ^ f.precision)
    (full : e = f.minExponent ∨ 2 ^ f.precision ≤ 2 * s) (least : f.minExponent ≤ e)
    (most : e ≤ f.maxExponent) (room : s = 2 ^ f.precision → e < f.maxExponent) (negative : Bool) :
    ∃ x, assemble f negative s e = .finite x := by
  rcases Nat.lt_or_eq_of_le fits with short | long
  · exact ⟨_, assemble_canonical ⟨short, least, most, full.symm⟩ negative⟩
  · obtain ⟨p, same⟩ := Nat.exists_eq_add_one.mpr bits
    have longer : ¬f.Canonical s e := fun holds => absurd holds.1 (by rw [long]; exact lt_irrefl _)
    have half : f.Canonical (s / 2) (e + 1) := by
      have power := Nat.pow_pos (n := p) (show 0 < 2 by decide)
      rw [long, same, pow_succ, Nat.mul_div_cancel _ (by decide)]
      refine ⟨?_, by omega, by have := room long; omega, .inl ?_⟩
      · rw [same, Nat.pow_eq, pow_succ]
        omega
      · rw [same, Nat.pow_eq, pow_succ']
    exact ⟨_, (dif_neg longer).trans (dif_pos half)⟩

/-- What is assembled from a significand that is no longer than rounding makes it has its value. -/
theorem size_of_assemble {s : Nat} {e : Int} {negative : Bool} {x : FiniteBinary f}
    (fits : s ≤ 2 ^ f.precision) (least : f.minExponent ≤ e)
    (done : assemble f negative s e = .finite x) : x.negative = negative ∧ x.size = s * 2 ^ e := by
  unfold assemble at done
  split at done
  · cases done
    exact ⟨rfl, rfl⟩
  · split at done
    · next longer =>
      cases done
      obtain ⟨_, _, _, full | lowest⟩ := longer
      · have even : 2 * (s / 2) = s := by
          simp only [Nat.pow_eq] at full
          omega
        have half : (2 : ℚ) * (s / 2 : Nat) = s := by exact_mod_cast even
        refine ⟨rfl, ?_⟩
        rw [FiniteBinary.size, ← half, zpow_add_one₀ (by norm_num)]
        ring
      · omega
    · cases done

theorem least_exponentOf (num den : Nat) : f.minExponent ≤ exponentOf f num den := le_max_left _ _

/-- The value to which a quotient is rounded. -/
theorem size_of_round {num den : Nat} (positive : 0 < num) (nonzero : 0 < den) {negative : Bool}
    {x : FiniteBinary f} (done : round f negative num den = .finite x) :
    x.negative = negative ∧ x.size = significandOf f num den * 2 ^ exponentOf f num den := by
  rw [round_of_positive positive] at done
  exact size_of_assemble (significandOf_le_pow positive nonzero) (least_exponentOf num den) done

theorem round_zero (holds : ∃ s e, f.Canonical s e) (negative : Bool) (den : Nat) :
    ∃ x : FiniteBinary f, round f negative 0 den = .finite x ∧ x.negative = negative ∧ x.size = 0 := by
  obtain ⟨s, e, bound, least, most, _⟩ := holds
  have zero : f.Canonical 0 f.minExponent :=
    ⟨Nat.pow_pos (by decide), le_rfl, le_trans least most, .inr rfl⟩
  refine ⟨⟨negative, 0, f.minExponent, zero⟩, ?_, rfl, ?_⟩
  · rw [round, if_pos rfl, assemble_canonical zero]
  · rw [FiniteBinary.size, Nat.cast_zero, zero_mul]

section

variable {s : Nat} {e : Int} (holds : f.Canonical s e) {num den : Nat} (nonzero : 0 < den)

include holds nonzero

theorem exponentOf_le (positive : 0 < num) (below : (num : ℚ) / den ≤ s * 2 ^ e) :
    0 < s ∧ exponentOf f num den ≤ e := by
  have quotient : (0 : ℚ) < num / den := by positivity
  have bound : (0 : ℚ) < s * 2 ^ e := lt_of_lt_of_le quotient below
  have some : 0 < s := by exact_mod_cast (pos_iff_pos_of_mul_pos bound).mpr (by positivity)
  have own := holds.exponent_eq some
  have less := Int.log_mono_right (b := 2) quotient below
  rw [log_scaled some] at less
  rw [exponentOf, log2Quotient_eq_log positive nonzero]
  exact ⟨some, by omega⟩

theorem le_exponentOf (some : 0 < s) (above : s * 2 ^ e ≤ (num : ℚ) / den) :
    0 < num ∧ e ≤ exponentOf f num den := by
  have divisor : (0 : ℚ) < den := by exact_mod_cast nonzero
  have bound : (0 : ℚ) < s * 2 ^ e := by positivity
  have positive : 0 < num := by
    exact_mod_cast (div_pos_iff_of_pos_right divisor).mp (lt_of_lt_of_le bound above)
  have own := holds.exponent_eq some
  have less := Int.log_mono_right (b := 2) bound above
  rw [log_scaled some] at less
  rw [exponentOf, log2Quotient_eq_log positive nonzero]
  exact ⟨positive, by omega⟩

/-- What is no greater than a number of the format is rounded to a number that is no greater. -/
theorem exists_round_le (below : (num : ℚ) / den ≤ s * 2 ^ e) (negative : Bool) :
    ∃ x : FiniteBinary f, round f negative num den = .finite x ∧ x.negative = negative ∧
      x.size ≤ s * 2 ^ e := by
  rcases Nat.eq_zero_or_pos num with rfl | positive
  · obtain ⟨x, done, sign, zero⟩ := round_zero ⟨s, e, holds⟩ negative den
    exact ⟨x, done, sign, zero ▸ by positivity⟩
  · obtain ⟨some, lower⟩ := exponentOf_le holds nonzero positive below
    have bits := holds.bits some
    -- the bound is a whole number at the exponent of the quotient
    obtain ⟨k, same⟩ := Int.le.dest lower
    have value : (s : ℚ) * 2 ^ e = (s * 2 ^ k : Nat) * 2 ^ exponentOf f num den := by
      rw [← same, add_comm, zpow_add₀ (by norm_num), zpow_natCast]
      push_cast
      ring
    have most : significandOf f num den ≤ s * 2 ^ k := by
      apply significandOf_le nonzero
      rw [← value]
      exact below
    have room : significandOf f num den = 2 ^ f.precision → exponentOf f num den < f.maxExponent := by
      intro long
      have bound := holds.1
      have last := holds.2.2.1
      rcases Nat.eq_zero_or_pos k with rfl | more
      · rw [long, pow_zero, Nat.mul_one] at most
        exact absurd bound (Nat.not_lt.mpr most)
      · omega
    obtain ⟨x, done⟩ := exists_assemble bits (significandOf_le_pow positive nonzero)
      (significandOf_full positive nonzero bits) (least_exponentOf num den) (lower.trans holds.2.2.1) room
      negative
    rw [← round_of_positive positive] at done
    obtain ⟨sign, size⟩ := size_of_round positive nonzero done
    refine ⟨x, done, sign, ?_⟩
    rw [size, value]
    exact mul_le_mul_of_nonneg_right (by exact_mod_cast most) (by positivity)

/-- What is no less than a number of the format is rounded to a number that is no less. -/
theorem le_round (above : s * 2 ^ e ≤ (num : ℚ) / den) {negative : Bool} {x : FiniteBinary f}
    (done : round f negative num den = .finite x) : s * 2 ^ e ≤ x.size := by
  have nonneg : 0 ≤ x.size := by
    unfold FiniteBinary.size
    positivity
  rcases Nat.eq_zero_or_pos s with rfl | some
  · rw [Nat.cast_zero, zero_mul]
    exact nonneg
  · obtain ⟨positive, higher⟩ := le_exponentOf holds nonzero some above
    rw [(size_of_round positive nonzero done).2]
    rcases Int.lt_or_eq_of_le higher with higher | same
    · -- at a higher exponent the significand uses all bits
      have full : 2 ^ f.precision ≤ 2 * significandOf f num den := by
        have lowest := holds.2.1
        exact (significandOf_full positive nonzero (holds.bits some)).resolve_left (by omega)
      have less : s ≤ 2 * significandOf f num den := le_trans holds.1.le full
      calc
        (s : ℚ) * 2 ^ e ≤ (2 * significandOf f num den : Nat) * 2 ^ e :=
          mul_le_mul_of_nonneg_right (by exact_mod_cast less) (by positivity)
        _ = significandOf f num den * 2 ^ (e + 1) := by
          rw [zpow_add_one₀ (by norm_num)]
          push_cast
          ring
        _ ≤ significandOf f num den * 2 ^ exponentOf f num den :=
          mul_le_mul_of_nonneg_left (zpow_le_zpow_right₀ (by norm_num) higher) (by positivity)
    · have reached : s ≤ significandOf f num den := by
        apply le_significandOf nonzero
        rw [← same]
        exact above
      rw [← same]
      exact mul_le_mul_of_nonneg_right (by exact_mod_cast reached) (by positivity)

end

/-! The number to which a quotient is rounded. -/

section

variable {num den : Nat}

/-- The exponent at which a quotient is rounded is the only one that gives the quotient all bits of the
significand. -/
theorem exponentOf_eq (positive : 0 < num) (nonzero : 0 < den) {e : Int} (least : f.minExponent ≤ e)
    (full : e = f.minExponent ∨ 2 ^ (e + f.precision - 1) ≤ (num : ℚ) / den)
    (below : (num : ℚ) / den < 2 ^ (e + f.precision)) : exponentOf f num den = e := by
  obtain ⟨less, reached⟩ := exponentOf_bounds (f := f) positive nonzero
  have lowest := least_exponentOf (f := f) num den
  have order {m n : Int} (power : (2 : ℚ) ^ m < 2 ^ n) : m < n :=
    (zpow_lt_zpow_iff_right₀ (by norm_num)).mp power
  have most : exponentOf f num den ≤ e := by
    rcases reached with same | reached
    · omega
    · have bound := order (reached.trans_lt below)
      omega
  have enough : e ≤ exponentOf f num den := by
    rcases full with same | full
    · omega
    · have bound := order (full.trans_lt less)
      omega
  exact le_antisymm most enough

/-- The significand to which a quotient is rounded is at most half a place away from it, and less if it
is odd. -/
theorem significandOf_eq (nonzero : 0 < den) {s : Nat}
    (low : (2 * s - 1) * 2 ^ exponentOf f num den ≤ 2 * ((num : ℚ) / den))
    (high : 2 * ((num : ℚ) / den) ≤ (2 * s + 1) * 2 ^ exponentOf f num den)
    (odd : s % 2 = 1 → (2 * s - 1) * 2 ^ exponentOf f num den ≠ 2 * ((num : ℚ) / den) ∧
      2 * ((num : ℚ) / den) ≠ (2 * s + 1) * 2 ^ exponentOf f num den) :
    significandOf f num den = s := by
  generalize place : exponentOf f num den = e at *
  obtain ⟨unit, positive, own, other⟩ := exists_unit nonzero num e
  unfold significandOf
  rw [place]
  change roundHalfEven (num * (scaled 2 den e).2) (scaled 2 den e).1 = s
  generalize (scaled 2 den e).1 = n at *
  generalize num * (scaled 2 den e).2 = m at *
  have above : 0 < n := by
    have scaled : (0 : ℚ) < n := own ▸ by positivity
    exact_mod_cast scaled
  have lower : (2 * (s : ℚ) - 1) * 2 ^ e * unit = 2 * s * n - n := by
    rw [own]
    ring
  have middle : 2 * ((num : ℚ) / den) * unit = 2 * m := by
    rw [other]
    ring
  have upper : (2 * (s : ℚ) + 1) * 2 ^ e * unit = 2 * s * n + n := by
    rw [own]
    ring
  apply roundHalfEven_eq above
  · have scaled := mul_le_mul_of_nonneg_right low positive.le
    rw [lower, middle, sub_le_iff_le_add] at scaled
    exact_mod_cast scaled
  · have scaled := mul_le_mul_of_nonneg_right high positive.le
    rw [middle, upper] at scaled
    exact_mod_cast scaled
  · intro parity
    obtain ⟨first, last⟩ := odd parity
    constructor
    · intro tie
      apply first
      apply mul_right_cancel₀ positive.ne'
      rw [lower, middle, sub_eq_iff_eq_add]
      exact_mod_cast tie
    · intro tie
      apply last
      apply mul_right_cancel₀ positive.ne'
      rw [middle, upper]
      exact_mod_cast tie

end

end Binary

end EntitySchema.Number
