import EntitySchema.Proofs.Number.Order

/-!
How far conversions reach. A double has a decimal unless it reaches `2^96`, and the double of a decimal
stays below `2^96` unless the decimal is a whole number right below it.
-/

namespace EntitySchema.Number

namespace Scaling

/-- The mantissa has at most 96 bits, and there are at most so many places. -/
structure Fits (s : Scaling) (most : Nat) : Prop where
  mantissa : s.mantissa < Decimal.limit
  places : s.places ≤ most

variable {s : Scaling} {most : Nat}

theorem Fits.next (fits : s.Fits (most + 1)) {m : Nat} (less : m ≤ s.mantissa) :
    Fits ⟨m, s.exponent + 1⟩ most where
  mantissa := Nat.lt_of_le_of_lt less fits.mantissa
  places := by
    have places := fits.places
    unfold Scaling.places at *
    dsimp only
    omega

theorem Fits.mono (fits : s.Fits most) {more : Nat} (wider : most ≤ more) : s.Fits more :=
  ⟨fits.mantissa, fits.places.trans wider⟩

theorem Fits.halve (fits : s.Fits most) (n : Nat) : (Scaling.halve n s).Fits most := by
  induction n generalizing s with
  | zero => exact fits
  | succ n ih =>
    rw [Scaling.halve]
    split
    · exact ih ((fits.mono (Nat.le_succ _)).next (Nat.div_le_self _ _))
    · split
      · next short => exact ih ⟨short, fits.places⟩
      · exact ih ((fits.mono (Nat.le_succ _)).next (Nat.div_le_self _ _))

theorem Fits.dropDigit (fits : s.Fits (most + 1)) : s.dropDigit.Fits most := by
  apply fits.next
  unfold roundHalfUp
  omega

theorem Fits.dropDigits {n : Nat} (fits : s.Fits (most + n)) : (Scaling.dropDigits n s).Fits most := by
  induction n generalizing s with
  | zero => exact fits
  | succ n ih =>
    rw [Scaling.dropDigits]
    split
    · exact ⟨show 0 < Decimal.limit by decide, Nat.zero_le _⟩
    · exact ih fits.dropDigit

theorem Fits.trimBits (fits : s.Fits most) (n : Nat) : (Scaling.trimBits n s).Fits most := by
  induction n generalizing s with
  | zero => exact fits
  | succ n ih =>
    rw [Scaling.trimBits]
    split
    · exact fits
    · exact ih (fits.mono (Nat.le_succ _)).dropDigit

theorem Fits.trimZeros (fits : s.Fits most) (n : Nat) : (Scaling.trimZeros n s).Fits most := by
  induction n generalizing s with
  | zero => exact fits
  | succ n ih =>
    rw [Scaling.trimZeros]
    split
    · exact ih ((fits.mono (Nat.le_succ _)).next (Nat.div_le_self _ _))
    · exact fits

/-- What is left of a decimal under way has no more places than a decimal can have. -/
theorem Fits.shorten (fits : s.Fits most) :
    let short := Scaling.dropDigits (s.places - Decimal.maxScale) s
    let rounded := Scaling.trimBits short.places short
    (Scaling.trimZeros rounded.places rounded).Fits Decimal.maxScale := by
  have wide : s.Fits (Decimal.maxScale + (s.places - Decimal.maxScale)) := ⟨fits.mantissa, by omega⟩
  exact (wide.dropDigits.trimBits _).trimZeros _

end Scaling

namespace FiniteBinary

theorem ofParts?_eq_none {negative : Bool} {mantissa scale : Nat} (places : scale ≤ Decimal.maxScale) :
    Decimal.ofParts? negative mantissa scale = none ↔ Decimal.limit ≤ mantissa := by
  simp [Decimal.ofParts?, places]

/-- A double has a decimal unless it reaches `2^96`. -/
theorem toDecimal?_eq_none_iff (x : FiniteBinary .double) : x.toDecimal? = none ↔ 2 ^ 96 ≤ x.size := by
  have bits : x.significand < 2 ^ 53 := x.canonical.1
  unfold toDecimal?
  split
  · next whole =>
    obtain ⟨k, same⟩ := Int.eq_ofNat_of_zero_le whole
    rw [ofParts?_eq_none (by decide), size, same, zpow_natCast, Int.toNat_natCast, Nat.pow_eq]
    unfold Decimal.limit
    exact_mod_cast Iff.rfl
  · next fraction =>
    have small : x.size < 2 ^ 96 := by
      have half : (2 : ℚ) ^ x.exponent ≤ 1 := zpow_le_one_of_nonpos₀ (by norm_num) (by omega)
      calc
        x.size ≤ x.significand * 1 := mul_le_mul_of_nonneg_left half (by positivity)
        _ < 2 ^ 96 := by
          rw [mul_one]
          exact_mod_cast lt_trans bits (by decide)
    have start : Scaling.Fits ⟨x.significand, x.exponent⟩ (-x.exponent).toNat :=
      ⟨lt_trans bits (by decide), le_rfl⟩
    have short := (start.halve (-x.exponent).toNat).shorten
    dsimp only at short ⊢
    rw [ofParts?_eq_none short.places]
    exact iff_of_false (Nat.not_le.mpr short.mantissa) (not_le.mpr small)

end FiniteBinary

/-! The nearest double. -/

theorem natAbs_num_div {q : ℚ} (nonneg : 0 ≤ q) : (q.num.natAbs : ℚ) / q.den = q := by
  have num : ((q.num.natAbs : Int) : ℚ) = q.num := by
    rw [Int.natAbs_of_nonneg (Rat.num_nonneg.mpr nonneg)]
  rw [← Int.cast_natCast, num, Rat.num_div_den]

/-- The powers of two that a double of full precision can be. -/
theorem canonical_pow {k : Int} (least : -1022 ≤ k) (most : k ≤ 1023) :
    BinaryFormat.double.Canonical (2 ^ 52) (k - 52) := by
  refine ⟨by decide, ?_, ?_, .inl (by decide)⟩
  · change -1074 ≤ k - 52
    omega
  · change k - 52 ≤ 971
    omega

theorem pow_eq (k : Int) : ((2 ^ 52 : Nat) : ℚ) * 2 ^ (k - 52) = 2 ^ k := by
  rw [zpow_sub₀ (by norm_num)]
  norm_num
  field_simp

/-- Up to a number that a double can be the nearest double is no greater. -/
theorem exists_nearestDouble {q : ℚ} (nonneg : 0 ≤ q) {s : Nat} {e : Int}
    (holds : BinaryFormat.double.Canonical s e) (below : q ≤ s * 2 ^ e) :
    ∃ x : FiniteBinary .double, Binary.round .double false q.num.natAbs q.den = .finite x ∧
      nearestDouble q = x.size ∧ x.size ≤ s * 2 ^ e := by
  rw [← natAbs_num_div nonneg] at below
  obtain ⟨x, done, sign, size⟩ := Binary.exists_round_le holds q.den_pos below false
  have value : Binary.ofRat .double q = .finite x := by
    rw [Binary.ofRat, decide_eq_false (not_lt.mpr nonneg)]
    exact done
  refine ⟨x, done, ?_, size⟩
  rw [nearestDouble, value]
  dsimp only
  rw [x.toRat_eq, sign, if_neg Bool.false_ne_true]

theorem nearestDouble_le_pow {q : ℚ} (nonneg : 0 ≤ q) {k : Int} (least : -1022 ≤ k) (most : k ≤ 1023)
    (below : q ≤ 2 ^ k) : 0 ≤ nearestDouble q ∧ nearestDouble q ≤ 2 ^ k := by
  rw [← pow_eq] at *
  obtain ⟨x, _, value, size⟩ := exists_nearestDouble nonneg (canonical_pow least most) below
  rw [value]
  exact ⟨x.size_nonneg, size⟩

/-- From a power of two on the nearest double is no less. -/
theorem pow_le_nearestDouble {q : ℚ} {k m : Int} (least : -1022 ≤ k) (most : m ≤ 1023)
    (above : 2 ^ k ≤ q) (below : q ≤ 2 ^ m) : 2 ^ k ≤ nearestDouble q := by
  have nonneg : 0 ≤ q := le_trans (by positivity) above
  have order : k ≤ m := (zpow_le_zpow_iff_right₀ (by norm_num)).mp (above.trans below)
  rw [← pow_eq] at above below ⊢
  obtain ⟨x, done, value, _⟩ := exists_nearestDouble nonneg (canonical_pow (by omega) most) below
  rw [value]
  apply Binary.le_round (canonical_pow least (by omega)) q.den_pos _ done
  rw [natAbs_num_div nonneg]
  exact above

namespace Decimal

/-- The sum of whole and fractional part is brought back to the places of a decimal without getting much
greater. -/
theorem restored_le {whole fraction tens : ℚ} {k : Int} (bits : 0 ≤ k ∧ k ≤ 93)
    (unit : (2 : ℚ) ^ k ≤ tens ∧ tens ≤ 2 ^ (k + 1)) (front : 0 ≤ whole ∧ whole ≤ 2 ^ (93 : Int))
    (back : 0 ≤ fraction ∧ fraction ≤ 2) :
    let shifted := nearestDouble (nearestDouble (whole + fraction) * tens)
    0 ≤ nearestDouble (((shifted + 1 / 2).floor : ℚ) / tens) ∧
      nearestDouble (((shifted + 1 / 2).floor : ℚ) / tens) ≤ 2 ^ (95 : Int) := by
  intro shifted
  have positive : 0 < tens := lt_of_lt_of_le (by positivity) unit.1
  have power (m n : Int) : (2 : ℚ) ^ (m + n) = 2 ^ m * 2 ^ n := zpow_add₀ (by norm_num) m n
  have sum : 0 ≤ nearestDouble (whole + fraction) ∧
      nearestDouble (whole + fraction) ≤ 2 ^ (94 : Int) := by
    apply nearestDouble_le_pow (add_nonneg front.1 back.1) (by decide) (by decide)
    calc
      whole + fraction ≤ 2 ^ (93 : Int) + 2 := add_le_add front.2 back.2
      _ ≤ 2 ^ (94 : Int) := by norm_num
  have scaled : 0 ≤ shifted ∧ shifted ≤ 2 ^ (94 + (k + 1)) := by
    apply nearestDouble_le_pow (mul_nonneg sum.1 positive.le) (by omega) (by omega)
    rw [power]
    exact mul_le_mul sum.2 unit.2 positive.le (by positivity)
  -- the power of two is a whole number, so rounding to a whole number stays within it
  have floor : 0 ≤ (shifted + 1 / 2).floor ∧ (shifted + 1 / 2).floor ≤ 2 ^ (95 + k).toNat := by
    have exponent : ((95 + k).toNat : Int) = 94 + (k + 1) := by omega
    constructor
    · apply Rat.le_floor_iff.mpr
      have nonneg := scaled.1
      norm_num
      linarith
    · have reached := Rat.floor_le (shifted + 1 / 2)
      have below := scaled.2
      rw [← exponent, zpow_natCast] at below
      apply Int.lt_add_one_iff.mp
      have strict : ((shifted + 1 / 2).floor : ℚ) < ((2 ^ (95 + k).toNat + 1 : Int) : ℚ) := by
        push_cast
        linarith
      exact_mod_cast strict
  generalize (shifted + 1 / 2).floor = n at floor ⊢
  have nonneg : (0 : ℚ) ≤ n := by exact_mod_cast floor.1
  apply nearestDouble_le_pow (div_nonneg nonneg positive.le) (by decide) (by decide)
  rw [div_le_iff₀ positive]
  calc
    (n : ℚ) ≤ ((2 ^ (95 + k).toNat : Int) : ℚ) := by exact_mod_cast floor.2
    _ = 2 ^ (95 : Int) * 2 ^ k := by
      rw [← power]
      have exponent : ((95 + k).toNat : Int) = 95 + k := by omega
      push_cast
      rw [← zpow_natCast, exponent]
    _ ≤ 2 ^ (95 : Int) * tens := mul_le_mul_of_nonneg_left unit.1 (by positivity)

/-- The double of a decimal with places is far from `2^96`. -/
theorem nearestMagnitude_le (d : Decimal) (places : d.scale ≠ 0) :
    0 ≤ d.nearestMagnitude ∧ d.nearestMagnitude ≤ 2 ^ (95 : Int) := by
  have fits := d.mantissa_lt
  have ten : 10 ≤ Nat.pow 10 d.scale := Nat.le_self_pow places 10
  have large : Nat.pow 10 d.scale < 2 ^ 94 :=
    Nat.lt_of_le_of_lt (Nat.pow_le_pow_right (by decide) d.scale_le) (by decide)
  unfold nearestMagnitude
  dsimp only
  generalize Nat.pow 10 d.scale = unit at *
  -- the unit is between two powers of two, and so is its double
  obtain ⟨k, bits, low, high⟩ : ∃ k : Int, (0 ≤ k ∧ k ≤ 93) ∧ (2 : ℚ) ^ k ≤ unit ∧
      (unit : ℚ) ≤ 2 ^ (k + 1) := by
    have some : 0 < unit := by omega
    have bits : unit.log2 < 94 := (Nat.log2_lt some.ne').mpr large
    refine ⟨unit.log2, by omega, ?_, ?_⟩
    · exact_mod_cast pow_log2_le some
    · exact_mod_cast (lt_pow_log2 unit).le
  have least := pow_le_nearestDouble (by omega) (by omega) low high
  have most := (nearestDouble_le_pow (by positivity) (by omega) (by omega) high).2
  have whole : 0 ≤ nearestDouble (d.mantissa / unit : Nat) ∧
      nearestDouble (d.mantissa / unit : Nat) ≤ 2 ^ (93 : Int) := by
    apply nearestDouble_le_pow (by positivity) (by decide) (by decide)
    have quotient : d.mantissa / unit ≤ 2 ^ 93 := by
      unfold limit at fits
      apply Nat.div_le_of_le_mul
      omega
    exact_mod_cast quotient
  have part : 0 ≤ nearestDouble (d.mantissa % unit : Nat) ∧
      nearestDouble (d.mantissa % unit : Nat) ≤ 2 ^ (k + 1) := by
    apply nearestDouble_le_pow (by positivity) (by omega) (by omega)
    exact le_trans (by exact_mod_cast (Nat.mod_lt _ (by omega)).le) high
  have quotient : 0 ≤ nearestDouble (d.mantissa % unit : Nat) / nearestDouble (unit : Nat) ∧
      nearestDouble (d.mantissa % unit : Nat) / nearestDouble (unit : Nat) ≤ 2 := by
    have positive : 0 < nearestDouble (unit : Nat) := lt_of_lt_of_le (by positivity) least
    refine ⟨div_nonneg part.1 positive.le, ?_⟩
    rw [div_le_iff₀ positive]
    calc
      nearestDouble (d.mantissa % unit : Nat) ≤ 2 ^ (k + 1) := part.2
      _ = 2 * 2 ^ k := by rw [zpow_add_one₀ (by norm_num), mul_comm]
      _ ≤ 2 * nearestDouble (unit : Nat) := mul_le_mul_of_nonneg_left least (by norm_num)
  have fraction := nearestDouble_le_pow (k := 1) quotient.1 (by decide) (by decide)
    (by simpa using quotient.2)
  split
  · exact ⟨whole.1, whole.2.trans (by norm_num)⟩
  · exact restored_le bits ⟨least, most⟩ whole (by simpa using fraction)

/-- The decimal is a whole number, without places, right below `2^96`. -/
def NearLimit (d : Decimal) : Prop := d.scale = 0 ∧ 2 ^ 96 - 2 ^ 42 ≤ d.mantissa

/-- In the last binade below `2^96` doubles are `2^43` apart. -/
theorem nearestDouble_whole {m : Nat} (low : 2 ^ 95 ≤ m) (high : m < 2 ^ 96) :
    nearestDouble (m : ℚ) = roundHalfEven m (2 ^ 43) * 2 ^ (43 : Int) := by
  have positive : 0 < m := lt_of_lt_of_le (by decide) low
  have below : (m : ℚ) ≤ (2 ^ 52 : Nat) * 2 ^ ((96 : Int) - 52) := by
    rw [pow_eq]
    exact_mod_cast high.le
  obtain ⟨x, done, value, _⟩ :=
    exists_nearestDouble (by positivity) (canonical_pow (by decide) (by decide)) below
  have exponent : Binary.exponentOf .double m 1 = 43 := by
    have log : Int.log 2 ((m : ℚ) / (1 : Nat)) = 95 := by
      rw [Nat.cast_one, div_one]
      exact log_eq_of_between (by exact_mod_cast low) (by exact_mod_cast high)
    rw [Binary.exponentOf, log2Quotient_eq_log positive one_pos, log]
    rfl
  have significand : Binary.significandOf .double m 1 = roundHalfEven m (2 ^ 43) := by
    rw [Binary.significandOf, exponent]
    change roundHalfEven (m * 1) (1 * 2 ^ 43) = _
    rw [Nat.mul_one, Nat.one_mul]
  rw [Rat.num_natCast, Rat.den_natCast, Int.natAbs_natCast] at done
  rw [value, (Binary.size_of_round positive one_pos done).2, significand, exponent]

/-- The double of a decimal that is not right below `2^96` is below it, too. -/
theorem exists_toBinary {d : Decimal} (far : ¬d.NearLimit) :
    ∃ x : FiniteBinary .double, d.toBinary = .finite x ∧ x.size < 2 ^ 96 := by
  -- the greatest double below the limit
  have last : BinaryFormat.double.Canonical (2 ^ 53 - 1) 43 := by decide
  have enough : ∀ {q : ℚ}, 0 ≤ q ∧ q ≤ (2 ^ 53 - 1 : Nat) * 2 ^ (43 : Int) → ∀ negative,
      ∃ x : FiniteBinary .double, Binary.round .double negative q.num.natAbs q.den = .finite x ∧
        x.size < 2 ^ 96 := by
    intro q within negative
    have below := within.2
    rw [← natAbs_num_div within.1] at below
    obtain ⟨x, done, _, size⟩ := Binary.exists_round_le last q.den_pos below negative
    exact ⟨x, done, lt_of_le_of_lt size (by norm_num)⟩
  apply enough
  by_cases places : d.scale = 0
  · rw [if_pos places]
    have small : d.mantissa < 2 ^ 96 - 2 ^ 42 := Nat.lt_of_not_le fun reached => far ⟨places, reached⟩
    rcases Nat.lt_or_ge d.mantissa (2 ^ 95) with less | more
    · obtain ⟨nonneg, below⟩ := nearestDouble_le_pow (q := (d.mantissa : Nat)) (k := 95) (by positivity)
        (by decide) (by decide) (by exact_mod_cast less.le)
      exact ⟨nonneg, below.trans (by norm_num)⟩
    · have significand : roundHalfEven d.mantissa (2 ^ 43) ≤ 2 ^ 53 - 1 := by
        unfold roundHalfEven
        dsimp only
        split <;> omega
      rw [nearestDouble_whole more (lt_of_lt_of_le small (by decide))]
      refine ⟨by positivity, ?_⟩
      exact mul_le_mul_of_nonneg_right (by exact_mod_cast significand) (by positivity)
  · rw [if_neg places]
    obtain ⟨nonneg, below⟩ := d.nearestMagnitude_le places
    exact ⟨nonneg, below.trans (by norm_num)⟩

/-- The double of a decimal that is right below `2^96` is `2^96`. -/
theorem exists_toBinary_of_nearLimit {d : Decimal} (near : d.NearLimit) :
    ∃ x : FiniteBinary .double, d.toBinary = .finite x ∧ x.negative = d.negative ∧ x.size = 2 ^ 96 := by
  obtain ⟨places, reached⟩ := near
  have fits : d.mantissa < 2 ^ 96 := d.mantissa_lt
  have nonzero : (d.mantissa == 0) = false := beq_false_of_ne (by omega)
  have value : nearestDouble (d.mantissa : ℚ) = 2 ^ 96 := by
    have significand : roundHalfEven d.mantissa (2 ^ 43) = 2 ^ 53 := by
      unfold roundHalfEven
      dsimp only
      split <;> omega
    rw [nearestDouble_whole (by omega) fits, significand]
    norm_num
  have limit : BinaryFormat.double.Canonical (2 ^ 52) 44 := by decide
  have exact : ((2 ^ 52 : Nat) : ℚ) * 2 ^ (44 : Int) = (2 ^ 96 : ℚ) := by norm_num
  unfold toBinary
  dsimp only
  rw [if_pos places, value, nonzero, Bool.and_false, Bool.not_false, Bool.and_true]
  have same : ((2 ^ 96 : ℚ).num.natAbs : ℚ) / (2 ^ 96 : ℚ).den = (2 ^ 52 : Nat) * 2 ^ (44 : Int) := by
    rw [natAbs_num_div (by positivity), exact]
  have positive := (2 ^ 96 : ℚ).den_pos
  obtain ⟨x, done, sign, most⟩ := Binary.exists_round_le limit positive same.le d.negative
  have least := Binary.le_round limit positive same.ge done
  rw [exact] at most least
  exact ⟨x, done, sign, le_antisymm most least⟩

end Decimal

/-! Integers of 64 bits. -/

theorem Decimal.exists_ofInt? {i : Int} (fits : i.natAbs ≤ 2 ^ 64) :
    ∃ d, Decimal.ofInt? i = some d ∧ d.toRat = i := by
  have short : i.natAbs < limit ∧ 0 ≤ maxScale := ⟨lt_of_le_of_lt fits (by decide), Nat.zero_le _⟩
  refine ⟨_, dif_pos short, ?_⟩
  have value : (if decide (i < 0) = true then -(i.natAbs : Int) else i.natAbs) = i := by
    simp only [decide_eq_true_eq]
    split <;> omega
  rw [toRat, signed]
  dsimp only
  rw [value]
  simp

theorem Binary.exists_ofInt {i : Int} (fits : i.natAbs ≤ 2 ^ 64) :
    ∃ x : FiniteBinary .double, Binary.ofInt .double i = .finite x ∧ x.size < 2 ^ 96 := by
  have below : (i.natAbs : ℚ) / (1 : Nat) ≤ (2 ^ 52 : Nat) * 2 ^ ((64 : Int) - 52) := by
    rw [Nat.cast_one, div_one, pow_eq]
    exact_mod_cast fits
  obtain ⟨x, done, _, size⟩ := Binary.exists_round_le (canonical_pow (k := 64) (by decide) (by decide))
    one_pos below (decide (i < 0))
  refine ⟨x, done, lt_of_le_of_lt size ?_⟩
  rw [pow_eq]
  norm_num

end EntitySchema.Number
