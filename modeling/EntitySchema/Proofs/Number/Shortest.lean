import EntitySchema.Number.Shortest
import EntitySchema.Proofs.Number.Conversion

/-!
The digits that are written for a number tell it from all others. Every real in the interval of a number
is rounded to it, the grids that are tried become fine enough for one of them to meet the interval, and
so of all doubles the one that is written is nearest to the value of its digits.
-/

namespace EntitySchema.Number

namespace Shortest

variable {f : BinaryFormat} {x : FiniteBinary f} {q : ℚ}

/-- A quarter of the last place of a number. -/
def quarter (x : FiniteBinary f) : ℚ := 2 ^ (x.exponent - 2)

/-- The interval of a number includes `q`. -/
structure Includes (x : FiniteBinary f) (q : ℚ) : Prop where
  low : (interval x).low * quarter x ≤ q
  high : q ≤ (interval x).high * quarter x
  inner : (interval x).closed = false →
    (interval x).low * quarter x ≠ q ∧ q ≠ (interval x).high * quarter x

/-- The places are finer right below the number. -/
def FinerBelow (x : FiniteBinary f) : Prop :=
  2 * x.significand = Nat.pow 2 f.precision ∧ x.exponent ≠ f.minExponent

theorem four_quarters (x : FiniteBinary f) : 4 * quarter x = 2 ^ x.exponent := by
  rw [quarter, zpow_sub₀ (by norm_num)]
  norm_num
  ring

theorem quarter_pos (x : FiniteBinary f) : 0 < quarter x := by
  unfold quarter
  positivity

/-- The interval reaches at most half a place below the number. -/
theorem half_below (x : FiniteBinary f) :
    (2 * x.significand - 1) * 2 ^ x.exponent ≤ 2 * ((interval x).low * quarter x) := by
  have least : 4 * x.significand ≤ (interval x).low + 2 := by
    unfold interval
    dsimp only
    split <;> omega
  have bound : (4 * (x.significand : ℚ)) * quarter x ≤ ((interval x).low + 2) * quarter x :=
    mul_le_mul_of_nonneg_right (by exact_mod_cast least) (quarter_pos x).le
  rw [← four_quarters]
  linarith

/-- The interval reaches half a place above the number. -/
theorem half_above (x : FiniteBinary f) :
    2 * ((interval x).high * quarter x) = (2 * x.significand + 1) * 2 ^ x.exponent := by
  rw [← four_quarters]
  unfold interval
  push_cast
  ring

/-- Where the places get finer the interval reaches a quarter below the number. -/
theorem quarter_below (finer : FinerBelow x) (some : 0 < x.significand) :
    (interval x).low * quarter x = (x.significand - 1 / 4) * 2 ^ x.exponent := by
  have low : (interval x).low = 4 * x.significand - 1 := if_pos finer
  have cast : ((4 * x.significand - 1 : Nat) : ℚ) = 4 * x.significand - 1 := by
    push_cast [Nat.cast_sub (show 1 ≤ 4 * x.significand by omega)]
    ring
  rw [low, cast, ← four_quarters]
  ring

theorem Includes.positive (some : 0 < x.significand) (includes : Includes x q) : 0 < q := by
  have below := half_below x
  have low := includes.low
  have one : (1 : ℚ) ≤ x.significand := by exact_mod_cast some
  have power : (0 : ℚ) < 2 ^ x.exponent := by positivity
  nlinarith

section

variable (some : 0 < x.significand) {num den : Nat} (nonzero : 0 < den)
  (includes : Includes x ((num : ℚ) / den))

include some nonzero includes

theorem Includes.dividend : 0 < num := by
  have divisor : (0 : ℚ) < den := by exact_mod_cast nonzero
  exact_mod_cast (div_pos_iff_of_pos_right divisor).mp (includes.positive some)

/-- At the number's own exponent the quotient is rounded to the number's significand. -/
theorem Includes.round_place (place : Binary.exponentOf f num den = x.exponent) :
    Binary.round f x.negative num den = .finite x := by
  have significand : Binary.significandOf f num den = x.significand := by
    have below := half_below x
    have above := half_above x
    apply Binary.significandOf_eq nonzero
    · rw [place]
      linarith [includes.low]
    · rw [place]
      linarith [includes.high]
    · intro odd
      have closed : (interval x).closed = false := by simp [interval, odd]
      obtain ⟨low, high⟩ := includes.inner closed
      rw [place]
      constructor
      · intro same
        linarith [lt_of_le_of_ne includes.low low]
      · intro same
        linarith [lt_of_le_of_ne includes.high high]
  rw [Binary.round_of_positive (includes.dividend some nonzero), significand, place,
    Binary.assemble_canonical x.canonical]

/-- Right below a power of two the quotient is rounded to a significand that is one bit too long. -/
theorem Includes.round_finer (finer : FinerBelow x)
    (below : (num : ℚ) / den < x.significand * 2 ^ x.exponent) :
    Binary.round f x.negative num den = .finite x := by
  obtain ⟨full, least⟩ := finer
  have positive := includes.dividend some nonzero
  have low := includes.low
  rw [quarter_below ⟨full, least⟩ some] at low
  have lowest := x.canonical.2.1
  have one : (1 : ℚ) ≤ x.significand := by exact_mod_cast some
  have power : (0 : ℚ) < 2 ^ x.exponent := by positivity
  have top (k : Int) : (2 : ℚ) ^ (x.exponent + f.precision + k) =
      2 * x.significand * 2 ^ x.exponent * 2 ^ k := by
    have bits : (2 : ℚ) ^ f.precision = 2 * x.significand := by exact_mod_cast full.symm
    rw [zpow_add₀ (by norm_num), zpow_add₀ (by norm_num), zpow_natCast, bits]
    ring
  have place : Binary.exponentOf f num den = x.exponent - 1 := by
    apply Binary.exponentOf_eq positive nonzero (by omega)
    · right
      have last := top (-2)
      rw [show x.exponent - 1 + f.precision - 1 = x.exponent + f.precision + -2 by omega, last]
      norm_num
      nlinarith
    · have last := top (-1)
      rw [show x.exponent - 1 + f.precision = x.exponent + f.precision + -1 by omega, last]
      norm_num
      linarith
  have significand : Binary.significandOf f num den = 2 * x.significand := by
    apply Binary.significandOf_eq nonzero
    · rw [place, zpow_sub_one₀ (by norm_num)]
      push_cast
      linarith
    · rw [place, zpow_sub_one₀ (by norm_num)]
      push_cast
      linarith
    · omega
  have longer : ¬f.Canonical (2 * x.significand) (x.exponent - 1) :=
    fun holds => absurd holds.1 (full ▸ lt_irrefl _)
  have half : 2 * x.significand / 2 = x.significand ∧ x.exponent - 1 + 1 = x.exponent := by omega
  have next : f.Canonical (2 * x.significand / 2) (x.exponent - 1 + 1) := by
    rw [half.1, half.2]
    exact x.canonical
  rw [Binary.round_of_positive positive, significand, place, Binary.assemble, dif_neg longer,
    dif_pos next, Binary.finite.injEq]
  exact (FiniteBinary.mk.injEq ..).mpr ⟨rfl, half.1, half.2⟩

/-- Whatever the interval of a number includes is rounded to the number. -/
theorem Includes.round : Binary.round f x.negative num den = .finite x := by
  obtain ⟨bound, least, _, full⟩ := x.canonical
  by_cases below : FinerBelow x ∧ (num : ℚ) / den < x.significand * 2 ^ x.exponent
  · exact includes.round_finer some nonzero below.1 below.2
  · apply includes.round_place some nonzero
    have positive := includes.dividend some nonzero
    have bits : (x.significand : ℚ) + 1 ≤ 2 ^ f.precision := by exact_mod_cast bound
    have power : (0 : ℚ) < 2 ^ x.exponent := by positivity
    apply Binary.exponentOf_eq positive nonzero least
    · rcases full with full | lowest
      · by_cases lowest : x.exponent = f.minExponent
        · exact .inl lowest
        right
        rw [add_sub_assoc, zpow_add₀ (by norm_num), zpow_sub_one₀ (by norm_num), zpow_natCast]
        rcases Nat.eq_or_lt_of_le full with exact | more
        · have reached := not_lt.mp fun less => below ⟨⟨exact.symm, lowest⟩, less⟩
          have bits : (2 : ℚ) ^ f.precision = 2 * x.significand := by exact_mod_cast exact
          rw [bits]
          linarith
        · have bits : (2 : ℚ) ^ f.precision + 1 ≤ 2 * x.significand := by exact_mod_cast more
          have low := includes.low
          have least := half_below x
          nlinarith
      · exact .inl lowest
    · rw [zpow_add₀ (by norm_num), zpow_natCast]
      have high := includes.high
      have above := half_above x
      nlinarith

end

/-! What is found on a grid. -/

/-- Quarters of a place and multiples of a power of ten in one unit. -/
theorem exists_common (x : FiniteBinary f) (k : Int) : ∃ common : ℚ, 0 < common ∧
    (∀ i : Nat, ((i * (unit x k).1 : Nat) : ℚ) = i * quarter x * common) ∧
      ∀ c : Nat, ((c * (unit x k).2 : Nat) : ℚ) = c * 10 ^ k * common := by
  have two := pow_toNat_div 2 (x.exponent - 2)
  have ten := pow_toNat_div 10 k
  rw [div_eq_iff (by positivity)] at two ten
  refine ⟨2 ^ (-(x.exponent - 2)).toNat * 10 ^ (-k).toNat, by positivity, fun i => ?_, fun c => ?_⟩
  · simp only [unit, quarter, Nat.pow_eq]
    push_cast
    rw [two]
    ring
  · simp only [unit, Nat.pow_eq]
    push_cast
    rw [ten]
    ring

/-- A multiple of a power of ten is in the interval, as the search for it computes it. -/
def inside (x : FiniteBinary f) (k : Int) (c : Nat) : Bool :=
  let i := interval x
  let (num, den) := unit x k
  if i.closed then i.low * num ≤ c * den && c * den ≤ i.high * num
  else i.low * num < c * den && c * den < i.high * num

theorem inside_iff (x : FiniteBinary f) (k : Int) (c : Nat) :
    inside x k c = true ↔ Includes x (c * 10 ^ k) := by
  obtain ⟨common, positive, quarters, tens⟩ := exists_common x k
  have low : (interval x).low * (unit x k).1 ≤ c * (unit x k).2 ↔
      (interval x).low * quarter x ≤ c * 10 ^ k := by
    rw [← Nat.cast_le (α := ℚ), quarters, tens, mul_le_mul_iff_left₀ positive]
  have high : c * (unit x k).2 ≤ (interval x).high * (unit x k).1 ↔
      (c : ℚ) * 10 ^ k ≤ (interval x).high * quarter x := by
    rw [← Nat.cast_le (α := ℚ), quarters, tens, mul_le_mul_iff_left₀ positive]
  have lower : (interval x).low * (unit x k).1 = c * (unit x k).2 ↔
      (interval x).low * quarter x = c * 10 ^ k := by
    rw [← Nat.cast_inj (R := ℚ), quarters, tens, mul_left_inj' positive.ne']
  have higher : c * (unit x k).2 = (interval x).high * (unit x k).1 ↔
      (c : ℚ) * 10 ^ k = (interval x).high * quarter x := by
    rw [← Nat.cast_inj (R := ℚ), quarters, tens, mul_left_inj' positive.ne']
  unfold inside
  dsimp only
  split
  · next closed =>
    rw [Bool.and_eq_true, decide_eq_true_eq, decide_eq_true_eq, low, high]
    exact ⟨fun ⟨l, h⟩ => ⟨l, h, fun opened => by rw [closed] at opened; cases opened⟩,
      fun includes => ⟨includes.low, includes.high⟩⟩
  · next opened =>
    rw [Bool.and_eq_true, decide_eq_true_eq, decide_eq_true_eq, Nat.lt_iff_le_and_ne,
      Nat.lt_iff_le_and_ne, low, high, Ne, Ne, lower, higher]
    exact ⟨fun ⟨l, h⟩ => ⟨l.1, h.1, fun _ => ⟨l.2, h.2⟩⟩,
      fun includes => ⟨⟨includes.low, (includes.inner (by simpa using opened)).1⟩,
        includes.high, (includes.inner (by simpa using opened)).2⟩⟩

theorem inside_of_onGrid? {tie : Tie} {k : Int} {c : Nat} (found : onGrid? tie x k = some c) :
    inside x k c = true := by
  unfold onGrid? at found
  dsimp only at found
  split at found
  · cases found
  · next lower _ =>
    cases found
    exact lower
  · next _ upper =>
    cases found
    exact upper
  · next lower upper =>
    -- either of the two is taken
    split at found
    · cases found
      exact lower
    · split at found
      · cases found
        exact upper
      · cases tie with
        | up =>
          cases found
          exact upper
        | even =>
          rw [Option.some.injEq] at found
          rw [← found]
          split
          · exact lower
          · exact upper

/-- On a grid that is no wider than a quarter of a place, the multiple right below the number is in its
interval. -/
theorem inside_below (some : 0 < x.significand) {k : Int} (fine : 10 ^ k ≤ quarter x) :
    inside x k ((interval x).centre * (unit x k).1 / (unit x k).2) = true := by
  obtain ⟨common, positive, quarters, tens⟩ := exists_common x k
  have place := quarter_pos x
  have divisor : 0 < (unit x k).2 := Nat.mul_pos (Nat.pow_pos (by decide)) (Nat.pow_pos (by decide))
  have under := Nat.div_mul_le_self ((interval x).centre * (unit x k).1) (unit x k).2
  have beyond := Nat.lt_div_mul_add (a := (interval x).centre * (unit x k).1) divisor
  generalize (interval x).centre * (unit x k).1 / (unit x k).2 = c at *
  rw [← Nat.succ_mul] at beyond
  have reached : (c : ℚ) * 10 ^ k ≤ (interval x).centre * quarter x := by
    rw [← mul_le_mul_iff_left₀ positive, ← tens, ← quarters]
    exact_mod_cast under
  have passed : (interval x).centre * quarter x < ((c + 1 : Nat) : ℚ) * 10 ^ k := by
    rw [← mul_lt_mul_iff_left₀ positive, ← tens, ← quarters]
    exact_mod_cast beyond
  have least : ((interval x).low + 1) * quarter x ≤ (interval x).centre * quarter x := by
    have order : (interval x).low + 1 ≤ (interval x).centre := by
      unfold interval
      dsimp only
      split <;> omega
    exact mul_le_mul_of_nonneg_right (by exact_mod_cast order) place.le
  have most : (interval x).high * quarter x = (interval x).centre * quarter x + 2 * quarter x := by
    unfold interval
    push_cast
    ring
  push_cast at passed
  have low : (interval x).low * quarter x < c * 10 ^ k := by linarith
  have high : c * 10 ^ k < (interval x).high * quarter x := by linarith
  exact (inside_iff x k c).mpr ⟨low.le, high.le, fun _ => ⟨low.ne, high.ne⟩⟩

theorem exists_onGrid? (tie : Tie) (some : 0 < x.significand) {k : Int} (fine : 10 ^ k ≤ quarter x) :
    ∃ c, onGrid? tie x k = .some c := by
  have lower := inside_below some fine
  unfold onGrid?
  dsimp only
  split
  · next not _ => exact absurd lower (ne_true_of_eq_false not)
  · exact ⟨_, rfl⟩
  · exact ⟨_, rfl⟩
  · split
    · exact ⟨_, rfl⟩
    · split
      · exact ⟨_, rfl⟩
      · cases tie <;> exact ⟨_, rfl⟩

/-- A power of ten is below a power of two if it is by the bounds `2^(33/10) ≤ 10 ≤ 2^(10/3)`. -/
theorem ten_pow_le {k m : Int} (up : 0 ≤ k → 10 * k ≤ 3 * m) (down : k ≤ 0 → 33 * k ≤ 10 * m) :
    (10 : ℚ) ^ k ≤ 2 ^ m := by
  have power (base : ℚ) (e : Int) (n : Nat) : (base ^ e) ^ n = base ^ (n * e) := by
    rw [← zpow_natCast, ← zpow_mul, mul_comm]
  rcases Int.le_total 0 k with above | below
  · apply (pow_le_pow_iff_left₀ (by positivity) (by positivity) (by decide : 3 ≠ 0)).mp
    calc
      ((10 : ℚ) ^ k) ^ 3 = (10 ^ 3) ^ k := by rw [power, zpow_mul]; rfl
      _ ≤ (2 ^ 10) ^ k := zpow_le_zpow_left₀ above (by norm_num) (by norm_num)
      _ = 2 ^ (10 * k) := by rw [zpow_mul]; rfl
      _ ≤ 2 ^ (3 * m) := zpow_le_zpow_right₀ (by norm_num) (up above)
      _ = (2 ^ m) ^ 3 := by rw [power]; rfl
  · apply (pow_le_pow_iff_left₀ (by positivity) (by positivity) (by decide : 10 ≠ 0)).mp
    calc
      ((10 : ℚ) ^ k) ^ 10 = (10 ^ 10) ^ k := by rw [power, zpow_mul]; rfl
      _ = ((10 ^ 10)⁻¹) ^ (-k) := by rw [inv_zpow', neg_neg]
      _ ≤ ((2 ^ 33)⁻¹) ^ (-k) := zpow_le_zpow_left₀ (by omega) (by positivity) (by norm_num)
      _ = (2 ^ 33) ^ k := by rw [inv_zpow', neg_neg]
      _ = 2 ^ (33 * k) := by rw [zpow_mul]; rfl
      _ ≤ 2 ^ (10 * m) := zpow_le_zpow_right₀ (by norm_num) (down below)
      _ = (2 ^ m) ^ 10 := by rw [power]; rfl

/-- The last grid that is tried is no wider than a quarter of a place. -/
theorem last_grid (x : FiniteBinary .double) (some : 0 < x.significand) :
    (10 : ℚ) ^ (exponentAbove x - 23) ≤ quarter x := by
  obtain ⟨bound, least, most, _⟩ := x.canonical
  have bits : x.significand.log2 < 53 := (Nat.log2_lt some.ne').mpr bound
  simp only [BinaryFormat.double] at least most
  unfold exponentAbove
  exact ten_pow_le (by omega) (by omega)

/-- The shortest decimal is found, and the interval of the number includes it. -/
theorem includes_decimal (tie : Tie) (x : FiniteBinary .double) (some : 0 < x.significand) :
    Includes x ((decimal tie x).digits * 10 ^ (decimal tie x).exponent) := by
  unfold decimal
  dsimp only
  generalize result : List.findSome? _ (List.range 24) = found
  cases found with
  | none =>
    obtain ⟨c, last⟩ := exists_onGrid? tie some (last_grid x some)
    rw [List.findSome?_eq_none_iff] at result
    have missing := result 23 (by decide)
    rw [Option.map_eq_none_iff] at missing
    exact absurd (missing.symm.trans last) (by simp)
  | some d =>
    obtain ⟨i, _, hit⟩ := List.exists_of_findSome?_eq_some result
    obtain ⟨c, grid, rfl⟩ := Option.map_eq_some_iff.mp hit
    exact (inside_iff ..).mp (inside_of_onGrid? grid)

/-- The exact value of the digits that are written for a number. -/
def written (tie : Tie) (x : FiniteBinary f) : ℚ :=
  let size : ℚ := if x.isZero then 0 else (decimal tie x).digits * 10 ^ (decimal tie x).exponent
  if x.negative then -size else size

theorem ofRat_written (tie : Tie) {x : FiniteBinary .double} (nonzero : x.isZero = false) :
    Binary.ofRat .double (written tie x) = .finite x := by
  have some : 0 < x.significand := Nat.pos_of_ne_zero (by simpa [FiniteBinary.isZero] using nonzero)
  have includes := includes_decimal tie x some
  have positive := includes.positive some
  unfold written
  rw [nonzero, if_neg Bool.false_ne_true]
  dsimp only
  generalize ((decimal tie x).digits : ℚ) * 10 ^ (decimal tie x).exponent = q at *
  rw [← natAbs_num_div positive.le] at includes
  have rounded := includes.round some q.den_pos
  rw [Binary.ofRat]
  cases sign : x.negative with
  | false =>
    rw [sign] at rounded
    rw [if_neg Bool.false_ne_true, decide_eq_false (not_lt.mpr positive.le), rounded]
  | true =>
    rw [sign] at rounded
    rw [if_pos rfl, decide_eq_true (neg_neg_iff_pos.mpr positive), Rat.neg_num, Int.natAbs_neg,
      Rat.neg_den, rounded]

/-- Of all doubles the number is nearest to the value of its digits. -/
theorem same_written (tie : Tie) (x : FiniteBinary .double) :
    (Binary.ofRat .double (written tie x)).same (.finite x) = true := by
  have equal {y : FiniteBinary .double} (value : y.toRat = x.toRat) :
      (Binary.finite y).same (.finite x) = true := by
    rw [Binary.same, Binary.compare?, FiniteBinary.compare_eq, value, Std.ReflOrd.compare_self]
    rfl
  cases zero : x.isZero with
  | false =>
    rw [ofRat_written tie zero]
    exact equal rfl
  | true =>
    have none : x.significand = 0 := by simpa [FiniteBinary.isZero] using zero
    have digits : written tie x = 0 := by
      rw [written, zero, if_pos rfl]
      simp
    rw [digits]
    refine equal (y := ⟨false, 0, -1074, by decide⟩) ?_
    simp [FiniteBinary.toRat_eq, FiniteBinary.size, none]

end Shortest

end EntitySchema.Number
