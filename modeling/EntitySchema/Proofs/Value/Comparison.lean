import EntitySchema.Proofs.Calendar.Order
import EntitySchema.Proofs.Number.Whole
import EntitySchema.Proofs.Value.Order

/-!
Whether comparison is an order. Values in the other order compare the other way round, and numbers that
are not NaN are all comparable and equal to themselves. One number being at most another is transitive
but for one gap: decimals right below `2^96` are not told apart from the float `2^96`, but they are told
apart from each other.
-/

namespace EntitySchema

open Number Calendar

namespace Calendar

theorem Date.compare_swap (a b : Date) : b.compare a = (a.compare b).swap := by
  simp only [Date.compare, Ordering.swap_then, ← Std.OrientedOrd.eq_swap]

theorem Clock.compare_swap (a b : Clock) : b.compare a = (a.compare b).swap := by
  simp only [Clock.compare, Ordering.swap_then, ← Std.OrientedOrd.eq_swap]

theorem Timestamp.compare_swap (a b : Timestamp) : b.compare a = (a.compare b).swap := by
  rw [Timestamp.compare, Date.compare_swap, Clock.compare_swap, ← Ordering.swap_then]
  rfl

end Calendar

namespace Number

theorem Decimal.compare_swap (a b : Decimal) : b.compare a = (a.compare b).swap := by
  rw [compare, Std.OrientedOrd.eq_swap]
  rfl

theorem FiniteBinary.compare_swap {f : BinaryFormat} (x y : FiniteBinary f) :
    y.compare x = (x.compare y).swap := by
  rw [compare_eq, compare_eq, Std.OrientedOrd.eq_swap]

theorem Binary.compare?_swap {f : BinaryFormat} (x y : Binary f) :
    y.compare? x = (x.compare? y).map Ordering.swap := by
  cases x with
  | nan => cases y <;> rfl
  | infinite a =>
    cases y with
    | infinite b => cases a <;> cases b <;> rfl
    | nan => rfl
    | finite y => cases a <;> rfl
  | finite x =>
    cases y with
    | finite y => exact congrArg some (x.compare_swap y)
    | nan => rfl
    | infinite b => cases b <;> rfl

/-- Right below `2^96` there is no decimal with places. -/
theorem Decimal.nearLimit_iff (d : Decimal) : d.NearLimit ↔ 2 ^ 96 - 2 ^ 42 ≤ |d.toRat| := by
  have fits := d.cast_mantissa_lt
  rw [abs_toRat]
  by_cases whole : d.scale = 0
  · have cast : (2 ^ 96 - 2 ^ 42 : ℚ) = (2 ^ 96 - 2 ^ 42 : Nat) := by norm_num
    rw [NearLimit, whole, cast]
    simp only [Nat.pow_eq, pow_zero, Nat.cast_one, div_one, Nat.cast_le, true_and]
  · refine iff_of_false (fun near => whole near.1) ?_
    have ten : (10 : ℚ) ≤ (Nat.pow 10 d.scale : Nat) := by exact_mod_cast Nat.le_self_pow whole 10
    rw [not_le]
    calc
      (d.mantissa : ℚ) / (Nat.pow 10 d.scale : Nat) ≤ d.mantissa / 10 :=
        div_le_div_of_nonneg_left (by positivity) (by norm_num) ten
      _ < 2 ^ 96 / 10 := by gcongr
      _ < 2 ^ 96 - 2 ^ 42 := by norm_num

theorem Decimal.negative_iff {d : Decimal} (nonzero : d.toRat ≠ 0) :
    d.negative = true ↔ d.toRat < 0 := by
  have size : (0 : ℚ) ≤ d.mantissa / (Nat.pow 10 d.scale : Nat) := by positivity
  have value := d.toRat_eq
  cases sign : d.negative with
  | false =>
    rw [value, sign, if_neg Bool.false_ne_true]
    exact iff_of_false nofun (not_lt.mpr size)
  | true =>
    rw [sign, if_pos rfl] at value
    refine iff_of_true rfl (lt_of_le_of_ne ?_ nonzero)
    rw [value]
    exact neg_nonpos.mpr size

end Number

namespace Amount

/-- The first amount is `2^96` in size, and the second is right below on the same side. -/
def Close (a b : Amount) : Prop :=
  (a = of (2 ^ 96) ∧ of (2 ^ 96 - 2 ^ 42) ≤ b ∧ b < of (2 ^ 96)) ∨
    (a = of (-2 ^ 96) ∧ of (-2 ^ 96) < b ∧ b ≤ of (-(2 ^ 96 - 2 ^ 42)))

/-- The first amount is no greater, or the two are not told apart. -/
def AtMost (a b : Amount) : Prop := a ≤ b ∨ a.Close b ∨ b.Close a

theorem exists_of {a : Amount} {p q : ℚ} (low : of p ≤ a) (high : a ≤ of q) : ∃ r, a = of r := by
  obtain ⟨b, rfl⟩ := WithBot.ne_bot_iff_exists.mp ((bot_lt_of p).trans_le low).ne'
  obtain ⟨r, rfl⟩ := WithTop.ne_top_iff_exists.mp
    (WithTop.lt_top_iff_ne_top.mp (WithBot.coe_lt_coe.mp (high.trans_lt (of_lt_top q))))
  exact ⟨r, rfl⟩

/-- The one is `2^96` in size, and the other right below with the same sign. -/
theorem close_of {p q : ℚ} : (of p).Close (of q) ↔
    |q| < 2 ^ 96 ∧ 2 ^ 96 - 2 ^ 42 ≤ |q| ∧ p = if q < 0 then -2 ^ 96 else 2 ^ 96 := by
  have same (r : ℚ) : of p = of r ↔ p = r := strictMono_of.injective.eq_iff
  simp only [Close, same, of_le, of_lt]
  by_cases side : q < 0
  · rw [abs_of_neg side, if_pos side]
    grind
  · rw [abs_of_nonneg (not_lt.mp side), if_neg side]
    grind

/-- Amounts go through a third one, unless that is `2^96` and both are right below it. -/
theorem atMost_iff_of_between {a b c : Amount} (first : a.AtMost b) (second : b.AtMost c) :
    a.AtMost c ↔ ¬(b.Close a ∧ b.Close c ∧ c < a) := by
  have right : of (2 ^ 96 - 2 ^ 42) < of (2 ^ 96) := by
    rw [of_lt]
    norm_num
  have middle : of (-(2 ^ 96 - 2 ^ 42)) < of (2 ^ 96 - 2 ^ 42) := by
    rw [of_lt]
    norm_num
  have left : of (-2 ^ 96) < of (-(2 ^ 96 - 2 ^ 42)) := by
    rw [of_lt]
    norm_num
  -- only the order of the four marks matters
  unfold AtMost Close at *
  generalize of (2 ^ 96 - 2 ^ 42) = inner at *
  generalize of (2 ^ 96) = outer at *
  generalize of (-(2 ^ 96 - 2 ^ 42)) = innerLow at *
  generalize of (-2 ^ 96) = outerLow at *
  grind

end Amount

namespace Value

theorem compareNumbers_swap (v w : Value) :
    w.compareNumbers v = (v.compareNumbers w).map Ordering.swap := by
  have doubles : (do (← w.binary?).compare? (← v.binary?)) =
      (do (← v.binary?).compare? (← w.binary?) : Option Ordering).map Ordering.swap := by
    cases v.binary? with
    | none => cases w.binary? <;> rfl
    | some x =>
      cases w.binary? with
      | none => rfl
      | some y => exact x.compare?_swap y
  unfold compareNumbers
  cases v.decimal? with
  | none => cases w.decimal? <;> exact doubles
  | some d =>
    cases w.decimal? with
    | none => exact doubles
    | some e => exact congrArg some (d.compare_swap e)

/-- Values in the other order compare the other way round. -/
theorem compare?_swap (v w : Value) : w.compare? v = (v.compare? w).map Ordering.swap := by
  have numbers := compareNumbers_swap v w
  cases v with
  | text a =>
    cases w with
    | text b => exact congrArg some Std.OrientedOrd.eq_swap
    | _ => rfl
  | bool a =>
    cases w with
    | bool b => exact congrArg some Std.OrientedOrd.eq_swap
    | _ => rfl
  | timestamp a =>
    cases w with
    | timestamp b => exact congrArg some (a.compare_swap b)
    | _ => rfl
  | int a =>
    cases w with
    | int b => exact congrArg some Std.OrientedOrd.eq_swap
    | uint _ | float _ | decimal _ => exact numbers
    | _ => rfl
  | uint a =>
    cases w with
    | uint b => exact congrArg some Std.OrientedOrd.eq_swap
    | int _ | float _ | decimal _ => exact numbers
    | _ => rfl
  | float _ | decimal _ =>
    cases w with
    | int _ | uint _ | float _ | decimal _ => exact numbers
    | _ => rfl
  | _ => cases w <;> rfl

/-- A number, but not the float that is not one. -/
def IsQuantity (v : Value) : Prop := v.isNumber = true ∧ v ≠ .float .nan

/-- The value is found to be less than the other one or equal to it. -/
def AtMost (v w : Value) : Prop := v.compare? w = some .lt ∨ v.compare? w = some .eq

theorem IsQuantity.exists_amount {v : Value} (quantity : v.IsQuantity) : ∃ a, v.amount? = some a := by
  obtain ⟨number, real⟩ := quantity
  rw [← Option.isSome_iff_exists, Option.isSome_iff_ne_none]
  exact mt (amount?_eq_none number).mp real

/-- Only decimals are right below `2^96`. -/
theorem eq_decimal_of_large {v : Value} {q : ℚ} (found : v.amount? = some (.of q))
    (inside : |q| < 2 ^ 96) (large : 2 ^ 96 - 2 ^ 42 ≤ |q|) : ∃ d, v = .decimal d ∧ d.toRat = q := by
  have same {p : ℚ} (given : some (Amount.of p) = some (.of q)) : p = q :=
    Amount.strictMono_of.injective (Option.some.inj given)
  cases v with
  | int i =>
    have least := i.le_toInt
    have most := i.toInt_lt
    have short : |i.toInt| ≤ 2 ^ 64 := abs_le.mpr (by omega)
    have small : |(i.toInt : ℚ)| ≤ 2 ^ 64 := by exact_mod_cast short
    rw [← same found] at large
    linarith
  | uint u =>
    have most := u.toNat_lt
    have small : |(u.toNat : ℚ)| ≤ 2 ^ 64 := by
      rw [Nat.abs_cast]
      exact_mod_cast most.le
    rw [← same found] at large
    linarith
  | float x =>
    rcases wide_or_narrow found with wide | ⟨d, y, c, narrow⟩
    · obtain ⟨_, _, _, _, beyond⟩ := wide
      rw [Amount.Beyond, Amount.of_le, Amount.of_le] at beyond
      rw [abs_lt] at inside
      rcases beyond with low | high
      · linarith
      · linarith
    · have decimal : x.toDecimal? = some d := narrow.decimal
      rw [amount?, decimal] at found
      rw [← same found] at large
      cases x with
      | finite x =>
        have small := FiniteBinary.abs_toRat_le_of_toDecimal? decimal
        linarith
      | _ => cases decimal
  | decimal d => exact ⟨d, rfl, same found⟩
  | _ => cases found

/-- Only floats are `2^96`. -/
theorem eq_float_of_limit {v : Value} {q : ℚ} (found : v.amount? = some (.of q)) (limit : |q| = 2 ^ 96) :
    ∃ x, v = .float x ∧ x.amount? = some (.of q) := by
  rcases wide_or_narrow found with wide | ⟨d, y, c, narrow⟩
  · obtain ⟨_, x, same, own, _⟩ := wide
    exact ⟨x, same, own⟩
  · have inside := narrow.amount_inside
    rw [Amount.of_lt, Amount.of_lt, ← abs_lt, limit] at inside
    exact absurd inside (lt_irrefl _)

/-- The float that a decimal meets is close to it, and nothing else is close. -/
theorem close_iff {v w : Value} {a b : Amount} (left : v.amount? = some a) (right : w.amount? = some b) :
    a.Close b ↔ ∃ x d, v = .float x ∧ w = .decimal d ∧ x.Meets d := by
  have sign {d : Decimal} (large : 2 ^ 96 - 2 ^ 42 ≤ |d.toRat|) : d.negative = true ↔ d.toRat < 0 := by
    apply Decimal.negative_iff
    intro zero
    norm_num [zero] at large
  constructor
  · intro close
    obtain ⟨p, rfl⟩ : ∃ p, a = .of p := by
      rcases close with ⟨same, _⟩ | ⟨same, _⟩ <;> exact ⟨_, same⟩
    obtain ⟨q, rfl⟩ : ∃ q, b = .of q := by
      rcases close with ⟨_, low, high⟩ | ⟨_, low, high⟩
      · exact Amount.exists_of low high.le
      · exact Amount.exists_of low.le high
    obtain ⟨inside, large, limit⟩ := Amount.close_of.mp close
    have size : |p| = 2 ^ 96 := by
      rw [limit]
      split <;> simp
    obtain ⟨x, rfl, own⟩ := eq_float_of_limit left size
    obtain ⟨d, rfl, rfl⟩ := eq_decimal_of_large right inside large
    refine ⟨x, d, rfl, rfl, d.nearLimit_iff.mpr large, ?_⟩
    simp only [own, limit, sign large]
  · intro given
    obtain ⟨x, d, rfl, rfl, near, value⟩ := given
    have large := d.nearLimit_iff.mp near
    rw [amount?, meets_wide ⟨near, value⟩, value] at left
    cases left
    cases right
    refine Amount.close_of.mpr ⟨d.abs_toRat_lt, large, ?_⟩
    simp only [sign large]

theorem blurred_iff_close {v w : Value} {a b : Amount} (left : v.amount? = some a)
    (right : w.amount? = some b) : v.Blurred w ↔ a.Close b ∨ b.Close a := by
  rw [close_iff left right, close_iff right left]
  cases v <;> cases w <;> simp [Blurred]

/-- Numbers are at most each other as what they amount to is, where they are told apart. -/
theorem atMost_iff {v w : Value} {a b : Amount} (left : v.amount? = some a) (right : w.amount? = some b) :
    v.AtMost w ↔ a.AtMost b := by
  obtain ⟨same, apart⟩ := compare?_eq left right
  rw [blurred_iff_close left right] at same apart
  rw [AtMost, Amount.AtMost]
  by_cases close : a.Close b ∨ b.Close a
  · simp [same close, close]
  · simp [apart close, close, le_iff_lt_or_eq, compare_lt_iff_lt]

/-- Comparison is an order on numbers, but for decimals that are not told apart from a float between
them: values in the other order compare the other way round, numbers are comparable and equal to
themselves, and go through a third one unless it is `2^96` as a float and both are decimals right below
it, and in the wrong order. -/
theorem numbers_in_order (u v w : Value) : v.compare? u = (u.compare? v).map Ordering.swap ∧
    (u.IsQuantity → u.compare? u = some .eq) ∧
    (u.IsQuantity → v.IsQuantity → ∃ o, u.compare? v = some o) ∧
    (u.IsQuantity → v.IsQuantity → w.IsQuantity → u.AtMost v → v.AtMost w →
      (u.AtMost w ↔ ¬∃ d x e, u = .decimal d ∧ v = .float x ∧ w = .decimal e ∧
        x.Meets d ∧ x.Meets e ∧ e.toRat < d.toRat)) := by
  refine ⟨compare?_swap u v, ?_, ?_, ?_⟩
  · intro quantity
    obtain ⟨a, own⟩ := quantity.exists_amount
    have apart : ¬u.Blurred u := by cases u <;> exact id
    rw [(compare?_eq own own).2 apart, compare_eq_iff_eq.mpr rfl]
  · intro first second
    obtain ⟨a, own⟩ := first.exists_amount
    obtain ⟨b, other⟩ := second.exists_amount
    obtain ⟨same, apart⟩ := compare?_eq own other
    by_cases blurred : u.Blurred v
    · exact ⟨_, same blurred⟩
    · exact ⟨_, apart blurred⟩
  · intro first second third least most
    obtain ⟨a, low⟩ := first.exists_amount
    obtain ⟨b, middle⟩ := second.exists_amount
    obtain ⟨c, high⟩ := third.exists_amount
    rw [atMost_iff low middle] at least
    rw [atMost_iff middle high] at most
    rw [atMost_iff low high, Amount.atMost_iff_of_between least most, close_iff middle low,
      close_iff middle high, not_iff_not]
    constructor
    · intro gap
      obtain ⟨⟨x, d, rfl, rfl, meets⟩, ⟨_, e, same, rfl, other⟩, less⟩ := gap
      cases same
      cases low
      cases high
      exact ⟨d, x, e, rfl, rfl, rfl, meets, other, Amount.of_lt.mp less⟩
    · intro gap
      obtain ⟨d, x, e, rfl, rfl, rfl, meets, other, less⟩ := gap
      cases low
      cases high
      exact ⟨⟨x, d, rfl, rfl, meets⟩, ⟨x, e, rfl, rfl, other⟩, Amount.of_lt.mpr less⟩

theorem canonical_limit : BinaryFormat.double.Canonical (2 ^ 52) 44 := by decide

/-- The double `2^96`. -/
def limitFloat : Binary64 := .finite ⟨false, 2 ^ 52, 44, canonical_limit⟩

def greatestDecimal : Decimal := ⟨false, 2 ^ 96 - 1, 0, by decide, Nat.zero_le _⟩

/-- The greatest decimal but one. -/
def secondDecimal : Decimal := ⟨false, 2 ^ 96 - 2, 0, by decide, Nat.zero_le _⟩

theorem numbers_in_order_limits :
    (Value.decimal secondDecimal).compare? (.float limitFloat) = some .eq ∧
    (Value.float limitFloat).compare? (.decimal greatestDecimal) = some .eq ∧
    (Value.decimal secondDecimal).AtMost (.decimal greatestDecimal) ∧
    (Value.int 3).AtMost (.float (.infinite false)) := by
  have low : (Value.decimal secondDecimal).compare? (.float limitFloat) = some .eq := by decide +kernel
  have high : (Value.float limitFloat).compare? (.decimal greatestDecimal) = some .eq := by
    decide +kernel
  have small : (Value.int 3).compare? (.float limitFloat) = some .lt := by decide +kernel
  have large : (Value.float limitFloat).compare? (.float (.infinite false)) = some .lt := by
    decide +kernel
  have quantity : ∀ v ∈ [decimal secondDecimal, decimal greatestDecimal, float limitFloat, int 3,
      float (.infinite false)], v.IsQuantity := by
    simp [IsQuantity, isNumber, limitFloat]
  simp only [List.forall_mem_cons] at quantity
  obtain ⟨second, greatest, limit, three, infinity, _⟩ := quantity
  refine ⟨low, high, ?_, ?_⟩
  · obtain ⟨_, _, _, through⟩ :=
      numbers_in_order (.decimal secondDecimal) (.float limitFloat) (.decimal greatestDecimal)
    apply (through second limit greatest (.inr low) (.inr high)).mpr
    intro gap
    obtain ⟨d, _, e, first, _, last, _, _, less⟩ := gap
    cases first
    cases last
    norm_num [Decimal.toRat, Decimal.signed, greatestDecimal, secondDecimal] at less
  · obtain ⟨_, _, _, through⟩ :=
      numbers_in_order (.int 3) (.float limitFloat) (.float (.infinite false))
    apply (through three limit infinity (.inl small) (.inl large)).mpr
    intro gap
    obtain ⟨d, _, _, first, _⟩ := gap
    cases first

/-- The greatest decimal is equal to the float, and the float to the decimal before, which is less. -/
theorem float_between_decimals :
    (Value.decimal greatestDecimal).compare? (.float limitFloat) = some .eq ∧
    (Value.float limitFloat).compare? (.decimal secondDecimal) = some .eq ∧
    (Value.decimal greatestDecimal).compare? (.decimal secondDecimal) = some .gt := by
  decide +kernel

end Value

end EntitySchema
