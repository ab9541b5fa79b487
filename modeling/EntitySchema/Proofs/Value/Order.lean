import EntitySchema.Proofs.Number.Conversion
import EntitySchema.Value.Basic
import Mathlib.Order.WithBot

/-!
Numbers of all kinds in the order of what they amount to. Integers and decimals amount to their exact
values, and so do floats from `2^96` on; smaller floats amount to what their decimals do. Only a float
that is `2^96` and a decimal right below it are not told apart.
-/

namespace EntitySchema

open Number

/-- A rational number or one of the two infinities. -/
abbrev Amount := WithBot (WithTop ℚ)

namespace Amount

def of (q : ℚ) : Amount := ((q : WithTop ℚ) : WithBot (WithTop ℚ))

@[simp]
theorem of_le {p q : ℚ} : of p ≤ of q ↔ p ≤ q := by
  rw [of, of, WithBot.coe_le_coe, WithTop.coe_le_coe]

@[simp]
theorem of_lt {p q : ℚ} : of p < of q ↔ p < q := by
  rw [of, of, WithBot.coe_lt_coe, WithTop.coe_lt_coe]

theorem bot_lt_of (q : ℚ) : ⊥ < of q := WithBot.bot_lt_coe _

theorem of_lt_top (q : ℚ) : of q < ⊤ := WithBot.coe_lt_coe.mpr (WithTop.coe_lt_top q)

theorem strictMono_of : StrictMono of := fun _ _ less => of_lt.mpr less

theorem compare_of (p q : ℚ) : compare (of p) (of q) = compare p q := by
  rw [← cmp_eq_compare, ← cmp_eq_compare, strictMono_of.cmp_map_eq]

/-- An amount that no decimal reaches. -/
def Beyond (a : Amount) : Prop := a ≤ of (-2 ^ 96) ∨ of (2 ^ 96) ≤ a

/-- An amount that no decimal reaches is on the same side of all amounts in their range. -/
theorem Beyond.compare_eq {a b c : Amount} (beyond : a.Beyond)
    (inside : of (-2 ^ 96) < b ∧ b < of (2 ^ 96)) (near : of (-2 ^ 96) ≤ c ∧ c ≤ of (2 ^ 96))
    (apart : a ≠ c) : compare a c = compare a b := by
  rcases beyond with low | high
  · rw [compare_lt_iff_lt.mpr (lt_of_le_of_lt low inside.1),
      compare_lt_iff_lt.mpr (lt_of_le_of_ne (low.trans near.1) apart)]
  · rw [compare_gt_iff_gt.mpr (lt_of_lt_of_le inside.2 high),
      compare_gt_iff_gt.mpr (lt_of_le_of_ne (near.2.trans high) apart.symm)]

end Amount

namespace Number.Binary

variable {f : BinaryFormat}

/-- The exact value, if it is a number. -/
def amount? : Binary f → Option Amount
  | .nan => none
  | .infinite true => some ⊥
  | .infinite false => some ⊤
  | .finite x => some (.of x.toRat)

theorem compare?_eq : ∀ {x y : Binary f} {a b : Amount}, x.amount? = some a → y.amount? = some b →
    x.compare? y = some (Ord.compare a b)
  | .infinite true, .infinite true, _, _, rfl, rfl => congrArg some (compare_eq_iff_eq.mpr rfl).symm
  | .infinite true, .infinite false, _, _, rfl, rfl =>
    congrArg some (compare_lt_iff_lt.mpr bot_lt_top).symm
  | .infinite false, .infinite true, _, _, rfl, rfl =>
    congrArg some (compare_gt_iff_gt.mpr bot_lt_top).symm
  | .infinite false, .infinite false, _, _, rfl, rfl => congrArg some (compare_eq_iff_eq.mpr rfl).symm
  | .infinite true, .finite y, _, _, rfl, rfl =>
    congrArg some (compare_lt_iff_lt.mpr (Amount.bot_lt_of y.toRat)).symm
  | .infinite false, .finite y, _, _, rfl, rfl =>
    congrArg some (compare_gt_iff_gt.mpr (Amount.of_lt_top y.toRat)).symm
  | .finite x, .infinite true, _, _, rfl, rfl =>
    congrArg some (compare_gt_iff_gt.mpr (Amount.bot_lt_of x.toRat)).symm
  | .finite x, .infinite false, _, _, rfl, rfl =>
    congrArg some (compare_lt_iff_lt.mpr (Amount.of_lt_top x.toRat)).symm
  | .finite x, .finite y, _, _, rfl, rfl => by rw [compare?, x.compare_eq, Amount.compare_of]

end Number.Binary

/-- The float is `2^96`, with the sign of a decimal right below it. -/
def Number.Binary.Meets (x : Binary64) (d : Decimal) : Prop :=
  d.NearLimit ∧ x.amount? = some (.of (if d.negative then -2 ^ 96 else 2 ^ 96))

namespace Value

/-- What a number amounts to. A float amounts to what its decimal does, if it has one. -/
def amount? : Value → Option Amount
  | .int i => some (.of i.toInt)
  | .uint u => some (.of u.toNat)
  | .decimal d => some (.of d.toRat)
  | .float x => match x.toDecimal? with
    | some d => some (.of d.toRat)
    | none => x.amount?
  | _ => none

/-- A float and a decimal that are not told apart. -/
def Blurred : Value → Value → Prop
  | .float x, .decimal d => x.Meets d
  | .decimal d, .float x => x.Meets d
  | _, _ => False

/-- A float without a decimal. -/
def Wide (v : Value) (a : Amount) : Prop :=
  v.decimal? = none ∧ ∃ x, v = .float x ∧ x.amount? = some a ∧ a.Beyond

/-- A number with a decimal, whose double may only reach `2^96` for a decimal right below. -/
structure Narrow (v : Value) (a : Amount) (d : Decimal) (y : Binary64) (c : Amount) : Prop where
  decimal : v.decimal? = some d
  amount : a = .of d.toRat
  binary : v.binary? = some y
  double : y.amount? = some c
  near : .of (-2 ^ 96) ≤ c ∧ c ≤ .of (2 ^ 96)
  limit : v = .decimal d → d.NearLimit → c = .of (if d.negative then -2 ^ 96 else 2 ^ 96)
  inside : ¬(v = .decimal d ∧ d.NearLimit) → .of (-2 ^ 96) < c ∧ c < .of (2 ^ 96)

theorem narrow_of_lt {v : Value} {d : Decimal} {x : FiniteBinary .double}
    (decimal : v.decimal? = some d) (binary : v.binary? = some (.finite x)) (small : x.size < 2 ^ 96)
    (far : ¬(v = .decimal d ∧ d.NearLimit)) :
    v.Narrow (.of d.toRat) d (.finite x) (.of x.toRat) := by
  rw [← x.abs_toRat, abs_lt] at small
  have inside : .of (-2 ^ 96) < Amount.of x.toRat ∧ Amount.of x.toRat < .of (2 ^ 96) := by
    simpa using small
  exact ⟨decimal, rfl, binary, rfl, ⟨inside.1.le, inside.2.le⟩,
    fun same near => absurd ⟨same, near⟩ far, fun _ => inside⟩

theorem narrow_of_integer {v : Value} {i : Int} (decimal : v.decimal? = Decimal.ofInt? i)
    (binary : v.binary? = some (Binary.ofInt .double i)) (fits : i.natAbs ≤ 2 ^ 64)
    (other : ∀ d, v ≠ .decimal d) : ∃ d y c, v.Narrow (.of i) d y c := by
  obtain ⟨d, own, value⟩ := Decimal.exists_ofInt? fits
  obtain ⟨x, done, small⟩ := Binary.exists_ofInt fits
  rw [← value]
  exact ⟨d, _, _, narrow_of_lt (decimal.trans own) (done ▸ binary) small fun given => other d given.1⟩

theorem narrow_of_decimal (d : Decimal) : ∃ y c, (Value.decimal d).Narrow (.of d.toRat) d y c := by
  by_cases near : d.NearLimit
  · obtain ⟨x, done, sign, size⟩ := Decimal.exists_toBinary_of_nearLimit near
    have value : x.toRat = if d.negative then -2 ^ 96 else 2 ^ 96 := by
      rw [x.toRat_eq, sign, size]
    refine ⟨.finite x, .of x.toRat, rfl, rfl, congrArg some done, rfl, ?_, fun _ _ => by rw [value],
      fun far => absurd ⟨rfl, near⟩ far⟩
    rw [value]
    cases d.negative <;> simp
  · obtain ⟨x, done, small⟩ := Decimal.exists_toBinary near
    exact ⟨_, _, narrow_of_lt rfl (congrArg some done) small fun given => near given.2⟩

theorem wide_or_narrow {v : Value} {a : Amount} (found : v.amount? = some a) :
    v.Wide a ∨ ∃ d y c, v.Narrow a d y c := by
  cases v with
  | int i =>
    cases found
    have least := i.le_toInt
    have most := i.toInt_lt
    exact .inr (narrow_of_integer rfl rfl (by omega) fun d same => by cases same)
  | uint u =>
    cases found
    have most := u.toNat_lt
    exact .inr (narrow_of_integer rfl rfl (by omega) fun d same => by cases same)
  | decimal d =>
    cases found
    exact .inr ⟨d, narrow_of_decimal d⟩
  | float x =>
    cases decimal : x.toDecimal? with
    | none =>
      rw [amount?, decimal] at found
      refine .inl ⟨decimal, x, rfl, found, ?_⟩
      cases x with
      | nan => cases found
      | infinite m =>
        cases m
        · cases found
          exact .inr le_top
        · cases found
          exact .inl bot_le
      | finite x =>
        cases found
        have large := x.toDecimal?_eq_none_iff.mp decimal
        rw [← x.abs_toRat, le_abs'] at large
        simpa [Amount.Beyond] using large
    | some d =>
      rw [amount?, decimal] at found
      cases found
      cases x with
      | nan => cases decimal
      | infinite m => cases decimal
      | finite x =>
        have small : x.size < 2 ^ 96 := by
          apply not_le.mp
          intro large
          rw [← x.toDecimal?_eq_none_iff] at large
          cases large.symm.trans decimal
        exact .inr ⟨d, _, _, narrow_of_lt decimal rfl small fun given => by cases given.1⟩
  | _ => cases found

theorem Narrow.amount_inside {v : Value} {a c : Amount} {d : Decimal} {y : Binary64}
    (narrow : v.Narrow a d y c) : .of (-2 ^ 96) < a ∧ a < .of (2 ^ 96) := by
  have inside := abs_lt.mp d.abs_toRat_lt
  rw [narrow.amount]
  simpa using inside

/-- A float without a decimal has the double of another number only if it is not told apart from it. -/
theorem Wide.blurred_iff {v w : Value} {a b c : Amount} {d : Decimal} {y : Binary64} (wide : v.Wide a)
    (narrow : w.Narrow b d y c) : v.Blurred w ↔ a = c := by
  obtain ⟨_, x, rfl, own, beyond⟩ := wide
  constructor
  · intro blurred
    cases w with
    | decimal e =>
      cases narrow.decimal
      rw [narrow.limit rfl blurred.1]
      exact Option.some.inj (own.symm.trans blurred.2)
    | _ => cases blurred
  · intro same
    by_cases near : w = .decimal d ∧ d.NearLimit
    · obtain ⟨rfl, near⟩ := near
      rw [same, narrow.limit rfl near] at own
      exact ⟨near, own⟩
    · have inside := narrow.inside near
      rw [← same] at inside
      rcases beyond with low | high
      · exact absurd inside.1 (not_lt.mpr low)
      · exact absurd inside.2 (not_lt.mpr high)

theorem blurred_comm {v w : Value} : v.Blurred w ↔ w.Blurred v := by
  cases v <;> cases w <;> exact Iff.rfl

theorem meets_wide {x : Binary64} {d : Decimal} (meets : x.Meets d) : x.toDecimal? = none := by
  obtain ⟨_, value⟩ := meets
  cases x with
  | nan => rfl
  | infinite m => rfl
  | finite x =>
    apply x.toDecimal?_eq_none_iff.mpr
    have same : x.toRat = if d.negative then -2 ^ 96 else 2 ^ 96 :=
      Amount.strictMono_of.injective (Option.some.inj value)
    rw [← x.abs_toRat, same]
    cases d.negative <;> simp

theorem not_blurred_of_decimals {v w : Value} {d e : Decimal} (left : v.decimal? = some d)
    (right : w.decimal? = some e) : ¬v.Blurred w := by
  intro blurred
  cases v with
  | float x =>
    cases w with
    | decimal f => cases (meets_wide blurred).symm.trans left
    | _ => cases blurred
  | decimal f =>
    cases w with
    | float x => cases (meets_wide blurred).symm.trans right
    | _ => cases blurred
  | _ => cases blurred

theorem compareNumbers_of_binary {v w : Value} {x y : Binary64} (left : v.binary? = some x)
    (right : w.binary? = some y) (absent : v.decimal? = none ∨ w.decimal? = none) :
    v.compareNumbers w = x.compare? y := by
  unfold compareNumbers
  rw [left, right]
  rcases absent with none | none
  · rw [none]
    rfl
  · rw [none]
    cases v.decimal? <;> rfl

/-- A float without a decimal is compared with another number by its double. -/
theorem Wide.compareNumbers_eq {v w : Value} {a b c : Amount} {d : Decimal} {y : Binary64}
    (wide : v.Wide a) (narrow : w.Narrow b d y c) :
    v.compareNumbers w = some (if a = c then .eq else Ord.compare a b) ∧
      w.compareNumbers v = some (if a = c then .eq else Ord.compare b a) := by
  obtain ⟨none, x, rfl, own, beyond⟩ := wide
  have forth : (Value.float x).compareNumbers w = some (Ord.compare a c) :=
    (compareNumbers_of_binary rfl narrow.binary (.inl none)).trans (Binary.compare?_eq own narrow.double)
  have back : w.compareNumbers (.float x) = some (Ord.compare c a) :=
    (compareNumbers_of_binary narrow.binary rfl (.inr none)).trans (Binary.compare?_eq narrow.double own)
  by_cases same : a = c
  · rw [forth, back, if_pos same, if_pos same, same, compare_eq_iff_eq.mpr rfl]
    exact ⟨rfl, rfl⟩
  · have apart := beyond.compare_eq narrow.amount_inside narrow.near same
    have swapped : Ord.compare c a = Ord.compare b a := by
      rw [Std.OrientedOrd.eq_swap, apart, ← Std.OrientedOrd.eq_swap]
    rw [forth, back, if_neg same, if_neg same, apart, swapped]
    exact ⟨rfl, rfl⟩

/-- Numbers are compared by what they amount to, unless they are not told apart. -/
theorem compareNumbers_eq {v w : Value} {a b : Amount} (left : v.amount? = some a)
    (right : w.amount? = some b) : (v.Blurred w → v.compareNumbers w = some .eq) ∧
      (¬v.Blurred w → v.compareNumbers w = some (Ord.compare a b)) := by
  rcases wide_or_narrow left with wide | ⟨d, y, c, narrow⟩
  · rcases wide_or_narrow right with other | ⟨e, z, f, other⟩
    · obtain ⟨none, x, rfl, own, _⟩ := wide
      obtain ⟨_, y, rfl, others, _⟩ := other
      refine ⟨False.elim, fun _ => ?_⟩
      exact (compareNumbers_of_binary rfl rfl (.inl none)).trans (Binary.compare?_eq own others)
    · rw [(wide.compareNumbers_eq other).1, wide.blurred_iff other]
      exact ⟨fun same => by rw [if_pos same], fun same => by rw [if_neg same]⟩
  · rcases wide_or_narrow right with wide | ⟨e, z, f, other⟩
    · rw [(wide.compareNumbers_eq narrow).2, blurred_comm, wide.blurred_iff narrow]
      exact ⟨fun same => by rw [if_pos same], fun same => by rw [if_neg same]⟩
    · refine ⟨fun blurred => absurd blurred (not_blurred_of_decimals narrow.decimal other.decimal), ?_⟩
      intro _
      rw [compareNumbers, narrow.decimal, other.decimal, narrow.amount, other.amount, Amount.compare_of,
        ← Decimal.compare_eq]

/-- Numbers are in the order of what they amount to, unless they are not told apart. -/
theorem compare?_eq {v w : Value} {a b : Amount} (left : v.amount? = some a)
    (right : w.amount? = some b) : (v.Blurred w → v.compare? w = some .eq) ∧
      (¬v.Blurred w → v.compare? w = some (Ord.compare a b)) := by
  have numbers := compareNumbers_eq left right
  cases v with
  | int i =>
    cases w with
    | int j =>
      cases left
      cases right
      refine ⟨False.elim, fun _ => ?_⟩
      rw [compare?, Amount.compare_of, ← cmp_eq_compare, ← cmp_eq_compare]
      exact congrArg some (Int.cast_strictMono.cmp_map_eq _ _).symm
    | uint u => exact numbers
    | float y => exact numbers
    | decimal e => exact numbers
    | _ => cases right
  | uint u =>
    cases w with
    | uint j =>
      cases left
      cases right
      refine ⟨False.elim, fun _ => ?_⟩
      rw [compare?, Amount.compare_of, ← cmp_eq_compare, ← cmp_eq_compare]
      exact congrArg some (Nat.strictMono_cast.cmp_map_eq _ _).symm
    | int i => exact numbers
    | float y => exact numbers
    | decimal e => exact numbers
    | _ => cases right
  | float x =>
    cases w with
    | int _ | uint _ | float _ | decimal _ => exact numbers
    | _ => cases right
  | decimal d =>
    cases w with
    | int _ | uint _ | float _ | decimal _ => exact numbers
    | _ => cases right
  | _ => cases left

theorem isNumber_of_amount? {v : Value} {a : Amount} (found : v.amount? = some a) :
    v.isNumber = true := by
  cases v with
  | int _ | uint _ | float _ | decimal _ => rfl
  | _ => cases found

/-- The only number that amounts to nothing is the float that is not a number. -/
theorem amount?_eq_none {v : Value} (number : v.isNumber = true) :
    v.amount? = none ↔ v = .float .nan := by
  cases v with
  | float x =>
    cases x with
    | nan => exact iff_of_true rfl rfl
    | infinite m => cases m <;> exact iff_of_false nofun nofun
    | finite x =>
      refine iff_of_false ?_ nofun
      rw [amount?]
      split <;> exact nofun
  | int _ | uint _ | decimal _ => exact iff_of_false nofun nofun
  | _ => cases number

theorem nan_compare? (w : Value) : (Value.float .nan).compare? w = none := by
  cases w <;> rfl

theorem compareNumbers_nan (v : Value) : v.compareNumbers (.float .nan) = none := by
  have last (x : Binary64) : x.compare? .nan = none := by cases x <;> rfl
  cases double : v.binary? with
  | none =>
    rw [compareNumbers, double]
    cases v.decimal? <;> rfl
  | some x => rw [compareNumbers_of_binary double rfl (.inr rfl), last]

theorem compare?_nan (v : Value) : v.compare? (.float .nan) = none := by
  cases v with
  | int i => exact compareNumbers_nan (.int i)
  | uint u => exact compareNumbers_nan (.uint u)
  | float x => exact compareNumbers_nan (.float x)
  | decimal d => exact compareNumbers_nan (.decimal d)
  | _ => rfl

/-- A number is before or behind another one as what it amounts to, unless they are not told apart. -/
theorem compare?_eq_some {v w : Value} (left : v.isNumber = true) (right : w.isNumber = true)
    {o : Ordering} (apart : o ≠ .eq) : v.compare? w = some o ↔
      ∃ a b, v.amount? = some a ∧ w.amount? = some b ∧ Ord.compare a b = o ∧ ¬v.Blurred w := by
  cases own : v.amount? with
  | none =>
    rw [(amount?_eq_none left).mp own, nan_compare?]
    simp
  | some a =>
    cases other : w.amount? with
    | none =>
      rw [(amount?_eq_none right).mp other, compare?_nan]
      simp
    | some b =>
      obtain ⟨same, different⟩ := compare?_eq own other
      by_cases blurred : v.Blurred w
      · simp [same blurred, blurred, apart.symm]
      · simp [different blurred, blurred]

end Value

end EntitySchema
