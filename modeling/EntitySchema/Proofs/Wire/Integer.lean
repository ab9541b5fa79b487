import EntitySchema.Proofs.Number.Whole
import EntitySchema.Proofs.Wire.Type

/-!
Integers that are read from numbers. A field of an integer type takes a number of any kind if its exact
value is a whole number in the range of the type, and it holds that number then.
-/

namespace EntitySchema

open Number

/-- The exact value of a number, if it is finite. -/
def Value.exact? : Value → Option ℚ
  | .int i => some i.toInt
  | .uint u => some u.toNat
  | .float (.finite x) => some x.toRat
  | .decimal d => some d.toRat
  | _ => none

namespace WireType

/-- A whole number is found for a value of this amount that a decimal can hold. -/
theorem whole?_eq_some (v : Value) (i : Int) :
    whole? v = some i ↔ v.exact? = some (i : ℚ) ∧ i.natAbs < Decimal.limit := by
  have room : 2 ^ 64 < Decimal.limit := by decide
  cases v with
  | int j =>
    have least := j.le_toInt
    have most := j.toInt_lt
    rw [whole?, Value.exact?, Option.some_inj, Option.some_inj, Int.cast_inj]
    omega
  | uint u =>
    have most := u.toNat_lt
    have value : (u.toNat : ℚ) = i ↔ (u.toNat : Int) = i := by exact_mod_cast Iff.rfl
    rw [whole?, Value.exact?, Option.some_inj, Option.some_inj, value]
    omega
  | float x =>
    cases x with
    | finite x =>
      rw [whole?, x.whole_eq_some_iff, Value.exact?, Option.some_inj]
    | _ => simp [whole?, Value.exact?]
  | decimal d =>
    rw [whole?, Value.exact?, Option.some_inj, d.toRat_eq_iff]
    by_cases whole : d.isWhole = true
    · rw [if_pos whole, Option.some_inj]
      constructor
      · intro same
        exact ⟨⟨whole, same⟩, same ▸ d.natAbs_whole_lt⟩
      · intro given
        exact given.1.2
    · simp [whole]
  | _ => simp [whole?, Value.exact?]

/-- All numbers of the integer types are decimals. -/
theorem natAbs_range_lt {k : IntegerType} (standard : k.Standard) (i : k.Range) :
    i.val.natAbs < Decimal.limit := by
  obtain ⟨low, high⟩ := i.property
  have fits : -2 ^ 64 ≤ i.val ∧ i.val < 2 ^ 64 := by
    obtain ⟨signed, bits⟩ := k
    rcases standard with rfl | rfl | rfl | rfl <;> cases signed <;>
      simp [IntegerType.low, IntegerType.high] at low high ⊢ <;> omega
  have room : 2 ^ 64 < Decimal.limit := by decide
  omega

theorem ofInt?_eq_some {k : IntegerType} {i : Int} {n : k.Range} : k.ofInt? i = some n ↔ i = n.val := by
  unfold IntegerType.ofInt?
  split
  · next inside => simp [Subtype.ext_iff]
  · next outside =>
    refine iff_of_false nofun ?_
    intro same
    exact outside (same ▸ n.property)

/-- A number in the range of the type is found if it is the value. -/
theorem inRange_eq_some {k : IntegerType} (standard : k.Standard) (v : Value) (n : k.Range) :
    (whole? v).bind k.ofInt? = some n ↔ v.exact? = some (n.val : ℚ) := by
  simp only [Option.bind_eq_some_iff, whole?_eq_some, ofInt?_eq_some]
  constructor
  · intro found
    obtain ⟨i, ⟨value, _⟩, rfl⟩ := found
    exact value
  · intro value
    exact ⟨n.val, ⟨value, natAbs_range_lt standard n⟩, rfl⟩

theorem readInteger_number (k : IntegerType) {v : Value} (number : v.isNumber = true) :
    readInteger k v = match (whole? v).bind k.ofInt? with
      | some i => .ok i
      | none => .error (.outOfRange k.name v.display) := by
  cases v with
  | int _ | uint _ | float _ | decimal _ => rfl
  | _ => cases number

/-- A number is read as the whole number in the range of the type that it is, and refused if it is
none. -/
theorem integers_keep_value {k : IntegerType} (standard : k.Standard) {v : Value}
    (number : v.isNumber = true) :
    (∀ n : k.Range, (WireType.integer k).read v = .ok n ↔ v.exact? = some (n.val : ℚ)) ∧
    ((WireType.integer k).read v = .error (.outOfRange k.name v.display) ↔
      ∀ n : k.Range, v.exact? ≠ some (n.val : ℚ)) := by
  have found := inRange_eq_some standard v
  change (∀ n : k.Range, readInteger k v = .ok n ↔ _) ∧ (readInteger k v = .error _ ↔ _)
  rw [readInteger_number k number]
  cases inside : (whole? v).bind k.ofInt? with
  | none =>
    rw [inside] at found
    have absent (n : k.Range) : v.exact? ≠ some (n.val : ℚ) := fun same => nomatch (found n).mpr same
    exact ⟨fun n => iff_of_false nofun (absent n), iff_of_true rfl absent⟩
  | some m =>
    rw [inside] at found
    constructor
    · intro n
      rw [← found, Except.ok.injEq, Option.some_inj]
    · refine iff_of_false nofun ?_
      intro absent
      exact absent m ((found m).mp rfl)

/-- The double `2^63`. -/
def halfRange : Value := .float (.finite ⟨false, 2 ^ 52, 11, by decide⟩)

theorem integers_keep_value_halfRange :
    IntegerType.Standard ⟨false, 64⟩ ∧ halfRange.isNumber = true ∧
    uint64.read halfRange = .ok ⟨9223372036854775808, by decide⟩ ∧
    int64.read halfRange = .error (.outOfRange (IntegerType.name ⟨true, 64⟩) halfRange.display) := by
  have unsigned : IntegerType.Standard ⟨false, 64⟩ := .inr (.inr (.inr rfl))
  have signed : IntegerType.Standard ⟨true, 64⟩ := .inr (.inr (.inr rfl))
  have value : halfRange.exact? = some ((9223372036854775808 : Int) : ℚ) := by decide +kernel
  have number : halfRange.isNumber = true := rfl
  refine ⟨unsigned, number, ?_, ?_⟩
  · exact ((integers_keep_value unsigned number).1 _).mpr value
  · apply (integers_keep_value signed number).2.mpr
    intro n same
    have equal : n.val = 9223372036854775808 := by
      exact_mod_cast (Option.some.inj (same.symm.trans value))
    have most : n.val ≤ 9223372036854775807 := n.property.2
    omega

end WireType

end EntitySchema
