import EntitySchema.Proofs.Validation.Finding
import EntitySchema.Proofs.Value.Order

/-!
Bounds on numbers. A number of any kind is in the bounds of its field as what it amounts to; only a float
that is not a number is in all bounds, and a float that is `2^96` in those of a decimal right below.
-/

namespace EntitySchema.Validation

open Number

variable {edit : Bool} {config : Config} {f : Field}

/-- A field for numbers. -/
def IsNumeric (t : DataType) : Prop := t = .integer ∨ t = .float

theorem IsNumeric.free {t : DataType} (numeric : IsNumeric t) : t.ownsValidation = false := by
  rcases numeric with rfl | rfl <;> rfl

/-- Numbers are compared as they are. -/
theorem IsNumeric.typed_eq {t : DataType} (numeric : IsNumeric t) {v w : Value}
    (fits : typed t v = some w) : w = v ∧ v.isNumber = true := by
  rcases numeric with rfl | rfl
  · cases v with
    | int _ | uint _ =>
      cases fits
      exact ⟨rfl, rfl⟩
    | _ => cases fits
  · rw [typed] at fits
    split at fits
    · next number =>
      cases fits
      exact ⟨rfl, number⟩
    · cases fits

theorem IsNumeric.boundFor_eq_ok (numeric : IsNumeric f.dataType) {rule : String} {bound w : Value} :
    FieldRules.boundFor f rule bound = .ok w ↔ bound.isNumber = true ∧ bound = w := by
  rcases numeric with type | type
  · simp only [FieldRules.boundFor, type]
    split <;> simp_all
  · simp only [FieldRules.boundFor, type]
    split <;> simp_all

/-- A number is before or behind a bound as what the two amount to, unless they are not told apart. -/
theorem IsNumeric.compare_iff (numeric : IsNumeric f.dataType) {x : Value} (number : x.isNumber = true)
    {o : Ordering} (apart : o ≠ .eq) (rule : String) (bound : Value) :
    (∃ b, FieldRules.boundFor f rule bound = .ok b ∧ x.compare? b = some o) ↔
      ∃ a b, x.amount? = some a ∧ bound.amount? = some b ∧ compare a b = o ∧ ¬x.Blurred bound := by
  simp only [numeric.boundFor_eq_ok]
  constructor
  · intro given
    obtain ⟨b, ⟨other, rfl⟩, order⟩ := given
    exact (Value.compare?_eq_some number other apart).mp order
  · intro given
    obtain ⟨a, b, own, found, order⟩ := given
    have other := Value.isNumber_of_amount? found
    refine ⟨bound, ⟨other, rfl⟩, (Value.compare?_eq_some number other apart).mpr ?_⟩
    exact ⟨a, b, own, found, order⟩

variable {s : Schema} {v : Validator}

theorem bounds_follow_amounts (built : Validator.ofSchema s edit config = .ok v) :
    (∀ row path code, v.Reports row path code ↔
      ∃ f ∈ s.fields, f.name = path ∧ f.Finds edit config (row.get? path) code) ∧
    ∀ f ∈ s.fields, f.dataType = .integer ∨ f.dataType = .float → ∀ x w, typed f.dataType x = some w →
      (x.amount? = none ↔ x = .float .nan) ∧
      (¬f.Finds edit config (some x) "min" ∧ ¬f.Finds edit config (some x) "max" ↔
        ∀ a, x.amount? = some a →
          (∀ bound b, .min bound ∈ f.rules → bound.amount? = some b → b ≤ a ∨ x.Blurred bound) ∧
          (∀ bound b, .max bound ∈ f.rules → bound.amount? = some b → a ≤ b ∨ x.Blurred bound)) := by
  refine ⟨Validator.reports_iff built, ?_⟩
  intro f declared numeric x w fits
  obtain ⟨r, done⟩ := Validator.exists_build built declared
  obtain ⟨rfl, number⟩ := IsNumeric.typed_eq numeric fits
  refine ⟨Value.amount?_eq_none number, ?_⟩
  simp only [finds_min_iff done (IsNumeric.free numeric) fits,
    finds_max_iff done (IsNumeric.free numeric) fits, Field.Breaks,
    IsNumeric.compare_iff numeric number (o := .lt) (by decide),
    IsNumeric.compare_iff numeric number (o := .gt) (by decide), compare_lt_iff_lt, compare_gt_iff_gt]
  constructor
  · intro kept a own
    constructor
    · intro bound b rule found
      by_contra broken
      rw [not_or, not_le] at broken
      exact kept.1 ⟨bound, rule, a, b, own, found, broken⟩
    · intro bound b rule found
      by_contra broken
      rw [not_or, not_le] at broken
      exact kept.2 ⟨bound, rule, a, b, own, found, broken⟩
  · intro within
    constructor
    · intro broken
      obtain ⟨bound, rule, a, b, own, found, less, apart⟩ := broken
      exact ((within a own).1 bound b rule found).elim (not_le.mpr less) apart
    · intro broken
      obtain ⟨bound, rule, a, b, own, found, more, apart⟩ := broken
      exact ((within a own).2 bound b rule found).elim (not_le.mpr more) apart

/-- The greatest decimal. -/
def lastDecimal : Decimal :=
  ⟨false, 79228162514264337593543950335, 0, Nat.lt_succ_self _, Nat.zero_le _⟩

/-- A level that is not negative and no greater than a decimal can be. -/
def levelField : Field :=
  ⟨"level", "level", "", .float, .empty, false, none, [.min (.int 0), .max (.decimal lastDecimal)]⟩

def sensorSchema : Schema := ⟨"Sensor", "Sensor", "", [levelField], []⟩

def sensorValidator : Validator where
  entity := "Sensor"
  edit := false
  fields := [⟨"level", .float, false, [.min (.int 0), .max (.decimal lastDecimal)]⟩]

theorem bounds_follow_amounts_levels :
    Validator.ofSchema sensorSchema false .standard = .ok sensorValidator ∧
    typed levelField.dataType (.uint 7) = some (.uint 7) ∧
    ¬levelField.Finds false .standard (some (.uint 7)) "min" ∧
    ¬levelField.Finds false .standard (some (.uint 7)) "max" := by
  have built : Validator.ofSchema sensorSchema false .standard = .ok sensorValidator := rfl
  have fits : typed levelField.dataType (.uint 7) = some (.uint 7) := rfl
  have bounds := ((bounds_follow_amounts built).2 levelField (.head _) (.inr rfl) _ _ fits).2
  refine ⟨built, fits, bounds.mpr ?_⟩
  intro a own
  cases own
  constructor
  · intro bound b rule found
    obtain rfl : bound = .int 0 := by simpa [levelField] using rule
    cases found
    exact .inl (Amount.of_le.mpr (by decide +kernel))
  · intro bound b rule found
    obtain rfl : bound = .decimal lastDecimal := by simpa [levelField] using rule
    cases found
    exact .inl (Amount.of_le.mpr (by decide +kernel))

/-- The double `2^96`. -/
def wideFloat : Binary64 := .finite ⟨false, 2 ^ 52, 44, by decide⟩

/-- A float that is not a number is in all bounds, and the double `2^96` in that of the greatest
decimal. -/
theorem floats_out_of_bounds_pass :
    Validator.ofSchema sensorSchema false .standard = .ok sensorValidator ∧
    sensorValidator.validateRecord ⟨[("level", .float .nan)]⟩ = .ok () ∧
    sensorValidator.validateRecord ⟨[("level", .float wideFloat)]⟩ = .ok () := by
  refine ⟨rfl, rfl, ?_⟩
  have least : (Value.float wideFloat).compare? (.int 0) = some .gt := by decide +kernel
  have most : (Value.float wideFloat).compare? (.decimal lastDecimal) = some .eq := by decide +kernel
  apply Validator.validateRecord_eq_ok.mpr
  intro r member
  obtain rfl := List.mem_singleton.mp member
  have found : KeyMap.get? ⟨[("level", Value.float wideFloat)]⟩ "level" = some (.float wideFloat) := rfl
  have fits : typed .float (.float wideFloat) = some (.float wideFloat) := rfl
  simp [found, FieldRules.check, fits, FieldRules.evaluate, least, most]

end EntitySchema.Validation
