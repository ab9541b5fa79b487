import EntitySchema.Proofs.Validation.Finding

/-!
Which texts a field accepts. A text is checked as it is: against all length rules of its field, against
the length and the format of a type that has one, or against the allowed values of an enumeration, and
then against nothing else.
-/

namespace EntitySchema

open Validation

/-- The value passes all checks of the field. -/
def Field.Accepts (f : Field) (edit : Bool) (config : Config) (v : Value) : Prop :=
  ∃ r, FieldRules.build f edit config = .ok r ∧ r.check (some v) = []

/-- The number of characters of all texts of a type. -/
def DataType.fixedLength? : DataType → Option Nat
  | .ulid => some 26
  | .countryCode => some 2
  | .currencyCode => some 3
  | _ => none

namespace Validation

variable {f : Field} {edit : Bool} {config : Config} {r : FieldRules}

/-- A value in a row that is accepted passes the checks of its field. -/
theorem Validator.accepts_of_accepted {s : Schema} {v : Validator} {row : Record}
    (built : ofSchema s edit config = .ok v) (accepted : v.validateRecord row = .ok ())
    (declared : f ∈ s.fields) {x : Value} (found : row.get? f.name = some x) :
    f.Accepts edit config x := by
  obtain ⟨r, same, none⟩ := exists_check_eq_nil built accepted declared
  rw [found] at none
  exact ⟨r, same, none⟩

theorem typed_text {t : DataType} (textual : t.isTextual = true) (s : String) :
    typed t (.text s) = some (.text s) := by
  cases t <;> first | rfl | cases textual

/-- What a textual type takes is left as it is. -/
theorem eq_of_typed_textual {t : DataType} (textual : t.isTextual = true) {v w : Value}
    (fits : typed t v = some w) : w = v := by
  cases v with
  | text s => exact (Option.some.inj ((typed_text textual s).symm.trans fits)).symm
  | _ =>
    cases t with
    | email | phone | string | secret | url | ulid | uuid | enumString | countryCode | currencyCode =>
      cases fits
    | _ => cases textual

theorem isEqual_text_iff (s : String) (v : Value) : isEqual (.text s) v = true ↔ v = .text s := by
  cases v with
  | text t =>
    have same : Ord.compare s t = .eq ↔ s = t := Std.compare_eq_iff_eq
    have alike : (Value.text s).same (.text t) = true ↔ s = t := by simp [Value.same]
    rw [isEqual, Value.compare?, Bool.or_eq_true, beq_iff_eq, Option.some_inj, same, alike, or_self,
      Value.text.injEq, eq_comm]
  | _ => exact iff_of_false nofun nofun

namespace FieldRules

/-- A text passes if it breaks no rule. -/
theorem check_text_eq_nil (built : build f edit config = .ok r) (textual : f.dataType.isTextual = true)
    (s : String) : r.check (some (.text s)) = [] ↔
      ∀ rule ∈ r.rules, evaluate f.dataType (.text s) rule = [] := by
  simp only [check, (build_eq_ok built).2.1, typed_text textual, List.flatMap_eq_nil_iff]

theorem evaluate_length_eq_nil {t : DataType} {s : String} {least most : UInt32} :
    evaluate t (.text s) (.length least most) = [] ↔
      least.toNat ≤ s.length ∧ s.length ≤ most.toNat := by
  simp [evaluate, lengthViolation]

theorem evaluate_format_eq_nil {t : DataType} {s : String} :
    evaluate t (.text s) .format = [] ↔ matchesFormat t s = true := by
  simp [evaluate]

theorem evaluate_oneOf_eq_nil {t : DataType} {s : String} {values : List Value} :
    evaluate t (.text s) (.oneOf values) = [] ↔ .text s ∈ values := by
  simp [evaluate, isEqual_text_iff]

theorem lengthBounds_eq_ok {bounds : UInt32 × UInt32} (read : lengthBounds f config = .ok bounds) :
    bounds = f.length?.getD (config.minLength, config.maxLength) := by
  unfold lengthBounds at read
  dsimp only at read
  split at read
  · cases read
  · exact (Except.ok.inj read).symm

/-- Allowed values of a textual type are listed as they are. -/
theorem allowed_eq_ok (textual : f.dataType.isTextual = true) {values listed : List Value}
    (read : allowed f values = .ok listed) : listed = values := by
  have same : List.Forall₂ (fun v w => w = v) values listed := by
    apply (Outcome.mapM_eq_ok.mp read).imp
    intro v w step
    split at step
    · next fits =>
      cases step
      exact eq_of_typed_textual textual fits
    · cases step
  rw [Outcome.eq_map_of_results same, List.map_id']

theorem rules_of_ownsValidation (built : build f edit config = .ok r)
    (own : f.dataType.ownsValidation = true) : ofOwnType f config = .ok r.rules := by
  unfold build at built
  rw [own, if_pos rfl] at built
  obtain ⟨rules, done, built⟩ := Outcome.bind_eq_ok.mp built
  cases built
  exact done

end FieldRules

end Validation

namespace Field

variable {f : Field} {edit : Bool} {config : Config} {s : String}

/-- A text of a type without a check of its own is in the bounds of every length rule. -/
theorem Accepts.length_rules (accepts : f.Accepts edit config (.text s))
    (textual : f.dataType.isTextual = true) (free : f.dataType.ownsValidation = false)
    {least most : UInt32} (rule : .length least most ∈ f.rules) :
    least.toNat ≤ s.length ∧ s.length ≤ most.toNat := by
  obtain ⟨r, built, passed⟩ := accepts
  obtain ⟨each, steps, rules⟩ := FieldRules.exists_checks built free
  obtain ⟨checks, member, read⟩ := Outcome.exists_of_mem_sources steps rule
  rw [FieldRules.check_text_eq_nil built textual, rules] at passed
  by_contra outside
  have breaks : f.Breaks (.text s) (.length least most) := ⟨s, rfl, outside⟩
  obtain ⟨check, own, x, broken, _⟩ :=
    (FieldRules.evaluate_iff read (.text s) "length").mpr ⟨rfl, breaks⟩
  rw [passed check (List.mem_flatten_of_mem member own)] at broken
  cases broken

/-- A text of a type with a format has it, and is in the bounds of the first length rule. -/
theorem Accepts.own_format (accepts : f.Accepts edit config (.text s))
    (textual : f.dataType.isTextual = true) (own : f.dataType.ownsValidation = true)
    (other : f.dataType ≠ .enumString) : matchesFormat f.dataType s = true ∧
      ∀ least most, f.length? = some (least, most) →
        least.toNat ≤ s.length ∧ s.length ≤ most.toNat := by
  obtain ⟨r, built, passed⟩ := accepts
  have checks := FieldRules.rules_of_ownsValidation built own
  obtain ⟨bounds, read, rules⟩ : ∃ bounds, FieldRules.lengthBounds f config = .ok bounds ∧
      [.length bounds.1 bounds.2, .format] = r.rules := by
    unfold FieldRules.ofOwnType at checks
    split at checks
    · next type => exact absurd type other
    · next type => rw [type] at textual; cases textual
    · next type => rw [type] at textual; cases textual
    · exact Outcome.map_eq_ok.mp checks
  rw [FieldRules.check_text_eq_nil built textual, ← rules, List.forall_mem_cons,
    List.forall_mem_singleton, FieldRules.evaluate_length_eq_nil, FieldRules.evaluate_format_eq_nil]
    at passed
  refine ⟨passed.2, ?_⟩
  intro least most first
  have same := FieldRules.lengthBounds_eq_ok read
  rw [first, Option.getD_some] at same
  rw [same] at passed
  exact passed.1

/-- A text is in the bounds of the first length rule, unless it is of an enumeration. -/
theorem Accepts.length_rule (accepts : f.Accepts edit config (.text s))
    (textual : f.dataType.isTextual = true) (other : f.dataType ≠ .enumString) {least most : UInt32}
    (first : f.length? = some (least, most)) : least.toNat ≤ s.length ∧ s.length ≤ most.toNat := by
  cases own : f.dataType.ownsValidation with
  | true => exact (accepts.own_format textual own other).2 least most first
  | false =>
    obtain ⟨rule, member, bounds⟩ := List.exists_of_findSome?_eq_some first
    cases rule with
    | length low high =>
      cases bounds
      exact accepts.length_rules textual own member
    | _ => cases bounds

theorem Accepts.fixed_length (accepts : f.Accepts edit config (.text s)) {n : Nat}
    (fixed : f.dataType.fixedLength? = some n) : s.length = n := by
  cases type : f.dataType with
  | ulid =>
    have format := (accepts.own_format (by rw [type]; rfl) (by rw [type]; rfl) (by rw [type]; nofun)).1
    rw [type, matchesFormat, Format.isUlid, Bool.and_eq_true, decide_eq_true_iff] at format
    rw [type] at fixed
    cases fixed
    exact format.1
  | countryCode | currencyCode =>
    have format := (accepts.own_format (by rw [type]; rfl) (by rw [type]; rfl) (by rw [type]; nofun)).1
    rw [type, matchesFormat, Format.isCode, Bool.and_eq_true, decide_eq_true_iff] at format
    rw [type] at fixed
    cases fixed
    exact format.1
  | _ =>
    rw [type] at fixed
    cases fixed

/-- The texts of an enumeration are the allowed values. -/
theorem accepts_enumString_iff {r : FieldRules} (built : FieldRules.build f edit config = .ok r)
    (type : f.dataType = .enumString) : ∃ values, f.oneOf? = some values ∧
      ∀ s, f.Accepts edit config (.text s) ↔ .text s ∈ values := by
  have textual : f.dataType.isTextual = true := by rw [type]; rfl
  have checks := FieldRules.rules_of_ownsValidation built (by rw [type]; rfl)
  unfold FieldRules.ofOwnType at checks
  rw [type] at checks
  dsimp only at checks
  split at checks
  · cases checks
  · next values first =>
    obtain ⟨listed, read, rules⟩ := Outcome.map_eq_ok.mp checks
    refine ⟨values, first, ?_⟩
    intro s
    have passes : f.Accepts edit config (.text s) ↔ r.check (some (.text s)) = [] := by
      simp [Accepts, built]
    rw [passes, FieldRules.check_text_eq_nil built textual, ← rules, List.forall_mem_singleton,
      FieldRules.evaluate_oneOf_eq_nil, FieldRules.allowed_eq_ok textual read]

end Field

end EntitySchema
