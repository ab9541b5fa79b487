import EntitySchema.Proofs.Validation.Report
import EntitySchema.Proofs.Validation.Validator

/-!
Which violations are found. A validator reports at a path what the fields of that name find, and a
field without a check of its own finds what its value breaks, rule by rule.
-/

namespace EntitySchema

open Validation

/-- The field finds a violation of this code in its value. -/
def Field.Finds (f : Field) (edit : Bool) (config : Config) (v : Option Value) (code : String) :
    Prop :=
  ∃ r, FieldRules.build f edit config = .ok r ∧ ∃ x ∈ r.check v, x.code = code

/-- The code of what breaks a rule; key markers are never broken. -/
def FieldRule.code : FieldRule → String
  | .min _ => "min"
  | .max _ => "max"
  | .length _ _ => "length"
  | .oneOf _ => "one_of"
  | .primary | .tenant | .unique => "key"

/-- A value in the shape that rules compare breaks a rule of its field. -/
def Field.Breaks (f : Field) (w : Value) : FieldRule → Prop
  | .min bound => ∃ b, FieldRules.boundFor f "min" bound = .ok b ∧ w.compare? b = some .lt
  | .max bound => ∃ b, FieldRules.boundFor f "max" bound = .ok b ∧ w.compare? b = some .gt
  | .length least most => ∃ s, w = .text s ∧ ¬(least.toNat ≤ s.length ∧ s.length ≤ most.toNat)
  | .oneOf values => ∃ ws, FieldRules.allowed f values = .ok ws ∧ ∀ x ∈ ws, isEqual w x = false
  | .primary | .tenant | .unique => False

namespace Validation

variable {edit : Bool} {config : Config}

namespace Validator

/-- The validator reports a violation of this code at a path. -/
def Reports (v : Validator) (row : Record) (path code : String) : Prop :=
  ∃ found, v.validateRecord row = .error found ∧ code ∈ found.codes path

theorem reports_iff_mem {v : Validator} {row : Record} {path code : String} :
    v.Reports row path code ↔ code ∈ (v.collect row .empty).codes path := by
  unfold Reports validateRecord Violations.toResult
  by_cases none : (v.collect row .empty).isEmpty = true
  · have nothing : (v.collect row .empty).codes path = [] := by
      have empty : (v.collect row .empty).paths = .empty := KeyMap.eq_empty_of_isEmpty none
      rw [Violations.codes, Violations.get?, empty]
      rfl
    simp [none, nothing]
  · simp [none]

/-- What is reported at a path is what the fields of that name find. -/
theorem reports_iff {s : Schema} {v : Validator} (built : ofSchema s edit config = .ok v)
    (row : Record) (path code : String) : v.Reports row path code ↔
      ∃ f ∈ s.fields, f.name = path ∧ f.Finds edit config (row.get? path) code := by
  obtain ⟨rules, each, rfl⟩ := Outcome.map_eq_ok.mp built
  replace each := Outcome.mapM_eq_ok.mp each
  have found := Violations.found_file .empty (reports ⟨s.name, edit, rules⟩ row) path
  rw [reports_iff_mem, collect_eq_file]
  change code ∈ ((Violations.file .empty _).found path).map Violation.code ↔ _
  rw [found]
  constructor
  · intro reported
    obtain ⟨x, member, rfl⟩ := List.mem_map.mp reported
    obtain ⟨report, filed, rfl⟩ := List.mem_map.mp member
    obtain ⟨filed, here⟩ := List.mem_filter.mp filed
    obtain ⟨r, inside, own⟩ := List.mem_flatMap.mp filed
    obtain ⟨x, broken, rfl⟩ := List.mem_map.mp own
    obtain ⟨f, declared, done⟩ := Outcome.exists_of_mem_results each inside
    have name := (FieldRules.build_eq_ok done).1
    have path : r.name = path := of_decide_eq_true here
    exact ⟨f, declared, name ▸ path, r, done, x, path ▸ broken, rfl⟩
  · intro finds
    obtain ⟨f, declared, rfl, r, done, x, broken, rfl⟩ := finds
    obtain ⟨own, inside, same⟩ := Outcome.exists_of_mem_sources each declared
    cases done.symm.trans same
    have name := (FieldRules.build_eq_ok done).1
    apply List.mem_map_of_mem
    apply List.mem_append_right
    rw [Report.listed, List.mem_map]
    refine ⟨⟨r.name, x⟩, List.mem_filter.mpr ⟨?_, decide_eq_true name⟩, rfl⟩
    apply List.mem_flatMap_of_mem inside
    apply List.mem_map_of_mem
    rw [name]
    exact broken

theorem exists_build {s : Schema} {v : Validator} (built : ofSchema s edit config = .ok v) {f : Field}
    (declared : f ∈ s.fields) : ∃ r, FieldRules.build f edit config = .ok r := by
  obtain ⟨rules, each, _⟩ := Outcome.map_eq_ok.mp built
  obtain ⟨r, _, done⟩ := Outcome.exists_of_mem_sources (Outcome.mapM_eq_ok.mp each) declared
  exact ⟨r, done⟩

end Validator

namespace FieldRules

/-- A field without a check of its own is checked by its rules. -/
theorem exists_checks {f : Field} {r : FieldRules} (built : build f edit config = .ok r)
    (free : f.dataType.ownsValidation = false) : ∃ each,
      List.Forall₂ (fun rule checks => ofFieldRule f rule = .ok checks) f.rules each ∧
        r.rules = each.flatten := by
  unfold build at built
  rw [free, if_neg Bool.false_ne_true] at built
  obtain ⟨rules, mapped, done⟩ := Outcome.bind_eq_ok.mp built
  obtain ⟨each, all, rfl⟩ := Outcome.map_eq_ok.mp mapped
  cases done
  exact ⟨each, Outcome.mapM_eq_ok.mp all, rfl⟩

/-- What a rule checks finds a violation if the rule is broken, and it has the rule's code. -/
theorem evaluate_iff {f : Field} {rule : FieldRule} {checks : List Rule}
    (read : ofFieldRule f rule = .ok checks) (w : Value) (code : String) :
    (∃ check ∈ checks, ∃ x ∈ evaluate f.dataType w check, x.code = code) ↔
      rule.code = code ∧ f.Breaks w rule := by
  cases rule with
  | min bound =>
    obtain ⟨b, done, rfl⟩ := Outcome.map_eq_ok.mp read
    simp [evaluate, Field.Breaks, FieldRule.code, done, and_comm]
  | max bound =>
    obtain ⟨b, done, rfl⟩ := Outcome.map_eq_ok.mp read
    simp [evaluate, Field.Breaks, FieldRule.code, done, and_comm]
  | length least most =>
    have ok : [.length least most] = checks := by
      rw [ofFieldRule] at read
      split at read
      · cases read
      · split at read
        · cases read
        · exact Except.ok.inj read
    subst ok
    cases w <;> simp [evaluate, lengthViolation, Field.Breaks, FieldRule.code, and_comm]
  | oneOf values =>
    obtain ⟨ws, done, rfl⟩ := Outcome.map_eq_ok.mp read
    simp [evaluate, Field.Breaks, FieldRule.code, done, and_comm]
  | primary | tenant | unique =>
    cases read
    simp [Field.Breaks]

end FieldRules

/-- A field without a check of its own finds what its value breaks. -/
theorem finds_iff {f : Field} {r : FieldRules} (built : FieldRules.build f edit config = .ok r)
    (free : f.dataType.ownsValidation = false) {v w : Value} (fits : typed f.dataType v = some w)
    (code : String) : f.Finds edit config (some v) code ↔
      ∃ rule ∈ f.rules, rule.code = code ∧ f.Breaks w rule := by
  obtain ⟨each, steps, rules⟩ := FieldRules.exists_checks built free
  have check : r.check (some v) = each.flatten.flatMap (FieldRules.evaluate f.dataType w) := by
    have type := (FieldRules.build_eq_ok built).2.1
    rw [← rules]
    cases v with
    | null =>
      rw [typed_null] at fits
      cases fits
    | _ => simp only [FieldRules.check, type, fits]
  constructor
  · intro finds
    obtain ⟨other, same, x, broken, rfl⟩ := finds
    cases built.symm.trans same
    rw [check] at broken
    obtain ⟨test, inside, broken⟩ := List.mem_flatMap.mp broken
    obtain ⟨checks, member, here⟩ := List.mem_flatten.mp inside
    obtain ⟨rule, own, read⟩ := Outcome.exists_of_mem_results steps member
    exact ⟨rule, own, (FieldRules.evaluate_iff read w _).mp ⟨test, here, x, broken, rfl⟩⟩
  · intro breaks
    obtain ⟨rule, own, broken⟩ := breaks
    obtain ⟨checks, member, read⟩ := Outcome.exists_of_mem_sources steps own
    obtain ⟨test, here, x, found, rfl⟩ := (FieldRules.evaluate_iff read w code).mpr broken
    refine ⟨r, built, x, ?_, rfl⟩
    rw [check]
    exact List.mem_flatMap_of_mem (List.mem_flatten_of_mem member here) found

section

variable {f : Field} {r : FieldRules} (built : FieldRules.build f edit config = .ok r)
  (free : f.dataType.ownsValidation = false) {v w : Value} (fits : typed f.dataType v = some w)

include built free fits

/-- What is found under a code is found by the rules of one kind. -/
theorem finds_kind_iff {α : Type} {kind : α → FieldRule} {code : String}
    (coded : ∀ rule : FieldRule, rule.code = code ↔ ∃ x, rule = kind x) :
    f.Finds edit config (some v) code ↔ ∃ x, kind x ∈ f.rules ∧ f.Breaks w (kind x) := by
  rw [finds_iff built free fits]
  constructor
  · intro given
    obtain ⟨rule, own, same, broken⟩ := given
    obtain ⟨x, rfl⟩ := (coded rule).mp same
    exact ⟨x, own, broken⟩
  · intro given
    obtain ⟨x, own, broken⟩ := given
    exact ⟨kind x, own, (coded _).mpr ⟨x, rfl⟩, broken⟩

theorem finds_min_iff : f.Finds edit config (some v) "min" ↔
    ∃ bound, .min bound ∈ f.rules ∧ f.Breaks w (.min bound) :=
  finds_kind_iff built free fits fun rule => by cases rule <;> simp [FieldRule.code]

theorem finds_max_iff : f.Finds edit config (some v) "max" ↔
    ∃ bound, .max bound ∈ f.rules ∧ f.Breaks w (.max bound) :=
  finds_kind_iff built free fits fun rule => by cases rule <;> simp [FieldRule.code]

theorem finds_oneOf_iff : f.Finds edit config (some v) "one_of" ↔
    ∃ values, .oneOf values ∈ f.rules ∧ f.Breaks w (.oneOf values) :=
  finds_kind_iff built free fits fun rule => by cases rule <;> simp [FieldRule.code]

end

end Validation

end EntitySchema
