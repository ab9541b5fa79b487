import EntitySchema.Validation.Validator
import EntitySchema.Proofs.KeyMap
import EntitySchema.Proofs.Outcome

/-!
What a validator has checked of a row that it accepts: the value of every field has the shape of the
field's data type, and no field that is required is missing or null.
-/

namespace EntitySchema.Validation

namespace Violations

theorem isEmpty_append (vs : Violations) (path : String) (found : List Violation) :
    (vs.append path found).isEmpty = false := by
  have present : (vs.append path found).paths.get? path ≠ none := by
    rw [append, KeyMap.get?_insert, if_pos rfl]
    exact Option.some_ne_none _
  rw [← Bool.not_eq_true, isEmpty]
  intro none
  rw [KeyMap.eq_empty_of_isEmpty none] at present
  exact present rfl

/-- Violations that are found are never lost. -/
theorem isEmpty_addAll (vs : Violations) (path : String) (found : List Violation) :
    (vs.addAll path found).isEmpty = (vs.isEmpty && found.isEmpty) := by
  unfold addAll
  induction found generalizing vs with
  | nil => rw [List.foldl_nil, List.isEmpty_nil, Bool.and_true]
  | cons v rest ih =>
    rw [List.foldl_cons, ih, add, isEmpty_append, Bool.false_and, List.isEmpty_cons, Bool.and_false]

end Violations

/-- Null has no data type. -/
theorem typed_null (t : DataType) : typed t .null = none := by
  cases t <;> rfl

namespace FieldRules

theorem build_eq_ok {f : Field} {edit : Bool} {config : Config} {r : FieldRules}
    (built : build f edit config = .ok r) :
    r.name = f.name ∧ r.dataType = f.dataType ∧ r.required = (f.required && !edit) := by
  unfold build at built
  split_ifs at built
  all_goals
    obtain ⟨rules, _, done⟩ := Outcome.bind_eq_ok.mp built
    cases done
    exact ⟨rfl, rfl, rfl⟩

/-- A value without violations has the field's type, or is null where nothing is required. -/
theorem check_eq_nil {r : FieldRules} {v : Value} (none : r.check (some v) = []) :
    (v = .null ∧ r.required = false) ∨ ∃ w, typed r.dataType v = some w := by
  unfold check at none
  split at none
  · next nothing => cases nothing
  · next null =>
    split_ifs at none with required
    exact .inl ⟨Option.some.inj null, Bool.eq_false_of_not_eq_true required⟩
  · next same =>
    cases same
    split at none
    · cases none
    · next w fits => exact .inr ⟨w, fits⟩

end FieldRules

namespace Validator

theorem isEmpty_collect (v : Validator) (row : Record) (found : Violations) :
    (v.collect row found).isEmpty =
      (found.isEmpty && v.fields.all fun r => (r.check (row.get? r.name)).isEmpty) := by
  unfold collect
  induction v.fields generalizing found with
  | nil => simp
  | cons r rest ih =>
    rw [List.foldl_cons, ih, Violations.isEmpty_addAll, List.all_cons, Bool.and_assoc]

/-- A row is accepted if no field finds a violation. -/
theorem validateRecord_eq_ok {v : Validator} {row : Record} :
    v.validateRecord row = .ok () ↔ ∀ r ∈ v.fields, r.check (row.get? r.name) = [] := by
  have checks : (v.collect row .empty).isEmpty = true ↔
      ∀ r ∈ v.fields, r.check (row.get? r.name) = [] := by
    have nothing : Violations.empty.isEmpty = true := rfl
    simp only [isEmpty_collect, nothing, Bool.true_and, List.all_eq_true, List.isEmpty_iff]
  rw [validateRecord, Violations.toResult, ← checks]
  cases (v.collect row .empty).isEmpty with
  | true => simp
  | false => simp

/-- A validator looks up the names of the fields. -/
theorem fieldNames_eq {s : Schema} {edit : Bool} {config : Config} {v : Validator}
    (built : ofSchema s edit config = .ok v) : v.fieldNames = s.fieldNames := by
  obtain ⟨rules, each, rfl⟩ := Outcome.map_eq_ok.mp built
  have named : List.Forall₂ (fun f name => name = f.name) s.fields (rules.map FieldRules.name) := by
    rw [List.forall₂_map_right_iff]
    exact (Outcome.mapM_eq_ok.mp each).imp fun f r step => (FieldRules.build_eq_ok step).1
  exact Outcome.eq_map_of_results named

section

variable {s : Schema} {edit : Bool} {config : Config} {v : Validator} {row : Record}

/-- In a row that is accepted, no field finds a violation. -/
theorem exists_check_eq_nil (built : ofSchema s edit config = .ok v)
    (accepted : v.validateRecord row = .ok ()) {f : Field} (declared : f ∈ s.fields) :
    ∃ r, FieldRules.build f edit config = .ok r ∧ r.check (row.get? f.name) = [] := by
  obtain ⟨rules, each, rfl⟩ := Outcome.map_eq_ok.mp built
  obtain ⟨r, member, same⟩ := Outcome.exists_of_mem_sources (Outcome.mapM_eq_ok.mp each) declared
  have none := validateRecord_eq_ok.mp accepted r member
  rw [(FieldRules.build_eq_ok same).1] at none
  exact ⟨r, same, none⟩

/-- In a row that is accepted, every value of a field has the field's type, or is null where nothing is
required. -/
theorem fits_of_accepted (built : ofSchema s edit config = .ok v)
    (accepted : v.validateRecord row = .ok ()) {f : Field} (declared : f ∈ s.fields) {x : Value}
    (found : row.get? f.name = some x) :
    (x = .null ∧ (f.required && !edit) = false) ∨ ∃ w, typed f.dataType x = some w := by
  obtain ⟨r, same, none⟩ := exists_check_eq_nil built accepted declared
  obtain ⟨_, type, required⟩ := FieldRules.build_eq_ok same
  rw [found] at none
  rw [← type, ← required]
  exact FieldRules.check_eq_nil none

end

end Validator

end EntitySchema.Validation
