import EntitySchema.Proofs.Validation.Report
import EntitySchema.Proofs.Validation.Validator

/-!
Validation of edits. The validator for edits is the normal one with nothing required, in the fields and
in the holders alike, and it finds what the normal one finds but for the violations of requirements.
-/

namespace EntitySchema

/-- A function of each result can as well be applied when all steps have been taken. -/
theorem Outcome.mapM_map {ε α β γ : Type} (f : α → Except ε β) (g : β → γ) (xs : List α) :
    xs.mapM (fun x => (f x).map g) = (xs.mapM f).map (List.map g) := by
  induction xs with
  | nil => rfl
  | cons x rest ih =>
    rw [List.mapM_cons, List.mapM_cons, ih]
    cases f x with
    | error e => rfl
    | ok y => cases rest.mapM f <;> rfl

namespace Validation

variable {config : Config}

/-! What is left of violations without those of one code. -/

namespace Violation

/-- Not of a code. -/
def otherThan (code : String) (v : Violation) : Bool := v.code != code

end Violation

namespace Report

theorem listed_filter (keep : Violation → Bool) (path : String) (rs : List Report) :
    listed path (rs.filter fun r => keep r.violation) = (listed path rs).filter keep := by
  rw [listed, listed, List.filter_map, List.filter_filter, List.filter_filter]
  congr 1
  exact List.filter_congr fun r _ => Bool.and_comm _ _

/-- Where a report stands does not matter for its violation. -/
theorem filter_map_within (keep : Violation → Bool) (holder : String) (rs : List Report) :
    (rs.map (within holder)).filter (fun r => keep r.violation) =
      (rs.filter fun r => keep r.violation).map (within holder) := by
  rw [List.filter_map]
  rfl

theorem filter_map_mk (keep : Violation → Bool) (path : String) (found : List Violation) :
    (found.map (mk path)).filter (fun r => keep r.violation) = (found.filter keep).map (mk path) := by
  rw [List.filter_map]
  rfl

end Report

namespace Violations

/-- The violations but for those of a code, and without the paths at which none is left. -/
def without (code : String) (vs : Violations) : Violations :=
  ⟨(vs.paths.map (List.filter (Violation.otherThan code))).filter fun _ rest => !rest.isEmpty⟩

theorem get?_without {vs : Violations} (sorted : vs.Sorted) (code path : String) :
    (vs.without code).get? path =
      ((vs.get? path).map (List.filter (Violation.otherThan code))).filter
        fun rest => !rest.isEmpty := by
  rw [get?, without, (KeyMap.Sorted.map sorted _).get?_filter, KeyMap.get?_map]
  rfl

theorem Clean.without {vs : Violations} (clean : vs.Clean) (code : String) :
    (vs.without code).Clean where
  sorted := (KeyMap.Sorted.map clean.sorted _).filter _
  filled path := by
    rw [get?_without clean.sorted]
    intro none
    have some := (Option.filter_eq_some_iff.mp none).2
    cases some

theorem found_without {vs : Violations} (sorted : vs.Sorted) (code path : String) :
    (vs.without code).found path = (vs.found path).filter (Violation.otherThan code) := by
  rw [found, found, get?_without sorted]
  cases vs.get? path with
  | none => rfl
  | some list =>
    rw [Option.map_some, Option.filter_some, Option.getD_some]
    cases left : list.filter (Violation.otherThan code) with
    | nil => rfl
    | cons v rest => rfl

/-- Leaving violations out and filing them can be done in either order. -/
theorem without_file (code : String) (rs : List Report) :
    (empty.file rs).without code = empty.file (rs.filter fun r => r.violation.otherThan code) := by
  have clean := clean_empty.file rs
  apply (clean.without code).ext (clean_empty.file _)
  intro path
  rw [found_without clean.sorted, found_file, found_file, Report.listed_filter]
  rfl

/-- What a validation has found. -/
def ofResult : Except Violations Unit → Violations
  | .ok () => empty
  | .error vs => vs

theorem ofResult_toResult (vs : Violations) : ofResult vs.toResult = vs := by
  unfold toResult
  split_ifs with none
  · cases vs
    exact congrArg mk (KeyMap.eq_empty_of_isEmpty none).symm
  · rfl

theorem toResult_eq_ok {vs : Violations} : vs.toResult = .ok () ↔ vs = empty := by
  constructor
  · intro accepted
    rw [← ofResult_toResult vs, accepted]
    rfl
  · rintro rfl
    rfl

theorem Clean.eq_empty_iff {vs : Violations} (clean : vs.Clean) :
    vs = empty ↔ ∀ path, vs.found path = [] := by
  constructor
  · rintro rfl path
    rfl
  · exact clean.ext clean_empty

end Violations

/-! Nothing required. -/

namespace FieldRules

/-- The rules with nothing required. -/
def relax (r : FieldRules) : FieldRules := { r with required := false }

theorem build_relax (f : Field) : build f true config = (build f false config).map relax := by
  unfold build
  split_ifs with own
  · cases ofOwnType f config with
    | error m => rfl
    | ok rules => simp [relax, Except.map, bind, Except.bind]
  · cases (f.rules.mapM (ofFieldRule f)).map List.flatten with
    | error m => rfl
    | ok rules => simp [relax, Except.map, bind, Except.bind]

/-- What the rules of a value of the right type can report. -/
def ruleCodes : List String := ["min", "max", "length", "one_of", "format", "type"]

theorem code_of_lengthViolation {s : String} {least most : UInt32} {x : Violation}
    (broken : x ∈ lengthViolation s least most) : x.code = "length" := by
  rw [lengthViolation, List.mem_ite_nil_left, List.mem_singleton] at broken
  rw [broken.2]

theorem code_of_localizedViolations {least most : UInt32} {language : String} {v : Value}
    {x : Violation} (broken : x ∈ localizedViolations least most language v) :
    x.code ∈ ruleCodes := by
  rcases List.mem_append.mp broken with own | content
  · rw [List.mem_ite_nil_left, List.mem_singleton] at own
    rw [own.2]
    simp [ruleCodes]
  · split at content
    · obtain ⟨inner, found, rfl⟩ := List.mem_map.mp content
      dsimp only
      rw [code_of_lengthViolation found]
      simp [ruleCodes]
    · rw [List.mem_singleton.mp content]
      simp [ruleCodes]

theorem code_of_evaluate (t : DataType) (v : Value) (rule : Rule) :
    ∀ x ∈ evaluate t v rule, x.code ∈ ruleCodes := by
  fun_cases evaluate t v rule
  all_goals intro x broken
  case case5 =>
    rw [code_of_lengthViolation broken]
    simp [ruleCodes]
  case case12 =>
    obtain ⟨e, _, found⟩ := List.mem_flatMap.mp broken
    exact code_of_localizedViolations found
  case case1 | case3 | case8 | case10 =>
    rw [List.mem_singleton.mp broken]
    simp [ruleCodes]
  all_goals cases broken

/-- With nothing required, a value breaks the same but for the requirement. -/
theorem check_relax (r : FieldRules) (v : Option Value) :
    r.relax.check v = (r.check v).filter (Violation.otherThan "required") := by
  have missing : (if r.required then [Violation.mk "required" "is required"] else []).filter
      (Violation.otherThan "required") = [] := by
    split_ifs <;> rfl
  unfold check
  split
  · exact missing.symm
  · exact missing.symm
  · rw [relax]
    cases typed r.dataType _ with
    | none => rfl
    | some w =>
      apply Eq.symm
      apply List.filter_eq_self.mpr
      intro x broken
      obtain ⟨rule, _, found⟩ := List.mem_flatMap.mp broken
      apply bne_iff_ne.mpr
      intro required
      have other := code_of_evaluate _ _ _ _ found
      rw [required] at other
      exact absurd other (by decide)

end FieldRules

namespace Validator

/-- The validator with nothing required. -/
def relax (v : Validator) : Validator := ⟨v.entity, true, v.fields.map FieldRules.relax⟩

theorem ofFields_relax (entity : String) (fields : List Field) :
    ofFields entity fields true config = (ofFields entity fields false config).map relax := by
  have each : (fun f => FieldRules.build f true config) =
      fun f => (FieldRules.build f false config).map FieldRules.relax :=
    funext FieldRules.build_relax
  unfold ofFields
  rw [each, Outcome.mapM_map]
  cases fields.mapM fun f => FieldRules.build f false config <;> rfl

theorem reports_relax (v : Validator) (row : Record) :
    v.relax.reports row = (v.reports row).filter fun r => r.violation.otherThan "required" := by
  unfold reports relax
  rw [List.flatMap_map, List.filter_flatMap]
  congr 1
  funext r
  rw [Report.filter_map_mk, ← FieldRules.check_relax]
  rfl

end Validator

namespace AdhocValidator

mutual

/-- The validator with nothing required at any depth. -/
def relax : AdhocValidator → AdhocValidator
  | .node fields holders => .node fields.relax (relaxHolders holders)

def relaxHolders : List (String × Bool × AdhocValidator) → List (String × Bool × AdhocValidator)
  | [] => []
  | (name, _, inner) :: rest => (name, false, relax inner) :: relaxHolders rest

end

theorem holdersOf_relax (entries : List (String × AdhocEntry)) :
    holdersOf true config entries = (holdersOf false config entries).map relaxHolders := by
  induction entries using holdersOf.induct with
  | case1 => rw [holdersOf, holdersOf, Except.map, relaxHolders]
  | case2 _ _ rest ih => rw [holdersOf, holdersOf, ih]
  | case3 key name required title entries rest inner others =>
    rw [holdersOf, holdersOf, inner, others, Validator.ofFields_relax]
    cases holdersOf false config entries with
    | error m => rfl
    | ok holders =>
      cases Validator.ofFields title (fieldsOf entries) false config with
      | error m => rfl
      | ok fields =>
        cases holdersOf false config rest with
        | error m => rfl
        | ok siblings => simp [bind, Except.bind, Except.map, relax, relaxHolders]

theorem ofSchema_relax (s : AdhocSchema) :
    ofSchema s true config = (ofSchema s false config).map relax := by
  unfold ofSchema
  rw [holdersOf_relax, Validator.ofFields_relax]
  cases holdersOf false config s.entries.entries with
  | error m => rfl
  | ok holders => cases Validator.ofFields s.name s.fields false config <;> rfl

mutual

/-- With nothing required, the same is reported but for requirements. -/
theorem reports_relax : ∀ (v : AdhocValidator) (row : Record),
    v.relax.reports row = (v.reports row).filter fun r => r.violation.otherThan "required"
  | .node fields holders, row => by
    rw [relax, reports, reports, List.filter_append, Validator.reports_relax,
      holderReports_relax holders row]

theorem holderReports_relax : ∀ (holders : List (String × Bool × AdhocValidator)) (row : Record),
    holderReports (relaxHolders holders) row =
      (holderReports holders row).filter fun r => r.violation.otherThan "required"
  | [], _ => by
    rw [relaxHolders, holderReports]
    rfl
  | (name, required, inner) :: rest, row => by
    rw [relaxHolders, holderReports, holderReports, List.filter_append,
      holderReports_relax rest row]
    congr 1
    generalize row.get? name = value
    cases value with
    | none => cases required <;> rfl
    | some v =>
      cases v with
      | map nested =>
        dsimp only
        rw [reports_relax inner nested, Report.filter_map_within]
      | null => cases required <;> rfl
      | _ => rfl

end

theorem collect_relax (v : AdhocValidator) (row : Record) :
    v.relax.collect row .empty = (v.collect row .empty).without "required" := by
  rw [collect_eq_file v.relax row Violations.clean_empty, collect_eq_file v row Violations.clean_empty,
    reports_relax, Violations.without_file]

/-- A validator for edits can be built where the normal one can, and fails with the same error
otherwise. It finds the violations that the normal one finds, but for those of requirements, in the
same order at each path, and accepts a payload if the normal one finds nothing else. -/
theorem edit_agrees (s : AdhocSchema) (config : Config) :
    (∀ m, ofSchema s true config = .error m ↔ ofSchema s false config = .error m) ∧
    ∀ v w, ofSchema s false config = .ok v → ofSchema s true config = .ok w → ∀ row,
      Violations.ofResult (w.validateRecord row) =
          (Violations.ofResult (v.validateRecord row)).without "required" ∧
      (w.validateRecord row = .ok () ↔
        ∀ path, ∀ x ∈ (Violations.ofResult (v.validateRecord row)).found path, x.code = "required") := by
  rw [ofSchema_relax]
  constructor
  · intro m
    cases ofSchema s false config <;> simp [Except.map]
  · intro v w built edited row
    rw [built] at edited
    cases edited
    have clean : (v.collect row .empty).Clean := by
      rw [collect_eq_file v row Violations.clean_empty]
      exact Violations.clean_empty.file _
    have all : (v.relax.collect row .empty = .empty) ↔
        ∀ path, ∀ x ∈ (v.collect row .empty).found path, x.code = "required" := by
      rw [collect_relax, (clean.without _).eq_empty_iff]
      refine forall_congr' fun path => ?_
      rw [Violations.found_without clean.sorted, List.filter_eq_nil_iff]
      refine forall₂_congr fun x _ => ?_
      rw [Violation.otherThan, bne_iff_ne, not_not]
    unfold validateRecord
    rw [Violations.ofResult_toResult, Violations.ofResult_toResult, Violations.toResult_eq_ok]
    exact ⟨collect_relax v row, all⟩

theorem edit_agrees_order :
    let normal := Violations.ofResult ((orderValidator false).validateRecord northernOrder)
    let edited := Violations.ofResult ((orderValidator true).validateRecord northernOrder)
    ofSchema orderSchema false .standard = .ok (orderValidator false) ∧
    ofSchema orderSchema true .standard = .ok (orderValidator true) ∧
    normal.fields = ["reference", "shipping.city", "shipping.geo.lat"] ∧
    edited = normal.without "required" ∧ edited.fields = ["shipping.geo.lat"] := by
  have agrees := (edit_agrees orderSchema .standard).2 _ _ (ofSchema_order false) (ofSchema_order true)
  refine ⟨ofSchema_order false, ofSchema_order true, ?_, (agrees northernOrder).1, ?_⟩
  · decide +kernel
  · decide +kernel

end AdhocValidator

end Validation

end EntitySchema
