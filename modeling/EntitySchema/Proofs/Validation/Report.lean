import EntitySchema.Proofs.Validation.Violations
import EntitySchema.Validation.Adhoc

/-!
What a validator reports: each violation with its path, in the order in which it is found. Violations
are reports that have been filed by their paths, and a validator collects no more than what it reports.
-/

namespace EntitySchema.Validation

/-- A violation and the path at which it is found. -/
structure Report where
  path : String
  violation : Violation

namespace Report

/-- The report as one on a holder. -/
def within (holder : String) (r : Report) : Report := { r with path := holder ++ "." ++ r.path }

/-- What is reported at a path. -/
def listed (path : String) (rs : List Report) : List Violation :=
  (rs.filter fun r => r.path = path).map violation

@[simp]
theorem listed_append (path : String) (first second : List Report) :
    listed path (first ++ second) = listed path first ++ listed path second := by
  rw [listed, List.filter_append, List.map_append, listed, listed]

theorem listed_mk (path : String) (found : List Violation) (other : String) :
    listed other (found.map (mk path)) = if path = other then found else [] := by
  rw [listed, List.filter_map, List.map_map]
  by_cases same : path = other
  · simp [same, Function.comp_def]
  · simp [same, Function.comp_def]

/-- Where reports are the same at every path, so are they as reports on a holder. -/
theorem listed_within {first second : List Report}
    (same : ∀ path, listed path first = listed path second) (holder path : String) :
    listed path (first.map (within holder)) = listed path (second.map (within holder)) := by
  have inside (rs : List Report) (inner : String) :
      listed (holder ++ "." ++ inner) (rs.map (within holder)) = listed inner rs := by
    rw [listed, List.filter_map, List.map_map, listed]
    simp [within, Function.comp_def]
  by_cases below : ∃ inner, path = holder ++ "." ++ inner
  · obtain ⟨inner, rfl⟩ := below
    rw [inside, inside, same]
  · have outside (rs : List Report) : listed path (rs.map (within holder)) = [] := by
      rw [listed, List.map_eq_nil_iff, List.filter_eq_nil_iff]
      intro r member reached
      obtain ⟨inner, _, rfl⟩ := List.mem_map.mp member
      exact below ⟨inner.path, (of_decide_eq_true reached).symm⟩
    rw [outside, outside]

end Report

namespace Violations

/-- What has been found at a path. -/
def found (vs : Violations) (path : String) : List Violation := (vs.get? path).getD []

/-- Files reports in turn. -/
def file (vs : Violations) (rs : List Report) : Violations :=
  rs.foldl (fun vs r => vs.add r.path r.violation) vs

/-- The paths are in order, and at each of them something has been found. -/
structure Clean (vs : Violations) : Prop where
  sorted : vs.Sorted
  filled : ∀ path, vs.get? path ≠ some []

theorem clean_empty : empty.Clean := ⟨sorted_empty, fun _ none => by cases none⟩

/-- Clean violations are what has been found at each path. -/
theorem Clean.ext {vs ws : Violations} (left : vs.Clean) (right : ws.Clean)
    (same : ∀ path, vs.found path = ws.found path) : vs = ws := by
  apply left.sorted.ext right.sorted
  intro path
  have here := same path
  unfold found at here
  cases one : vs.get? path with
  | none =>
    cases two : ws.get? path with
    | none => rfl
    | some list =>
      rw [one, two, Option.getD_none, Option.getD_some] at here
      exact absurd (here ▸ two) (right.filled path)
  | some list =>
    cases two : ws.get? path with
    | none =>
      rw [one, two, Option.getD_none, Option.getD_some] at here
      exact absurd (here ▸ one) (left.filled path)
    | some other =>
      rw [one, two, Option.getD_some, Option.getD_some] at here
      rw [here]

theorem file_append (vs : Violations) (first second : List Report) :
    vs.file (first ++ second) = (vs.file first).file second :=
  List.foldl_append

theorem addAll_eq_file (vs : Violations) (path : String) (new : List Violation) :
    vs.addAll path new = vs.file (new.map (Report.mk path)) := by
  rw [addAll, file, List.foldl_map]

theorem Clean.append {vs : Violations} (clean : vs.Clean) (path : String) {new : List Violation}
    (some : new ≠ []) : (vs.append path new).Clean where
  sorted := KeyMap.Sorted.insert clean.sorted _ _
  filled other := by
    rw [get?_append]
    split
    · simp [some]
    · exact clean.filled other

theorem Clean.file {vs : Violations} (clean : vs.Clean) (rs : List Report) : (vs.file rs).Clean := by
  unfold Violations.file
  induction rs generalizing vs with
  | nil => exact clean
  | cons r rest ih => exact ih (clean.append r.path (List.cons_ne_nil _ _))

theorem found_append (vs : Violations) (path : String) (new : List Violation) (other : String) :
    (vs.append path new).found other = vs.found other ++ if path = other then new else [] := by
  unfold found
  rw [get?_append]
  by_cases same : other = path
  · rw [if_pos same, if_pos same.symm, same, Option.getD_some]
  · rw [if_neg same, if_neg (Ne.symm same), List.append_nil]

/-- What has been filed is found at its path, behind what was there. -/
theorem found_file (vs : Violations) (rs : List Report) (path : String) :
    (vs.file rs).found path = vs.found path ++ Report.listed path rs := by
  unfold file
  induction rs generalizing vs with
  | nil => rw [List.foldl_nil, Report.listed, List.filter_nil, List.map_nil, List.append_nil]
  | cons r rest ih =>
    have first := Report.listed_mk r.path [r.violation] path
    rw [List.foldl_cons, ih, add, found_append, ← first, List.append_assoc, ← Report.listed_append]
    rfl

/-- The paths are those of the reports. -/
theorem mem_fields_file {rs : List Report} {path : String} :
    path ∈ (empty.file rs).fields ↔ ∃ r ∈ rs, r.path = path := by
  have clean : (empty.file rs).Clean := clean_empty.file rs
  have listed : Report.listed path rs = (empty.file rs).found path := (found_file empty rs path).symm
  have some : (∃ r ∈ rs, r.path = path) ↔ Report.listed path rs ≠ [] := by
    rw [Report.listed, Ne, List.map_eq_nil_iff, List.filter_eq_nil_iff]
    simp
  rw [some, listed, fields, ← KeyMap.contains_iff_mem_keys, KeyMap.contains, Option.isSome_iff_exists]
  unfold found
  constructor
  · rintro ⟨list, here⟩ none
    rw [get?, here, Option.getD_some] at none
    exact clean.filled path (none ▸ here)
  · intro filled
    cases here : (empty.file rs).get? path with
    | none =>
      rw [here] at filled
      exact absurd rfl filled
    | some list => exact ⟨list, here⟩

/-- The violations as reports, path by path. -/
def reports (vs : Violations) : List Report :=
  vs.paths.entries.flatMap fun e => e.2.map (Report.mk e.1)

theorem listed_reports {vs : Violations} (sorted : vs.Sorted) (path : String) :
    Report.listed path vs.reports = vs.found path := by
  have distinct : vs.paths.keys.Nodup := KeyMap.Sorted.nodup sorted
  unfold reports found get? KeyMap.get?
  unfold KeyMap.keys at distinct
  generalize vs.paths.entries = entries at distinct
  induction entries with
  | nil => rfl
  | cons e rest ih =>
    obtain ⟨key, list⟩ := e
    rw [List.map_cons, List.nodup_cons] at distinct
    rw [List.flatMap_cons, Report.listed_append, Report.listed_mk, ih distinct.2, List.lookup_cons]
    by_cases same : key = path
    · subst same
      have absent : rest.lookup key = none := by
        rw [List.lookup_eq_none_iff]
        intro e member
        have other : key ≠ e.1 := by
          intro same
          exact distinct.1 (List.mem_map.mpr ⟨e, member, same.symm⟩)
        simpa using other
      rw [if_pos rfl, absent, beq_self_eq_true, Option.getD_none, List.append_nil, Option.getD_some]
    · rw [if_neg same, beq_false_of_ne (Ne.symm same), List.nil_append]

/-- What is found in a holder is found under its name, behind what was there. -/
theorem found_mergeNested (vs : Violations) (holder : String) (nested : Violations) (path : String) :
    (vs.mergeNested holder nested).found path =
      vs.found path ++ Report.listed path (nested.reports.map (Report.within holder)) := by
  unfold mergeNested reports
  generalize nested.paths.entries = entries
  induction entries generalizing vs with
  | nil => exact (List.append_nil _).symm
  | cons e rest ih =>
    have own : (e.2.map (Report.mk e.1)).map (Report.within holder) =
        e.2.map (Report.mk (holder ++ "." ++ e.1)) := by
      rw [List.map_map]
      rfl
    rw [List.foldl_cons, ih, found_append, List.flatMap_cons, List.map_append, Report.listed_append, own,
      Report.listed_mk, List.append_assoc]

theorem Clean.mergeNested {vs nested : Violations} (clean : vs.Clean) (inner : nested.Clean)
    (holder : String) : (vs.mergeNested holder nested).Clean := by
  have filled : ∀ e ∈ nested.paths.entries, e.2 ≠ [] := by
    intro e member none
    apply inner.filled e.1
    rw [← none]
    exact KeyMap.get?_eq_some_of_mem (KeyMap.Sorted.nodup inner.sorted) member
  unfold Violations.mergeNested
  generalize nested.paths.entries = entries at filled
  induction entries generalizing vs with
  | nil => exact clean
  | cons e rest ih =>
    exact ih (clean.append _ (filled e (.head _))) fun other member => filled other (.tail _ member)

/-- Merging what has been filed for a holder is filing it under the holder's name. -/
theorem Clean.mergeNested_file {vs : Violations} (clean : vs.Clean) (holder : String)
    (rs : List Report) :
    vs.mergeNested holder (empty.file rs) = vs.file (rs.map (Report.within holder)) := by
  have inner : (empty.file rs).Clean := clean_empty.file rs
  apply (clean.mergeNested inner holder).ext (clean.file _)
  intro path
  rw [found_mergeNested, found_file]
  congr 1
  apply Report.listed_within
  intro other
  rw [listed_reports inner.sorted, found_file]
  rfl

end Violations

/-! The reports of validators. -/

def Validator.reports (v : Validator) (row : Record) : List Report :=
  v.fields.flatMap fun r => (r.check (row.get? r.name)).map (Report.mk r.name)

theorem Validator.collect_eq_file (v : Validator) (row : Record) (vs : Violations) :
    v.collect row vs = vs.file (v.reports row) := by
  unfold collect reports
  induction v.fields generalizing vs with
  | nil => rfl
  | cons r rest ih =>
    rw [List.foldl_cons, ih, List.flatMap_cons, Violations.file_append, Violations.addAll_eq_file]

namespace AdhocValidator

mutual

def reports : AdhocValidator → Record → List Report
  | .node fields holders, row => fields.reports row ++ holderReports holders row

def holderReports : List (String × Bool × AdhocValidator) → Record → List Report
  | [], _ => []
  | (name, required, inner) :: rest, row =>
    let own := match row.get? name with
      | some (.map nested) => (reports inner nested).map (Report.within name)
      | none | some .null => if required then [⟨name, "required", "is required"⟩] else []
      | some other => [⟨name, "type", "expected map, got " ++ other.kind.name⟩]
    own ++ holderReports rest row

end

mutual

/-- A validator collects what it reports. -/
theorem collect_eq_file : ∀ (v : AdhocValidator) (row : Record) {vs : Violations}, vs.Clean →
    v.collect row vs = vs.file (v.reports row)
  | .node fields holders, row, vs, clean => by
    rw [collect, reports, Violations.file_append, Validator.collect_eq_file]
    exact collectHolders_eq_file holders row (clean.file _)

theorem collectHolders_eq_file : ∀ (holders : List (String × Bool × AdhocValidator)) (row : Record)
    {vs : Violations}, vs.Clean →
    collectHolders holders row vs = vs.file (holderReports holders row)
  | [], _, _, _ => by
    rw [collectHolders, holderReports]
    rfl
  | (name, required, inner) :: rest, row, vs, clean => by
    rw [collectHolders, holderReports, Violations.file_append,
      ← collectHolders_eq_file rest row (clean.file _)]
    congr 1
    generalize row.get? name = value
    cases value with
    | none => cases required <;> rfl
    | some v =>
      cases v with
      | map nested =>
        dsimp only
        rw [collect_eq_file inner nested Violations.clean_empty, clean.mergeNested_file]
      | null => cases required <;> rfl
      | _ => rfl

end

/-- An order with an address, which has a place. -/
def orderSchema : AdhocSchema :=
  let latitude : Field := ⟨"lat", "lat", "", .float, .empty, false, none, [.max (.int 90)]⟩
  let place : AdhocEntry := .holder "geo" true "place" ⟨[("lat", .field latitude)]⟩
  let city : Field := ⟨"city", "city", "", .string, .empty, true, none, [.length 2 9]⟩
  let reference : Field := ⟨"reference", "reference", "", .string, .empty, true, none, []⟩
  let address : AdhocEntry := .holder "shipping" true "address" ⟨[("city", .field city), ("geo", place)]⟩
  ⟨"order", ⟨[("reference", .field reference), ("shipping", address)]⟩⟩

def orderValidator (edit : Bool) : AdhocValidator :=
  let place : AdhocValidator := .node ⟨"place", edit, [⟨"lat", .float, false, [.max (.int 90)]⟩]⟩ []
  let address : AdhocValidator :=
    .node ⟨"address", edit, [⟨"city", .string, !edit, [.length 2 9]⟩]⟩ [("geo", !edit, place)]
  .node ⟨"order", edit, [⟨"reference", .string, !edit, []⟩]⟩ [("shipping", !edit, address)]

theorem ofSchema_order (edit : Bool) :
    ofSchema orderSchema edit .standard = .ok (orderValidator edit) := by
  cases edit <;> (simp only [ofSchema, orderSchema, holdersOf]; rfl)

/-- An order without a reference, whose address lacks the city and is too far north. -/
def northernOrder : Record := ⟨[("shipping", .map ⟨[("geo", .map ⟨[("lat", .int 120)]⟩)]⟩)]⟩

end AdhocValidator

end EntitySchema.Validation
