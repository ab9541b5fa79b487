import EntitySchema.Model.Schema
import EntitySchema.Proofs.Outcome

/-!
Schemas that are put together by calls in turn. However the calls are mixed, the fields have different
names, a name stands where it was first added, and under it is the field that was added last. Rules are
in the order of their calls, whatever happens to the fields.
-/

namespace EntitySchema.Schema

/-- A call that goes into a schema. -/
inductive Call where
  | label (text : String)
  | description (text : String)
  | field (f : Field)
  | fields (fs : List Field)
  | rule (r : EntityRule)
  | unique (columns : List String)

namespace Call

/-- The fields that a call adds, in order. -/
def added : Call → List Field
  | .field f => [f]
  | .fields fs => fs
  | .label _ | .description _ | .rule _ | .unique _ => []

/-- The rules that a call declares. -/
def declared : Call → List EntityRule
  | .rule r => [r]
  | .unique columns => [.unique columns]
  | .label _ | .description _ | .field _ | .fields _ => []

/-- No call both adds a field and declares a rule. -/
theorem declared_eq_nil {c : Call} (adds : c.added ≠ []) : c.declared = [] := by
  cases c with
  | field f | fields fs => rfl
  | label text | description text | rule r | unique columns => exact absurd rfl adds

end Call

/-- The schema that a call leaves behind. -/
def after (s : Schema) : Call → Schema
  | .label text => s.withLabel text
  | .description text => s.withDescription text
  | .field f => s.addField f
  | .fields fs => s.addFields fs
  | .rule r => s.addRule r
  | .unique columns => s.addUnique columns

def run (s : Schema) (calls : List Call) : Schema := calls.foldl after s

/-- The field is the last one of its name that was added. -/
def Latest (added : List Field) (f : Field) : Prop :=
  ∃ earlier later, added = earlier ++ f :: later ∧ f.name ∉ later.map Field.name

variable {s : Schema} {f : Field} {fs : List Field} {n : String} {added : List Field} {declared : List EntityRule}

theorem find?_reverse_iff :
    added.reverse.find? (·.name == n) = some f ↔ f.name = n ∧ Latest added f := by
  rw [List.find?_eq_some_iff_append, beq_iff_eq]
  refine and_congr_right fun named => ?_
  subst named
  constructor
  · rintro ⟨later, earlier, joined, others⟩
    refine ⟨earlier.reverse, later.reverse, ?_, ?_⟩
    · rw [← List.reverse_reverse added, joined]
      simp
    · simpa using others
  · rintro ⟨earlier, later, rfl, others⟩
    refine ⟨later.reverse, earlier.reverse, by simp, ?_⟩
    simpa using others

/-! Where a field is placed. -/

/-- A field takes the place of the first one of its name. A field of a new name goes to the end. -/
theorem placeField_cases (f : Field) (fs : List Field) :
    (∃ before old behind, fs = before ++ old :: behind ∧ f.name ∉ before.map Field.name ∧
      old.name = f.name ∧ placeField f fs = before ++ f :: behind) ∨
    (f.name ∉ fs.map Field.name ∧ placeField f fs = fs ++ [f]) := by
  induction fs with
  | nil => exact .inr ⟨List.not_mem_nil, rfl⟩
  | cons g rest ih =>
    rw [placeField]
    by_cases same : g.name = f.name
    · rw [if_pos same]
      exact .inl ⟨[], g, rest, rfl, List.not_mem_nil, same, rfl⟩
    · rw [if_neg same]
      have other : f.name ≠ g.name := Ne.symm same
      rcases ih with ⟨before, old, behind, rfl, fresh, named, placed⟩ | ⟨fresh, placed⟩
      · refine .inl ⟨g :: before, old, behind, rfl, ?_, named, ?_⟩
        · exact List.not_mem_cons_of_ne_of_not_mem other fresh
        · rw [placed, List.cons_append]
      · refine .inr ⟨List.not_mem_cons_of_ne_of_not_mem other fresh, ?_⟩
        rw [placed, List.cons_append]

theorem names_placeField (f : Field) (fs : List Field) :
    (placeField f fs).map Field.name =
      if f.name ∈ fs.map Field.name then fs.map Field.name
      else fs.map Field.name ++ [f.name] := by
  rcases placeField_cases f fs with ⟨before, old, behind, rfl, _, named, placed⟩ | ⟨fresh, placed⟩
  · rw [placed, if_pos (by simp [named])]
    simp [named]
  · rw [placed, if_neg fresh, List.map_append, List.map_singleton]

theorem find?_of_new (fresh : n ∉ fs.map Field.name) : fs.find? (·.name == n) = none := by
  simpa using fresh

theorem find?_placeField (f : Field) (fs : List Field) (n : String) :
    (placeField f fs).find? (·.name == n) =
      if f.name = n then some f else fs.find? (·.name == n) := by
  rcases placeField_cases f fs with ⟨before, old, behind, rfl, fresh, named, placed⟩ | ⟨fresh, placed⟩
  · rw [placed, List.find?_append, List.find?_append]
    by_cases own : f.name = n
    · subst own
      simp [find?_of_new fresh]
    · simp [own, named]
  · rw [placed, List.find?_append]
    by_cases own : f.name = n
    · subst own
      simp [find?_of_new fresh]
    · simp [own]

theorem fieldNames_addField (s : Schema) (f : Field) : (s.addField f).fieldNames =
    if f.name ∈ s.fieldNames then s.fieldNames else s.fieldNames ++ [f.name] :=
  names_placeField f s.fields

theorem field?_addField (s : Schema) (f : Field) (n : String) :
    (s.addField f).field? n = if f.name = n then some f else s.field? n :=
  find?_placeField f s.fields n

/-! What calls keep. -/

/-- What is in a schema to which fields were added and for which rules were declared, in turn. -/
structure Holds (added : List Field) (declared : List EntityRule) (s : Schema) : Prop where
  listed : ∀ n, n ∈ s.fieldNames ↔ n ∈ added.map Field.name
  ordered : s.fieldNames.Pairwise fun m n =>
    (added.map Field.name).idxOf m < (added.map Field.name).idxOf n
  last : ∀ n, s.field? n = added.reverse.find? (·.name == n)
  rules : s.rules = declared

theorem holds_define (name : String) : (define name).Holds [] [] where
  listed _ := .rfl
  ordered := .nil
  last _ := rfl
  rules := rfl

/-- A name that is in the schema is not added for the first time again. -/
theorem Holds.idxOf_added (holds : s.Holds added declared) (more : List Field)
    (listed : n ∈ s.fieldNames) :
    ((added ++ more).map Field.name).idxOf n = (added.map Field.name).idxOf n := by
  rw [List.map_append, List.idxOf_append_of_mem ((holds.listed n).mp listed)]

/-- A name that was added before keeps its place, and a new one comes after all others. -/
theorem Holds.ordered_addField (holds : s.Holds added declared) (f : Field) :
    (s.addField f).fieldNames.Pairwise fun m n =>
      ((added ++ [f]).map Field.name).idxOf m < ((added ++ [f]).map Field.name).idxOf n := by
  have before : s.fieldNames.Pairwise fun m n =>
      ((added ++ [f]).map Field.name).idxOf m < ((added ++ [f]).map Field.name).idxOf n := by
    refine holds.ordered.imp_of_mem fun {m n} first second less => ?_
    rwa [holds.idxOf_added [f] first, holds.idxOf_added [f] second]
  rw [fieldNames_addField]
  split_ifs with known
  · exact before
  · refine List.pairwise_append.mpr ⟨before, List.pairwise_singleton _ _, fun m listed n here => ?_⟩
    have fresh : f.name ∉ added.map Field.name := mt (holds.listed f.name).mpr known
    have inside : (added.map Field.name).idxOf m < (added.map Field.name).length :=
      List.idxOf_lt_length_iff.mpr ((holds.listed m).mp listed)
    rw [List.mem_singleton.mp here, holds.idxOf_added [f] listed, List.map_append,
      List.idxOf_append_of_notMem fresh]
    exact Nat.lt_add_right _ inside

theorem Holds.addField (holds : s.Holds added declared) (f : Field) :
    (s.addField f).Holds (added ++ [f]) declared := by
  refine ⟨fun n => ?_, holds.ordered_addField f, fun n => ?_, holds.rules⟩
  · rw [fieldNames_addField, List.map_append, List.map_singleton, List.mem_append,
      ← holds.listed n, List.mem_singleton]
    split_ifs with known
    · exact ⟨.inl, fun either => either.elim id fun same => same ▸ known⟩
    · rw [List.mem_append, List.mem_singleton]
  · rw [field?_addField, List.reverse_append, List.reverse_singleton, List.singleton_append,
      List.find?_cons, ← holds.last n]
    by_cases own : f.name = n
    · rw [if_pos own, beq_iff_eq.mpr own]
    · rw [if_neg own, beq_false_of_ne own]

theorem Holds.addFields (holds : s.Holds added declared) (fs : List Field) :
    (s.addFields fs).Holds (added ++ fs) declared := by
  induction fs generalizing s added with
  | nil =>
    rw [List.append_nil]
    exact holds
  | cons f rest ih =>
    rw [List.append_cons]
    exact ih (holds.addField f)

theorem Holds.addRule (holds : s.Holds added declared) (r : EntityRule) :
    (s.addRule r).Holds added (declared ++ [r]) :=
  ⟨holds.listed, holds.ordered, holds.last, congrArg (· ++ [r]) holds.rules⟩

theorem Holds.after (holds : s.Holds added declared) (c : Call) :
    (s.after c).Holds (added ++ c.added) (declared ++ c.declared) := by
  cases c with
  | label text | description text =>
    rw [Call.added, Call.declared, List.append_nil, List.append_nil]
    exact ⟨holds.listed, holds.ordered, holds.last, holds.rules⟩
  | field f =>
    rw [Call.declared, List.append_nil]
    exact holds.addField f
  | fields fs =>
    rw [Call.declared, List.append_nil]
    exact holds.addFields fs
  | rule r =>
    rw [Call.added, List.append_nil]
    exact holds.addRule r
  | unique columns =>
    rw [Call.added, List.append_nil]
    exact holds.addRule (.unique columns)

theorem Holds.run (holds : s.Holds added declared) (calls : List Call) :
    (s.run calls).Holds (added ++ calls.flatMap Call.added)
      (declared ++ calls.flatMap Call.declared) := by
  induction calls generalizing s added declared with
  | nil =>
    rw [List.flatMap_nil, List.flatMap_nil, List.append_nil, List.append_nil]
    exact holds
  | cons c rest ih =>
    rw [List.flatMap_cons, List.flatMap_cons, ← List.append_assoc, ← List.append_assoc]
    exact ih (holds.after c)

theorem holds_run (name : String) (calls : List Call) :
    ((define name).run calls).Holds (calls.flatMap Call.added) (calls.flatMap Call.declared) :=
  (holds_define name).run calls

theorem Holds.distinct (holds : s.Holds added declared) : s.fieldNames.Nodup := by
  refine holds.ordered.imp fun {m n} before same => ?_
  subst same
  exact Nat.lt_irrefl _ before

theorem Holds.mem_fields_iff (holds : s.Holds added declared) :
    f ∈ s.fields ↔ s.field? f.name = some f :=
  ⟨Outcome.find?_of_mem holds.distinct, List.mem_of_find?_eq_some⟩

/-- Calls that add fields have no part in the rules. -/
theorem flatMap_declared_filter (calls : List Call) :
    (calls.filter (·.added.isEmpty)).flatMap Call.declared = calls.flatMap Call.declared := by
  induction calls with
  | nil => rfl
  | cons c rest ih =>
    rw [List.flatMap_cons, List.filter_cons]
    split_ifs with quiet
    · rw [List.flatMap_cons, ih]
    · rw [ih, Call.declared_eq_nil (mt List.isEmpty_iff.mpr quiet), List.nil_append]

/-- What a schema shows of the calls that have led to it. -/
structure Shows (s : Schema) (calls : List Call) : Prop where
  distinct : s.fieldNames.Nodup
  listed : ∀ n, n ∈ s.fieldNames ↔ n ∈ (calls.flatMap Call.added).map Field.name
  /-- A name stands before those that were first added after it. -/
  ordered : s.fieldNames.Pairwise fun m n =>
    ((calls.flatMap Call.added).map Field.name).idxOf m <
      ((calls.flatMap Call.added).map Field.name).idxOf n
  held : ∀ f, f ∈ s.fields ↔ Latest (calls.flatMap Call.added) f
  found : ∀ n f, s.field? n = some f ↔ f.name = n ∧ Latest (calls.flatMap Call.added) f
  rules : s.rules = calls.flatMap Call.declared

/-- Fields have different names, in the order in which these were first added, and each is the last one
that was added under its name. Rules are as they were declared, and would be the same without the calls
that add fields. -/
theorem run_keeps_latest (name : String) (calls : List Call) :
    ((define name).run calls).Shows calls ∧
    ((define name).run calls).rules =
      ((define name).run (calls.filter (·.added.isEmpty))).rules := by
  have holds := holds_run name calls
  have found (n : String) (f : Field) : ((define name).run calls).field? n = some f ↔
      f.name = n ∧ Latest (calls.flatMap Call.added) f := by
    rw [holds.last, find?_reverse_iff]
  constructor
  · refine ⟨holds.distinct, holds.listed, holds.ordered, fun f => ?_, found, holds.rules⟩
    rw [holds.mem_fields_iff, found, and_iff_right rfl]
  · rw [holds.rules, (holds_run name _).rules, flatMap_declared_filter]

/-- A later field takes the place of the first of its name. -/
example :
    let s := (define "Thing").run [.field (Field.define "a").field, .unique ["a", "b"],
      .fields [(Field.define "b").field, ((Field.define "a").dataType .integer).field]]
    s.fieldNames = ["a", "b"] ∧ (s.field? "a").map Field.dataType = some .integer ∧
      s.rules = [.unique ["a", "b"]] := by
  decide

end EntitySchema.Schema
