import EntitySchema.Proofs.Validation.Report
import EntitySchema.Proofs.Validation.Validator

/-!
What a validator of payloads looks at. Payloads that are alike in what the schema declares are not told
apart, whatever else they hold at any depth, and what is reported stands at declared paths.
-/

namespace EntitySchema

/-- Payloads are alike in what an entry declares: they have the same value for it or none, or maps for
it that are alike in all that is declared inside. -/
inductive AdhocEntry.Alike : AdhocEntry → Record → Record → Prop
  | field {f : Field} {a b : Record} (same : a.get? f.name = b.get? f.name) : Alike (.field f) a b
  | value {name title : String} {required : Bool} {entries : KeyMap AdhocEntry} {a b : Record}
      (same : a.get? name = b.get? name) : Alike (.holder name required title entries) a b
  | maps {name title : String} {required : Bool} {entries : KeyMap AdhocEntry} {a b x y : Record}
      (left : a.get? name = some (.map x)) (right : b.get? name = some (.map y))
      (inside : ∀ e ∈ entries.entries, e.2.Alike x y) : Alike (.holder name required title entries) a b

/-- The names on the way to an entry that is declared by an entry or inside it. -/
inductive AdhocEntry.Names : AdhocEntry → List String → Prop
  | own (entry : AdhocEntry) : Names entry [entry.name]
  | inside {name title : String} {required : Bool} {entries : KeyMap AdhocEntry} {names : List String}
      {e : String × AdhocEntry} (member : e ∈ entries.entries) (inner : e.2.Names names) :
      Names (.holder name required title entries) (name :: names)

/-- Payloads are alike in all that a schema declares. -/
def AdhocSchema.Alike (s : AdhocSchema) (a b : Record) : Prop := ∀ e ∈ s.entries.entries, e.2.Alike a b

/-- Names lead to an entry that a schema declares. -/
def AdhocSchema.Declares (s : AdhocSchema) (names : List String) : Prop :=
  ∃ e ∈ s.entries.entries, e.2.Names names

/-- The path of an entry inside a holder. -/
theorem AdhocEntry.Names.intercalate_cons {e : AdhocEntry} {names : List String}
    (declared : e.Names names) (holder : String) :
    holder ++ "." ++ ".".intercalate names = ".".intercalate (holder :: names) := by
  cases declared <;> rw [String.intercalate_cons_cons]

namespace Validation

variable {edit : Bool} {config : Config}

/-- A validator has rules for the given fields only. -/
theorem Validator.exists_field {entity : String} {fields : List Field} {v : Validator}
    (built : ofFields entity fields edit config = .ok v) {r : FieldRules} (member : r ∈ v.fields) :
    ∃ f ∈ fields, r.name = f.name := by
  obtain ⟨rules, each, rfl⟩ := Outcome.map_eq_ok.mp built
  obtain ⟨f, given, done⟩ := Outcome.exists_of_mem_results (Outcome.mapM_eq_ok.mp each) member
  exact ⟨f, given, (FieldRules.build_eq_ok done).1⟩

namespace AdhocValidator

variable {entries : List (String × AdhocEntry)} {title : String} {v : Validator}

theorem mem_fieldsOf {f : Field} : f ∈ fieldsOf entries ↔ ∃ key, (key, .field f) ∈ entries := by
  unfold fieldsOf
  rw [List.mem_filterMap]
  constructor
  · rintro ⟨⟨key, entry⟩, member, found⟩
    cases entry with
    | field g =>
      cases found
      exact ⟨key, member⟩
    | holder => cases found
  · rintro ⟨key, member⟩
    exact ⟨_, member, rfl⟩

/-- The reports of the fields are the same for alike payloads. -/
theorem fields_alike (built : Validator.ofFields title (fieldsOf entries) edit config = .ok v)
    {a b : Record} (alike : ∀ e ∈ entries, e.2.Alike a b) : v.reports a = v.reports b := by
  unfold Validator.reports
  apply List.flatMap_congr
  intro r member
  obtain ⟨f, given, name⟩ := Validator.exists_field built member
  obtain ⟨key, declared⟩ := mem_fieldsOf.mp given
  cases alike _ declared with
  | field same => rw [name, same]

/-- A report is at the path of something that one of the entries declares. -/
def Within (entries : List (String × AdhocEntry)) (r : Report) : Prop :=
  ∃ e ∈ entries, ∃ names, e.2.Names names ∧ r.path = ".".intercalate names

theorem Within.behind {e : String × AdhocEntry} {r : Report} (declared : Within entries r) :
    Within (e :: entries) r := by
  obtain ⟨other, member, found⟩ := declared
  exact ⟨other, .tail _ member, found⟩

/-- A report on a holder itself. -/
theorem Within.own {e : String × AdhocEntry} {r : Report} (path : r.path = e.2.name) :
    Within (e :: entries) r :=
  ⟨e, .head _, [e.2.name], .own e.2, path⟩

/-- What is reported inside a holder is reported on the holder. -/
theorem Within.inside {key name : String} {required : Bool} {inner : List (String × AdhocEntry)}
    {r : Report} (declared : Within inner r) :
    Within ((key, .holder name required title ⟨inner⟩) :: entries) (r.within name) := by
  obtain ⟨e, member, names, named, path⟩ := declared
  refine ⟨_, .head _, name :: names, .inside member named, ?_⟩
  rw [← named.intercalate_cons, ← path]
  rfl

theorem fields_within (built : Validator.ofFields title (fieldsOf entries) edit config = .ok v)
    (row : Record) : ∀ r ∈ v.reports row, Within entries r := by
  intro r reported
  obtain ⟨rules, member, found⟩ := List.mem_flatMap.mp reported
  obtain ⟨_, _, rfl⟩ := List.mem_map.mp found
  obtain ⟨f, given, name⟩ := Validator.exists_field built member
  obtain ⟨key, declared⟩ := mem_fieldsOf.mp given
  exact ⟨_, declared, _, .own _, name⟩

/-- What is built for a holder in front of other entries. -/
theorem holdersOf_holder_eq_ok {key name : String} {required : Bool} {inner : List (String × AdhocEntry)}
    {rest : List (String × AdhocEntry)} {holders : List (String × Bool × AdhocValidator)}
    (built : holdersOf edit config ((key, .holder name required title ⟨inner⟩) :: rest) = .ok holders) :
    ∃ nested fields others, holdersOf edit config inner = .ok nested ∧
      Validator.ofFields title (fieldsOf inner) edit config = .ok fields ∧
      holdersOf edit config rest = .ok others ∧
      holders = (name, required && !edit, .node fields nested) :: others := by
  rw [holdersOf] at built
  obtain ⟨nested, inside, built⟩ := Outcome.bind_eq_ok.mp built
  obtain ⟨fields, own, built⟩ := Outcome.bind_eq_ok.mp built
  obtain ⟨others, behind, built⟩ := Outcome.bind_eq_ok.mp built
  exact ⟨nested, fields, others, inside, own, behind, (Except.ok.inj built).symm⟩

/-- The reports of the holders are the same for alike payloads. -/
theorem holders_alike : ∀ {holders : List (String × Bool × AdhocValidator)},
    holdersOf edit config entries = .ok holders → ∀ {a b : Record}, (∀ e ∈ entries, e.2.Alike a b) →
    holderReports holders a = holderReports holders b := by
  induction entries using holdersOf.induct with
  | case1 =>
    intro holders built a b _
    rw [holdersOf] at built
    cases built
    rfl
  | case2 key f rest ih =>
    intro holders built a b alike
    rw [holdersOf] at built
    exact ih built fun e member => alike e (.tail _ member)
  | case3 key name required title inner rest inside behind =>
    intro holders built a b alike
    obtain ⟨nested, fields, others, innerBuilt, fieldsBuilt, restBuilt, rfl⟩ :=
      holdersOf_holder_eq_ok built
    rw [holderReports, holderReports, behind restBuilt fun e member => alike e (.tail _ member)]
    congr 1
    cases alike _ (.head _) with
    | value same => rw [same]
    | maps left right within =>
      rw [left, right]
      dsimp only
      rw [reports, reports, fields_alike fieldsBuilt within, inside innerBuilt within]

/-- The reports of the holders are at declared paths. -/
theorem holders_within : ∀ {holders : List (String × Bool × AdhocValidator)},
    holdersOf edit config entries = .ok holders → ∀ row, ∀ r ∈ holderReports holders row,
    Within entries r := by
  induction entries using holdersOf.induct with
  | case1 =>
    intro holders built row r reported
    rw [holdersOf] at built
    cases built
    cases reported
  | case2 key f rest ih =>
    intro holders built row r reported
    rw [holdersOf] at built
    exact (ih built row r reported).behind
  | case3 key name required title inner rest inside behind =>
    intro holders built row r reported
    obtain ⟨nested, fields, others, innerBuilt, fieldsBuilt, restBuilt, rfl⟩ :=
      holdersOf_holder_eq_ok built
    rw [holderReports] at reported
    rcases List.mem_append.mp reported with own | later
    · have missing {needed : Bool} {x : Violation}
          (here : r ∈ if needed then [Report.mk name x] else []) : r.path = name := by
        rw [List.mem_ite_nil_right, List.mem_singleton] at here
        rw [here.2]
      split at own
      · next below found =>
        obtain ⟨report, deeper, rfl⟩ := List.mem_map.mp own
        rw [reports] at deeper
        exact Within.inside ((List.mem_append.mp deeper).elim (fields_within fieldsBuilt below report)
          (inside innerBuilt below report))
      · exact .own (missing own)
      · exact .own (missing own)
      · exact .own (by rw [List.mem_singleton.mp own]; rfl)
    · exact (behind restBuilt row r later).behind

theorem fields_eq (s : AdhocSchema) : s.fields = fieldsOf s.entries.entries := List.filterMap_map

variable {s : AdhocSchema} {w : AdhocValidator}

theorem ofSchema_eq_ok (built : ofSchema s edit config = .ok w) :
    ∃ holders fields, holdersOf edit config s.entries.entries = .ok holders ∧
      Validator.ofFields s.name (fieldsOf s.entries.entries) edit config = .ok fields ∧
      w = .node fields holders := by
  unfold ofSchema at built
  obtain ⟨holders, below, built⟩ := Outcome.bind_eq_ok.mp built
  obtain ⟨fields, own, built⟩ := Outcome.bind_eq_ok.mp built
  rw [fields_eq] at own
  exact ⟨holders, fields, below, own, (Except.ok.inj built).symm⟩

theorem reports_alike (built : ofSchema s edit config = .ok w) {a b : Record} (alike : s.Alike a b) :
    w.reports a = w.reports b := by
  obtain ⟨holders, fields, below, own, rfl⟩ := ofSchema_eq_ok built
  rw [reports, reports, fields_alike own alike, holders_alike below alike]

theorem reports_within (built : ofSchema s edit config = .ok w) (row : Record) :
    ∀ r ∈ w.reports row, Within s.entries.entries r := by
  obtain ⟨holders, fields, below, own, rfl⟩ := ofSchema_eq_ok built
  intro r reported
  rw [reports] at reported
  exact (List.mem_append.mp reported).elim (fields_within own row r) (holders_within below row r)

/-- Payloads that are alike in all that is declared get the same result, and what a payload breaks is
found at paths that are made of declared names. -/
theorem undeclared_ignored (built : ofSchema s edit config = .ok w) :
    (∀ a b, s.Alike a b → w.validateRecord a = w.validateRecord b) ∧
    ∀ row vs, w.validateRecord row = .error vs → ∀ path ∈ vs.fields,
      ∃ names, s.Declares names ∧ path = ".".intercalate names := by
  have collected (row : Record) : w.collect row .empty = Violations.empty.file (w.reports row) :=
    collect_eq_file w row Violations.clean_empty
  constructor
  · intro a b alike
    rw [validateRecord, validateRecord, collected, collected, reports_alike built alike]
  · intro row vs refused path found
    unfold validateRecord Violations.toResult at refused
    split_ifs at refused
    cases refused
    rw [collected] at found
    obtain ⟨r, reported, rfl⟩ := Violations.mem_fields_file.mp found
    obtain ⟨e, member, names, named, same⟩ := reports_within built row r reported
    exact ⟨names, ⟨e, member, named⟩, same⟩

/-- The same order with more beside what is declared, at every depth. One of the additions has the name
of a path. -/
def annotatedOrder : Record :=
  let place : Record := ⟨[("alt", .int 3), ("lat", .int 120)]⟩
  ⟨[("note", .text "gift"), ("shipping", .map ⟨[("geo", .map place), ("zip", .int 150)]⟩),
    ("shipping.city", .text "Oslo")]⟩

theorem order_alike : orderSchema.Alike northernOrder annotatedOrder := by
  rw [AdhocSchema.Alike]
  simp only [orderSchema, List.forall_mem_cons]
  refine ⟨.field rfl, .maps rfl rfl ?_, List.forall_mem_nil _⟩
  simp only [List.forall_mem_cons]
  refine ⟨.field rfl, .maps rfl rfl ?_, List.forall_mem_nil _⟩
  simp only [List.forall_mem_cons]
  exact ⟨.field rfl, List.forall_mem_nil _⟩

theorem undeclared_ignored_order : ofSchema orderSchema false .standard = .ok (orderValidator false) ∧
    orderSchema.Alike northernOrder annotatedOrder ∧
    (orderValidator false).validateRecord northernOrder =
      (orderValidator false).validateRecord annotatedOrder ∧
    ∃ vs, (orderValidator false).validateRecord annotatedOrder = .error vs ∧
      vs.fields = ["reference", "shipping.city", "shipping.geo.lat"] ∧
      ∀ path ∈ vs.fields, ∃ names, orderSchema.Declares names ∧ path = ".".intercalate names := by
  obtain ⟨same, declared⟩ := undeclared_ignored (ofSchema_order false)
  refine ⟨ofSchema_order false, order_alike, same _ _ order_alike, ?_⟩
  have refused : (orderValidator false).validateRecord annotatedOrder =
      .error ((orderValidator false).collect annotatedOrder .empty) := by
    decide +kernel
  refine ⟨_, refused, ?_, declared annotatedOrder _ refused⟩
  decide +kernel

end AdhocValidator

end Validation

end EntitySchema
