import EntitySchema.Proofs.Sql.Grouping

/-!
Membership in a list beside equality with each of its values. A list is accepted if each of its values
is, and both say the same of a row unless the list has null in it: equality with null asks whether
there is a value, and membership compares null with what there is.
-/

namespace EntitySchema.Sql

variable {α : Type}

theorem Truth.any_no {ts : List Truth} : ts.foldr Truth.or .no = .no ↔ ∀ t ∈ ts, t = .no := by
  have or_eq_no (x y : Truth) : x.or y = .no ↔ x = .no ∧ y = .no := by
    cases x <;> cases y <;> decide
  induction ts with
  | nil => simp
  | cons t rest ih =>
    rw [List.foldr_cons, or_eq_no, List.forall_mem_cons]
    exact and_congr_right' ih

theorem Truth.not_eq_yes {x : Truth} : x.not = .yes ↔ x = .no := by cases x <;> decide

/-- A condition that asks whether a field has one of the values, or none of them. -/
def membership (field : String) (negated : Bool) (vs : List Value) : SearchNode :=
  .leaf ⟨field, .member negated, vs⟩

/-- A condition that asks whether a field equals the value, or does not. -/
def equality (field : String) (negated : Bool) (v : Value) : SearchNode :=
  .leaf ⟨field, .compare (.equality negated), [v]⟩

namespace Test

variable {d : Dialect} {db : Database α} {row : Row α} {column : Column} {ws : List Value}

theorem member_eq_yes (knows : db.KnowsNull d) :
    (Test.member column false ws).truthAt d db row = .yes ↔
      (∃ w ∈ ws, (Test.equality column false w).truthAt d db row = .yes) ∧
        ¬(.null ∈ ws ∧ db.isNull (row column.name) = true) := by
  have found : (Test.member column false ws).truthAt d db row = .yes ↔
      ∃ w ∈ ws, db.equal (row column.name) (db.value d w) = .yes := by
    rw [truthAt, Database.among]
    simp only [Bool.false_eq_true, if_false, Truth.any_yes, List.map_map, List.mem_map,
      exists_exists_and_eq_and, Function.comp_apply]
  simp only [found, truthAt_equals]
  constructor
  · intro given
    obtain ⟨w, member, yes⟩ := given
    have known := mt (knows.equal (row column.name) (db.value d w)) (by rw [yes]; decide)
    rw [not_or] at known
    refine ⟨⟨w, member, ?_⟩, fun both => known.1 both.2⟩
    cases w with
    | null => exact absurd knows.null known.2
    | _ => exact yes
  · intro given
    obtain ⟨⟨w, member, yes⟩, apart⟩ := given
    refine ⟨w, member, ?_⟩
    cases w with
    | null => exact absurd ⟨member, yes⟩ apart
    | _ => exact yes

theorem notMember_eq_yes (knows : db.KnowsNull d) :
    (Test.member column true ws).truthAt d db row = .yes ↔
      (∀ w ∈ ws, (Test.equality column true w).truthAt d db row = .yes) ∧ .null ∉ ws := by
  have missing : (Test.member column true ws).truthAt d db row = .yes ↔
      ∀ w ∈ ws, db.equal (row column.name) (db.value d w) = .no := by
    rw [truthAt, Database.among]
    simp only [if_true, Truth.not_eq_yes, Truth.any_no, List.map_map, List.forall_mem_map,
      Function.comp_apply]
  rw [missing]
  have alone {w : Value} (set : w ≠ .null) :
      (Test.equality column true w).truthAt d db row = .yes ↔
        db.equal (row column.name) (db.value d w) = .no := by
    cases w with
    | null => exact absurd rfl set
    | _ => exact Truth.not_eq_yes
  constructor
  · intro all
    have set : .null ∉ ws := by
      intro member
      have unknown := knows.equal (row column.name) _ (.inr knows.null)
      rw [all .null member] at unknown
      cases unknown
    exact ⟨fun w member => (alone (ne_of_mem_of_not_mem member set)).mpr (all w member), set⟩
  · intro both w member
    exact (alone (ne_of_mem_of_not_mem member both.2)).mp (both.1 w member)

end Test

namespace Compiler

variable {c : Compiler} {field : String} {negated : Bool} {vs : List Value}

/-- The column of the field takes the value, and what it makes of it has a literal. -/
theorem accepts_equality {v : Value} : c.Accepts ⟨field, .compare (.equality negated), [v]⟩ ↔
    ∃ column, c.resolve field = .ok column ∧ ∃ w, column.convert v = .ok w ∧
      ∃ literal, c.dialect.literal w = .ok literal := by
  have tests (column : Column) (w : Value) :
      (∀ u ∈ (Test.equality column negated w).params, ∃ literal, c.dialect.literal u = .ok literal) ↔
        ∃ literal, c.dialect.literal w = .ok literal := by
    cases w with
    | null => exact iff_of_true (fun u none => by cases none) ⟨_, rfl⟩
    | _ => exact List.forall_mem_singleton
  have condition (t : Test) : c.condition ⟨field, .compare (.equality negated), [v]⟩ = .ok t ↔
      ∃ column, c.resolve field = .ok column ∧
        ∃ w, column.convert v = .ok w ∧ Test.equality column negated w = t :=
    Outcome.bind_eq_ok.trans
      (exists_congr fun column => and_congr_right fun _ => comparison_equality)
  simp only [Accepts, condition]
  constructor
  · intro given
    obtain ⟨t, ⟨column, resolved, w, converted, rfl⟩, literals⟩ := given
    exact ⟨column, resolved, w, converted, (tests column w).mp literals⟩
  · intro given
    obtain ⟨column, resolved, w, converted, literal⟩ := given
    exact ⟨_, ⟨column, resolved, w, converted, rfl⟩, (tests column w).mpr literal⟩

theorem accepts_membership (nonempty : vs ≠ []) : c.Accepts ⟨field, .member negated, vs⟩ ↔
    ∀ v ∈ vs, c.Accepts ⟨field, .compare (.equality negated), [v]⟩ := by
  simp only [accepts_equality]
  constructor
  · intro given
    obtain ⟨t, ok, literals⟩ := given
    obtain ⟨column, resolved, tested⟩ := condition_tested ok
    cases tested with
    | member _ converted =>
      intro v member
      obtain ⟨w, inside, own⟩ := Outcome.exists_of_mem_sources converted member
      exact ⟨column, resolved, w, own, literals w inside⟩
  · intro all
    obtain ⟨first, inside⟩ := List.exists_mem_of_ne_nil _ nonempty
    obtain ⟨column, resolved, _⟩ := all first inside
    have each : ∀ v ∈ vs, ∃ w, column.convert v = .ok w ∧
        ∃ literal, c.dialect.literal w = .ok literal := by
      intro v member
      obtain ⟨other, again, rest⟩ := all v member
      rw [resolved, Except.ok.injEq] at again
      exact again ▸ rest
    obtain ⟨ws, both⟩ := Outcome.exists_results each
    refine ⟨.member column negated ws, ?_, fun w member => ?_⟩
    · exact (Tested.member nonempty (both.imp fun v w => And.left)).condition resolved
    · obtain ⟨v, _, _, literal⟩ := Outcome.exists_of_mem_results both member
      exact literal

/-- A membership that is accepted is one test of what the column makes of the values, and each of
these has a test of its own. -/
theorem membership_answers {s : Statement}
    (ok : c.compileFilter (membership field negated vs) = .ok (some s)) (db : Database α)
    (row : Row α) : ∃ column ws answers, column.name = field ∧
      List.Forall₂ (fun v w => column.convert v = .ok w) vs ws ∧
      s.Tells c.dialect db row ((Test.member column negated ws).truthAt c.dialect db row) ∧
      c.Answers db row (vs.map (equality field negated)) answers ∧
      answers.map Prod.snd = ws.map fun w =>
        (Test.equality column negated w).truthAt c.dialect db row := by
  have accepted := exists_leaf_iff.mp ⟨s, ok⟩
  have ⟨t, tested, _⟩ := accepted
  obtain ⟨column, resolved, how⟩ := condition_tested tested
  cases how with
  | @member _ _ ws nonempty converted =>
    have each : ∀ v ∈ vs, ∃ x : Statement × Value,
        c.compileFilter (equality field negated v) = .ok (some x.1) ∧ column.convert v = .ok x.2 := by
      intro v member
      obtain ⟨own, compiled⟩ :=
        exists_leaf_iff.mpr ((accepts_membership nonempty).mp accepted v member)
      obtain ⟨w, _, made⟩ := Outcome.exists_of_mem_sources converted member
      exact ⟨(own, w), compiled, made⟩
    obtain ⟨xs, all⟩ := Outcome.exists_results each
    obtain rfl : ws = xs.map Prod.snd := Outcome.results_unique converted
      (List.forall₂_map_right_iff.mpr (all.imp fun v x => And.right))
    refine ⟨column, _, xs.map fun x =>
      (some x.1, (Test.equality column negated x.2).truthAt c.dialect db row),
      (resolve_eq_ok resolved).2, converted, (leaf_tells tested ok).2 α db row, ?_, ?_⟩
    · rw [Answers, List.forall₂_map_left_iff, List.forall₂_map_right_iff]
      refine all.imp fun v x both => ⟨both.1, ?_⟩
      have compared : c.condition ⟨field, .compare (.equality negated), [v]⟩ =
          .ok (Test.equality column negated x.2) :=
        Outcome.bind_eq_ok.mpr ⟨column, resolved, comparison_equality.mpr ⟨_, both.2, rfl⟩⟩
      exact (leaf_tells compared both.1).2 α db row
    · rw [List.map_map, List.map_map]
      rfl

theorem null_mem_iff {column : Column} {ws : List Value}
    (converted : List.Forall₂ (fun v w => column.convert v = .ok w) vs ws) :
    .null ∈ ws ↔ .null ∈ vs := by
  constructor
  · intro member
    obtain ⟨v, inside, made⟩ := Outcome.exists_of_mem_results converted member
    exact eq_null_of_isNull (Column.convert_isNull made).symm ▸ inside
  · intro member
    obtain ⟨w, inside, made⟩ := Outcome.exists_of_mem_sources converted member
    exact eq_null_of_isNull (Column.convert_isNull made) ▸ inside

/-- A list is accepted if equality with each of its values is. A row whose field is in the list is one
for which one of the equalities is true, unless null is in the list and in the row; a row whose field
is not in the list is one for which all the opposites are true, if null is not in the list. -/
theorem membership_repeats_equality (c : Compiler) (field : String) (vs : List Value)
    (nonempty : vs ≠ []) :
    (∀ negated, (∃ s, c.compileFilter (membership field negated vs) = .ok (some s)) ↔
      ∀ v ∈ vs, ∃ s, c.compileFilter (equality field negated v) = .ok (some s)) ∧
    ∀ (α : Type) (db : Database α) (row : Row α), db.KnowsNull c.dialect →
      (∀ s, c.compileFilter (membership field false vs) = .ok (some s) → ∃ truth answers,
        s.Tells c.dialect db row truth ∧
        c.Answers db row (vs.map (equality field false)) answers ∧
        (truth = .yes ↔ (∃ a ∈ answers, a.2 = .yes) ∧
          ¬(.null ∈ vs ∧ db.isNull (row field) = true))) ∧
      ∀ s, c.compileFilter (membership field true vs) = .ok (some s) → ∃ truth answers,
        s.Tells c.dialect db row truth ∧
        c.Answers db row (vs.map (equality field true)) answers ∧
        (truth = .yes ↔ (∀ a ∈ answers, a.2 = .yes) ∧ .null ∉ vs) := by
  refine ⟨fun negated => ?_, fun α db row knows => ⟨fun s ok => ?_, fun s ok => ?_⟩⟩
  · rw [membership, exists_leaf_iff, accepts_membership nonempty]
    exact forall₂_congr fun v _ => exists_leaf_iff.symm
  · obtain ⟨column, ws, answers, rfl, converted, tells, each, truths⟩ :=
      membership_answers ok db row
    have one : .yes ∈ answers.map Prod.snd ↔ .yes ∈ ws.map fun w =>
        (Test.equality column false w).truthAt c.dialect db row := by rw [truths]
    rw [List.mem_map, List.mem_map] at one
    exact ⟨_, answers, tells, each,
      by rw [Test.member_eq_yes knows, null_mem_iff converted, one]⟩
  · obtain ⟨column, ws, answers, rfl, converted, tells, each, truths⟩ :=
      membership_answers ok db row
    have all : (∀ t ∈ answers.map Prod.snd, t = .yes) ↔ ∀ t ∈ ws.map fun w =>
        (Test.equality column true w).truthAt c.dialect db row, t = .yes := by rw [truths]
    rw [List.forall_mem_map, List.forall_mem_map] at all
    exact ⟨_, answers, tells, each,
      by rw [Test.notMember_eq_yes knows, null_mem_iff converted, all]⟩

/-! Notes whose body is in a list with null. -/

def bodyListed : Statement where
  parameterized := "\"body\" IN (?1, ?2)"
  params := [.text "x", .null]
  sql := "\"body\" IN ('x', NULL)"

unseal Text.Numeral.digits in
theorem membership_repeats_equality_bodies :
    notes.compileFilter (membership "body" false [.text "x", .null]) = .ok (some bodyListed) ∧
    Database.ofLiterals.KnowsNull .sqlite ∧
    ∃ truth answers, bodyListed.Tells .sqlite Database.ofLiterals (fun _ => .text "x") truth ∧
      notes.Answers Database.ofLiterals (fun _ => .text "x")
        [equality "body" false (.text "x"), equality "body" false .null] answers ∧
      (truth = .yes ↔ (∃ a ∈ answers, a.2 = .yes) ∧
        ¬(.null ∈ [Value.text "x", .null] ∧ Database.ofLiterals.isNull (.text "x") = true)) :=
  have knows := Database.knowsNull_ofLiterals .sqlite
  have repeats := membership_repeats_equality notes "body" [.text "x", .null] (List.cons_ne_nil _ _)
  ⟨rfl, knows, (repeats.2 Token Database.ofLiterals (fun _ => .text "x") knows).1 bodyListed rfl⟩

def bodyNull : Statement where
  parameterized := "\"body\" IS NULL"
  params := []
  sql := "\"body\" IS NULL"

def bodyAmongNull : Statement where
  parameterized := "\"body\" IN (?1)"
  params := [.null]
  sql := "\"body\" IN (NULL)"

unseal Text.Numeral.digits in
/-- A note without a body has the body null, and does not have one of the bodies null alone. -/
theorem membership_misses_null :
    notes.compileFilter (equality "body" false .null) = .ok (some bodyNull) ∧
    bodyNull.Tells .sqlite Database.ofLiterals (fun _ => .word "NULL") .yes ∧
    notes.compileFilter (membership "body" false [.null]) = .ok (some bodyAmongNull) ∧
    bodyAmongNull.Tells .sqlite Database.ofLiterals (fun _ => .word "NULL") .unknown := by
  refine ⟨rfl, fun text member => ?_, rfl, fun text member => ?_⟩
  · rcases List.mem_pair.mp member with rfl | rfl <;> exact ⟨_, rfl, rfl⟩
  · rcases List.mem_pair.mp member with rfl | rfl <;> exact ⟨_, rfl, rfl⟩

end Compiler

end EntitySchema.Sql
