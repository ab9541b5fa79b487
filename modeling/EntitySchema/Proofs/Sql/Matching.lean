import EntitySchema.Proofs.Sql.Conjunction
import EntitySchema.Proofs.Sql.Database
import EntitySchema.Proofs.Sql.Form

/-!
What a compiled filter says of a row. A value is the same in a database whether it is bound or
written as a literal, so both texts of a statement have one truth at a row. It is the truth of the
filter's tests, each on its own, in the tree of the filter without its empty groups.
-/

namespace EntitySchema.Sql

open Formula

variable {α : Type}

/-- The comparison for equality, or for its opposite. -/
def Comparison.equality (negated : Bool) : Comparison := if negated then .notEquals else .equals

/-- The text that stands behind `ESCAPE` in a pattern test. -/
def Dialect.escape? : Dialect → Option String
  | .postgres => none
  | .sqlite => some "\\"

namespace Database

/-- A value in the database. -/
def value (db : Database α) (d : Dialect) (v : Value) : α := db.read (d.literalToken v)

/-- Whether a value equals one of these. -/
def among (db : Database α) (x : α) (ys : List α) : Truth := (ys.map (db.equal x)).foldr Truth.or .no

/-- The database while a statement runs that has these parameters. -/
def supply (db : Database α) (d : Dialect) (params : List Value) : Database α :=
  { db with
    read := fun
      | .placeholder _ index => db.value d (params.getD (index - 1) .null)
      | x => db.read x }

theorem supply_placeholders (db : Database α) (d : Dialect) (params : List Value) (index : Nat) :
    (db.supply d params).read (Statement.placeholders d index) =
      db.value d (params.getD index .null) :=
  rfl

theorem supply_literals (db : Database α) (d : Dialect) (params : List Value) (index : Nat) :
    (db.supply d params).read (Statement.literals d params index) =
      db.value d (params.getD index .null) := by
  rw [Statement.literals]
  generalize params.getD index .null = v
  cases v with
  | bool b => cases d <;> rfl
  | _ => rfl

/-- Null is null, and it is unknown whether it equals anything. -/
structure KnowsNull (db : Database α) (d : Dialect) : Prop where
  null : db.isNull (db.value d .null) = true
  equal : ∀ x y, db.isNull x = true ∨ db.isNull y = true → db.equal x y = .unknown

/-- A database of literals, which equal themselves alone. Texts are not matched in it. -/
def ofLiterals : Database Token where
  isNull x := x = .word "NULL"
  read := id
  equal x y :=
    if x = .word "NULL" ∨ y = .word "NULL" then .unknown else if x = y then .yes else .no
  order _ _ _ := .unknown
  pattern _ _ _ _ := .unknown

theorem knowsNull_ofLiterals (d : Dialect) : ofLiterals.KnowsNull d where
  null := rfl
  equal x y null := by
    rw [ofLiterals, decide_eq_true_iff, decide_eq_true_iff] at null
    exact if_pos null

end Database

namespace Statement

/-- Both texts of the statement are predicates with this truth at the row. -/
def Tells (d : Dialect) (s : Statement) (db : Database α) (row : Row α) (truth : Truth) : Prop :=
  ∀ text ∈ [s.parameterized, s.sql], ∃ f, (Token.tokens? text).bind parse? = some f ∧
    f.truth (db.supply d s.params) row = truth

/-- Both texts are those of the items, with operands in the slots that are read as the
parameters. -/
theorem Reads.supplied {d : Dialect} {s : Statement} {is : List Item} (reads : s.Reads d is)
    (tidy : Item.Tidy false is) {text : String} (member : text ∈ [s.parameterized, s.sql]) :
    ∃ fill, s.IsForm d is text fill ∧ ∀ (α : Type) (db : Database α) (index : Nat) (v : Value),
      s.params[index]? = some v → (db.supply d s.params).read (fill index) = db.value d v := by
  have slot {index : Nat} {v : Value} (found : s.params[index]? = some v) :
      s.params.getD index .null = v := by
    rw [List.getD_eq_getElem?_getD, found, Option.getD_some]
  rw [List.mem_pair] at member
  rcases member with rfl | rfl
  · refine ⟨_, reads.isForm_parameterized tidy, fun α db index v found => ?_⟩
    rw [Database.supply_placeholders, slot found]
  · refine ⟨_, reads.isForm_sql tidy, fun α db index v found => ?_⟩
    rw [Database.supply_literals, slot found]

end Statement

namespace Test

/-- The truth of a test on its own. -/
def truthAt (d : Dialect) (db : Database α) (row : Row α) : Test → Truth
  | .present column isSet => if db.isNull (row column.name) = isSet then .no else .yes
  | .compare column op v =>
    match op with
    | .equals => db.equal (row column.name) (db.value d v)
    | .notEquals => (db.equal (row column.name) (db.value d v)).not
    | _ => db.order op.name (row column.name) (db.value d v)
  | .member column negated vs =>
    let found := db.among (row column.name) (vs.map (db.value d))
    if negated then found.not else found
  | .pattern column negated like =>
    let found := db.pattern d.like d.escape? (row column.name) (db.value d (.text like))
    if negated then found.not else found

/-- The test whether a column equals a converted value, or does not; null asks for presence. -/
def equality (column : Column) (negated : Bool) (w : Value) : Test :=
  if w.isNull then .present column negated else .compare column (.equality negated) w

theorem truthAt_equals {d : Dialect} {db : Database α} {row : Row α} {column : Column} {w : Value} :
    (equality column false w).truthAt d db row = .yes ↔
      if w.isNull then db.isNull (row column.name) = true
      else db.equal (row column.name) (db.value d w) = .yes := by
  rw [equality]
  split
  · rw [truthAt]
    cases db.isNull (row column.name) <;> decide
  · rfl

theorem map_slots {read : Token → α} {value : Value → α} {fill : Nat → Token} {index : Nat}
    {vs : List Value} (slots : ∀ k v, vs[k]? = some v → read (fill (index + k)) = value v) :
    ((List.range' index vs.length).map fill).map read = vs.map value := by
  induction vs generalizing index with
  | nil => rfl
  | cons v rest ih =>
    have first := slots 0 v rfl
    have later : ∀ k v, rest[k]? = some v → read (fill (index + 1 + k)) = value v := by
      intro k v slot
      rw [Nat.add_assoc, Nat.add_comm 1]
      exact slots (k + 1) v slot
    rw [Nat.add_zero] at first
    rw [List.length_cons, List.range'_succ, List.map_cons, List.map_cons, List.map_cons, ih later,
      first]

/-- An atom has the truth of its test, wherever its slots are. -/
theorem truth_atom (d : Dialect) (db : Database α) (row : Row α) (t : Test) {params : List Value}
    {fill : Nat → Token} {index : Nat} (slots : ∀ k v, t.params[k]? = some v →
      (db.supply d params).read (fill (index + k)) = db.value d v) :
    (t.atom d fill index).truth (db.supply d params) row = t.outcome (t.truthAt d db row) := by
  cases t with
  | present column isSet => rfl
  | compare column op v =>
    have operand := slots 0 v rfl
    rw [Nat.add_zero] at operand
    rw [atom, Atom.truth, operand]
    cases op <;> rfl
  | member column negated vs =>
    have operands := congrArg (List.map (db.equal (row column.name))) (map_slots slots)
    rw [List.map_map] at operands
    exact congrArg (fun truths : List Truth =>
      if negated then (truths.foldr Truth.or .no).not else truths.foldr Truth.or .no) operands
  | pattern column negated like =>
    have operand := slots 0 (.text like) rfl
    rw [Nat.add_zero] at operand
    have found : (atom d fill index (.pattern column negated like)).truth (db.supply d params) row =
        db.pattern d.like d.escape? (row column.name) (db.value d (.text like)) := by
      rw [← operand]
      cases d <;> rfl
    rw [found, outcome, truthAt]
    cases negated with
    | false => rfl
    | true => exact (Truth.not_not _).symm

theorem truth_numbered (d : Dialect) (db : Database α) (row : Row α) {params : List Value}
    {fill : Nat → Token} {tests : List Test}
    (slots : ∀ k v, (tests.flatMap Test.params)[k]? = some v →
      (db.supply d params).read (fill k) = db.value d v) :
    ∀ x ∈ numbered 0 tests, (x.2.atom d fill x.1).truth (db.supply d params) row =
      x.2.outcome (x.2.truthAt d db row) :=
  fun x member => x.2.truth_atom d db row fun k v slot =>
    slots _ v (slots_numbered [] tests x member k v slot)

/-- The formulas of tests have the truth of the tests. -/
theorem value_numbered (d : Dialect) (db : Database α) (row : Row α) {params : List Value}
    {fill : Nat → Token} {tests : List Test}
    (slots : ∀ k v, (tests.flatMap Test.params)[k]? = some v →
      (db.supply d params).read (fill k) = db.value d v) :
    ∀ x ∈ numbered 0 tests,
      ((reading d fill x).map (Atom.truth (db.supply d params) row)).value =
        x.2.truthAt d db row := by
  intro x member
  rw [value_reading, truth, truth_numbered d db row slots x member]
  unfold outcome
  split
  · exact Truth.not_not _
  · rfl

theorem atoms_map (d : Dialect) (fill : Nat → Token) (truth : Test → Truth) (index : Nat)
    (tests : List Test) : atoms d fill index (tests.map fun t => (t, truth t)) =
      (numbered index tests).map fun x => (x.2.atom d fill x.1, x.2.outcome (truth x.2)) := by
  induction tests generalizing index with
  | nil => rfl
  | cons t rest ih => rw [List.map_cons, atoms, ih, numbered, List.map_cons]

end Test

/-- A conjunction of tests is true of the rows of which all tests are. -/
theorem truth_tests {d : Dialect} {db : Database α} {row : Row α} {params : List Value}
    {fill : Nat → Token} {tests : List Test} {f : Formula Atom}
    (read : conjunction? ((Test.numbered 0 tests).map (Test.reading d fill)) = some f)
    (slots : ∀ k v, (tests.flatMap Test.params)[k]? = some v →
      (db.supply d params).read (fill k) = db.value d v) :
    f.truth (db.supply d params) row = .yes ↔ ∀ t ∈ tests, t.truthAt d db row = .yes := by
  have values : (Test.numbered 0 tests).map (fun x =>
      ((Test.reading d fill x).map (Atom.truth (db.supply d params) row)).value) =
      tests.map fun t => t.truthAt d db row := by
    rw [List.map_congr_left (Test.value_numbered d db row slots),
      ← congrArg (List.map _) (Test.map_numbered 0 tests), List.map_map]
    rfl
  have whole : f.truth (db.supply d params) row =
      (tests.map fun t => t.truthAt d db row).foldr Truth.and .yes := by
    rw [Formula.truth, value_conjunction? read, ← values, List.map_map]
    rfl
  rw [whole, Truth.all_yes, List.forall_mem_map]

/-- The truth of what is left of a tree, which is true where nothing is left. -/
def Tree.told (t : Tree Truth) : Truth := (t.pruned.map value).getD .yes

namespace Compiler

/-- Comparing for equality takes the values that the column takes. -/
theorem comparison_equality {column : Column} {negated : Bool} {v : Value} {t : Test} :
    comparison column (.equality negated) v = .ok t ↔
      ∃ w, column.convert v = .ok w ∧ Test.equality column negated w = t := by
  unfold comparison
  split
  · next null =>
    rw [Bool.and_eq_true] at null
    obtain rfl := eq_null_of_isNull null.1
    have converted : column.convert .null = .ok .null := (Converted.null null.2).convert
    cases negated <;> simp [Comparison.equality, Test.equality, converted, Value.isNull]
  · next set =>
    rw [Outcome.map_eq_ok]
    refine exists_congr fun w => and_congr_right fun converted => ?_
    have present : w.isNull = false := by
      rw [Column.convert_isNull converted, Bool.eq_false_iff]
      intro null
      rw [null, Bool.true_and, Bool.not_eq_true] at set
      rw [(Column.convert_set set converted).1] at null
      cases null
    rw [Test.equality, present]
    rfl

variable {c : Compiler} {node : SearchNode} {r : Option Statement}

/-- What a compiled filter says of a row. Without a statement, it matches every row. -/
def Tells (c : Compiler) (r : Option Statement) (db : Database α) (row : Row α) (truth : Truth) :
    Prop :=
  match r with
  | none => truth = .yes
  | some s => s.Tells c.dialect db row truth

theorem Checks.tells {checked : Tree (Condition × Test)} (checks : c.Checks node checked)
    {k : Clause} (written : c.clause? checked = some k) {s : Statement}
    (reads : s.Reads c.dialect k.items) (db : Database α) (row : Row α) :
    s.Tells c.dialect db row (checked.map fun x => x.2.truthAt c.dialect db row).told := by
  intro text member
  obtain ⟨fill, form, slots⟩ := reads.supplied (Tree.tidy_clause written) member
  have same : (checked.map fun x => (x.1, x.2.truthAt c.dialect db row)).map Prod.fst = node := by
    rw [Tree.map_map, ← checks.conditions]
    rfl
  obtain ⟨g, parsed, atoms, value⟩ := checks.whole written same form.operands
  refine ⟨g.map Prod.fst, by rw [form.tokens, Option.bind_some, parsed], ?_⟩
  have tests : (checked.leaves.map Prod.snd).zip
      ((checked.map fun x => (x.1, x.2.truthAt c.dialect db row)).leaves.map Prod.snd) =
      (checked.leaves.map Prod.snd).map fun t => (t, t.truthAt c.dialect db row) := by
    rw [Tree.leaves_map, List.map_map, List.map_map, List.zip_map']
    rfl
  rw [tests] at atoms
  have each : ∀ x ∈ g.atoms, x.2 = x.1.truth (db.supply c.dialect s.params) row := by
    rw [atoms, Test.atoms_map, List.forall_mem_map]
    refine fun x member => (Test.truth_numbered c.dialect db row (fun k v slot => ?_) x member).symm
    apply slots
    rw [reads.params, checks.params written]
    exact slot
  rw [Formula.truth, ← Formula.map_of_atoms each]
  rw [Tree.map_map] at value
  rw [Tree.told]
  exact (congrArg (fun t => Option.getD t Truth.yes) value).symm

/-- The tests of a filter are determined. -/
theorem Checks.unique {first second : Tree (Condition × Test)} (one : c.Checks node first)
    (two : c.Checks node second) : first = second := by
  obtain ⟨pairs, rfl, rfl, conditions⟩ :=
    Tree.exists_zip first second (one.conditions.trans two.conditions.symm)
  refine Tree.map_congr pairs fun x leaf => ?_
  have inside {f : (Condition × Test) × (Condition × Test) → Condition × Test} :
      f x ∈ (pairs.map f).leaves := by
    rw [Tree.leaves_map]
    exact List.mem_map_of_mem leaf
  have left := one.tests x.1 inside
  rw [conditions x leaf, two.tests x.2 inside, Except.ok.injEq] at left
  exact Prod.ext (conditions x leaf) left.symm

theorem compileFilter_tells {checked : Tree (Condition × Test)} (checks : c.Checks node checked)
    (ok : c.compileFilter node = .ok r) (db : Database α) (row : Row α) :
    c.Tells r db row (checked.map fun x => x.2.truthAt c.dialect db row).told := by
  obtain ⟨other, same, outcome⟩ := compileFilter_checks ok
  rw [checks.unique same]
  rcases outcome with ⟨_, written, rfl⟩ | ⟨p, k, s, _, written, reads, finished, rfl⟩
  · have none := (Tree.pruned_eq_none_iff other).mpr (by
      rw [← List.map_eq_nil_iff, ← same.leaves]
      exact same.clause_eq_none.mp written)
    rw [Tells, Tree.told, Tree.pruned_map, none]
    rfl
  · exact same.tells written (.ofBuffer reads finished) db row

/-! Which filters are accepted. -/

/-- The condition is accepted, and the values of its test have literals. -/
def Accepts (c : Compiler) (cond : Condition) : Prop :=
  ∃ t, c.condition cond = .ok t ∧ ∀ v ∈ t.params, ∃ literal, c.dialect.literal v = .ok literal

theorem exists_predicate? (each : ∀ cond ∈ node.leaves, ∃ t, c.condition cond = .ok t) :
    ∃ p, c.predicate? node = .ok p := by
  induction node using Tree.inductionOn with
  | leaf cond =>
    obtain ⟨t, ok⟩ := each cond (.head _)
    exact ⟨_, Outcome.map_eq_ok.mpr ⟨t, ok, rfl⟩⟩
  | group k children ih =>
    have parts : ∀ child ∈ children, ∃ r, c.predicate? child = .ok r := by
      intro child member
      refine ih child member fun cond leaf => each cond ?_
      rw [Tree.leaves_group]
      exact List.mem_flatMap.mpr ⟨child, member, leaf⟩
    obtain ⟨rs, members⟩ := Outcome.exists_results parts
    rw [predicate?_group]
    exact ⟨_, Outcome.map_eq_ok.mpr ⟨_, predicates_eq_ok.mpr ⟨rs, members, rfl⟩, rfl⟩⟩

/-- A filter is accepted if each of its conditions is. -/
theorem exists_compileFilter_iff :
    (∃ r, c.compileFilter node = .ok r) ↔ ∀ cond ∈ node.leaves, c.Accepts cond := by
  constructor
  · intro given cond leaf
    obtain ⟨r, ok⟩ := given
    obtain ⟨checked, checks, outcome⟩ := compileFilter_checks ok
    rw [checks.leaves] at leaf
    obtain ⟨x, inside, rfl⟩ := List.mem_map.mp leaf
    refine ⟨x.2, checks.tests x inside, fun v member => ?_⟩
    rcases outcome with ⟨_, written, rfl⟩ | ⟨p, k, s, _, written, reads, finished, rfl⟩
    · have none := checks.clause_eq_none.mp written
      rw [checks.leaves, List.map_eq_nil_iff] at none
      rw [none] at inside
      cases inside
    · have both : s.Reads c.dialect k.items := .ofBuffer reads finished
      apply both.rendered
      rw [both.params, checks.params written]
      exact List.mem_flatMap.mpr ⟨x.2, List.mem_map_of_mem inside, member⟩
  · intro each
    obtain ⟨p, ok⟩ := exists_predicate? fun cond leaf => (each cond leaf).imp fun t both => both.1
    cases p with
    | none => exact ⟨none, compileFilter_eq_ok.mpr (.inl ⟨ok, rfl⟩)⟩
    | some p =>
      obtain ⟨checked, checks, reads⟩ := predicate?_reads ok
      generalize written : c.clause? checked = k at reads
      cases reads with
      | some same =>
        have rendered : ∀ v ∈ p.buffer.params.toList,
            ∃ literal, c.dialect.literal v = .ok literal := by
          intro v member
          rw [same.buffer.params, checks.params written] at member
          obtain ⟨t, inside, slot⟩ := List.mem_flatMap.mp member
          obtain ⟨x, leaf, rfl⟩ := List.mem_map.mp inside
          obtain ⟨t, ok, literals⟩ := each x.1 (checks.leaves ▸ List.mem_map_of_mem leaf)
          rw [checks.tests x leaf, Except.ok.injEq] at ok
          exact literals v (ok ▸ slot)
        exact ⟨_, compileFilter_eq_ok.mpr
          (.inr ⟨p, _, ok, Buffer.finish_eq_ok.mpr ⟨rendered, rfl⟩, rfl⟩)⟩

/-! Filters of one condition. -/

theorem exists_leaf_iff {cond : Condition} :
    (∃ s, c.compileFilter (.leaf cond) = .ok (some s)) ↔ c.Accepts cond := by
  have all : (∃ r, c.compileFilter (.leaf cond) = .ok r) ↔ c.Accepts cond := by
    rw [exists_compileFilter_iff, Tree.leaves_leaf, List.forall_mem_singleton]
  rw [← all]
  constructor
  · intro given
    obtain ⟨s, ok⟩ := given
    exact ⟨some s, ok⟩
  · intro given
    obtain ⟨r, ok⟩ := given
    cases r with
    | none => cases (compileFilter_eq_none ok).mp rfl
    | some s => exact ⟨s, ok⟩

/-- A filter of one condition binds the values of its test and has its truth. -/
theorem leaf_tells {cond : Condition} {s : Statement} {t : Test} (tested : c.condition cond = .ok t)
    (ok : c.compileFilter (.leaf cond) = .ok (some s)) :
    s.params = t.params ∧ ∀ (α : Type) (db : Database α) (row : Row α),
      s.Tells c.dialect db row (t.truthAt c.dialect db row) := by
  have checks : c.Checks (.leaf cond) (.leaf (cond, t)) := ⟨rfl, by simpa using tested⟩
  refine ⟨?_, fun α db row => compileFilter_tells checks ok db row⟩
  obtain ⟨other, same, outcome⟩ := compileFilter_checks ok
  rcases outcome with ⟨_, _, wrong⟩ | ⟨p, k, _, _, written, reads, finished, this⟩
  · cases wrong
  · cases this
    rw [same.unique checks] at written
    rw [(Statement.Reads.ofBuffer reads finished).params, checks.params written]
    exact List.append_nil _

end Compiler

end EntitySchema.Sql
