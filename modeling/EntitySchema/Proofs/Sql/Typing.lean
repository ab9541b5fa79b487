import EntitySchema.Proofs.Sql.Form
import EntitySchema.Proofs.Sql.Usage
import EntitySchema.Proofs.Text.Blank

/-!
Statements are well typed. Which values a column takes depends on its category, and some operators
ask for more. Every operand of a statement stands for the parameter in its slot, and this parameter
suits the column and the operator that the statement itself names.
-/

namespace EntitySchema.Sql

open Calendar

/-- The category's columns take the value, which is not null. Unknown columns take none. -/
def Category.admits : Category → Value → Bool
  | .string, .text _ => true
  | .bool, .bool _ => true
  | .int, .int _ => true
  | .int, .uint _ => true
  | .numeric, v => v.isNumber
  | .json, .map _ => true
  | .time, .timestamp _ => true
  | .time, .text s =>
    Text.trim s == s && ((Date.parse? s).isSome || (Clock.parse? s).isSome)
  | _, _ => false

/-- The column takes the value as a parameter. -/
def Column.admits (column : Column) (v : Value) : Bool :=
  if v.isNull then column.nullable else column.category.admits v

theorem Converted.admits {column : Column} {v w : Value} (converted : Converted column v w) :
    column.admits w = true := by
  rw [Column.admits]
  cases converted with
  | null nullable => exact nullable
  | number category number =>
    rw [category]
    cases v <;> first | exact number | cases number
  | instant category read =>
    rw [category]
    rfl
  | civil category other read =>
    rw [category]
    simpa [Category.admits, Value.isNull, Text.trim_trim] using read
  | text category | bool category | int category | uint category | timestamp category
  | map category =>
    rw [category]
    rfl

theorem Column.admits_of_convert {column : Column} {v w : Value} (ok : column.convert v = .ok w) :
    column.admits w = true :=
  (converted ok).admits

def orderings : List String := ["<", "<=", ">", ">="]

/-- The value suits the column that it is bound to and the operator that binds it. -/
structure Binding.Suits (b : Binding) (column : Column) (v : Value) : Prop where
  admitted : column.admits v = true
  ordered : b.operator ∈ orderings.map some → v ≠ .null
  textual : b.operator ∈ ["LIKE", "ILIKE"].map some → column.category = .string

namespace Compiler

/-- The name is that of a column of the entity, and has no dot. -/
def Names (c : Compiler) (n : String) : Prop := n ∈ c.entity.columnNames ∧ '.' ∉ n.toList

theorem resolve_names {c : Compiler} {field : String} {column : Column}
    (ok : c.resolve field = .ok column) : c.Names field := by
  refine ⟨resolve_known ok, fun dotted => ?_⟩
  rw [resolve, if_pos (List.contains_iff_mem.mpr dotted)] at ok
  cases ok

/-- The column is the one of its name, and takes the value. -/
structure Binds (c : Compiler) (p : Column × Value) : Prop where
  resolved : c.resolve p.1.name = .ok p.1
  admitted : p.1.admits p.2 = true

theorem binds_of_bindRow {c : Compiler} {row : Record} {bound : List (Column × Value)}
    (bind : c.bindRow row = .ok bound) : ∀ p ∈ bound, c.Binds p := by
  intro p member
  obtain ⟨e, _, resolved, converted⟩ := Outcome.exists_of_mem_results (bindRow_eq_ok.mp bind) member
  rw [← (resolve_eq_ok resolved).2] at resolved
  exact ⟨resolved, Column.admits_of_convert converted⟩

theorem keys_names {c : Compiler} {row : Record} {bound : List (Column × Value)}
    (bind : c.bindRow row = .ok bound) : ∀ n ∈ row.keys, c.Names n := by
  intro n member
  rw [← names_bindRow bind] at member
  obtain ⟨p, inside, rfl⟩ := List.mem_map.mp member
  exact resolve_names (binds_of_bindRow bind p inside).resolved

end Compiler

namespace Test

/-- The values of a test suit its column. -/
def Sound : Test → Prop
  | .present _ _ => True
  | .compare column op v => column.admits v = true ∧ (op.name ∈ orderings → v ≠ .null)
  | .member column _ vs => ∀ v ∈ vs, column.admits v = true
  | .pattern column _ _ => column.category = .string

theorem sound_of_tested {column : Column} {operator : Operator} {values : List Value} {t : Test}
    (tested : Tested column operator values t) : t.Sound := by
  cases tested with
  | present isSet => trivial
  | equalsNull null => trivial
  | notEqualsNull null => trivial
  | compare set converted =>
    refine ⟨Column.admits_of_convert converted, fun _ null => ?_⟩
    -- only null becomes null, and only at a column that may be null
    cases null ▸ Column.converted converted with
    | null nullable => simp [Value.isNull, nullable] at set
    | number _ number => cases number
  | member nonempty converted =>
    intro w member
    obtain ⟨v, _, converted⟩ := Outcome.exists_of_mem_results converted member
    exact Column.admits_of_convert converted
  | pattern text => exact text

theorem column_atom (d : Dialect) (fill : Nat → Token) (index : Nat) (t : Test) :
    (t.atom d fill index).column = t.column.name := by
  cases t <;> rfl

theorem operands_atom (d : Dialect) (fill : Nat → Token) (index : Nat) (t : Test) :
    (t.atom d fill index).bindings.map Binding.operand =
      (List.range' index t.params.length).map fill := by
  cases t with
  | member column negated vs => simp [atom, Atom.bindings, params, Function.comp_def]
  | _ => rfl

theorem suits_atom (d : Dialect) (fill : Nat → Token) (index : Nat) {t : Test} (sound : t.Sound) :
    List.Forall₂ (fun b v => b.column = (t.atom d fill index).column ∧ b.Suits t.column v)
      (t.atom d fill index).bindings t.params := by
  cases t with
  | present column isSet => exact .nil
  | compare column op v =>
    have untextual : some op.name ∉ ["LIKE", "ILIKE"].map some := by cases op <;> decide
    refine .cons ⟨rfl, sound.1, fun ordering => ?_, fun wrong => absurd wrong untextual⟩ .nil
    exact sound.2 (by simpa [atom, Atom.bindings] using ordering)
  | member column negated vs =>
    have unordered : some (if negated then "NOT IN" else "IN") ∉ orderings.map some := by
      cases negated <;> decide
    have untextual : some (if negated then "NOT IN" else "IN") ∉ ["LIKE", "ILIKE"].map some := by
      cases negated <;> decide
    rw [atom, Atom.bindings, List.forall₂_map_left_iff, List.forall₂_map_left_iff]
    induction vs generalizing index with
    | nil => exact .nil
    | cons v rest ih =>
      exact .cons ⟨rfl, sound v (.head _), fun wrong => absurd wrong unordered,
        fun wrong => absurd wrong untextual⟩ (ih (index + 1) fun w member => sound w (.tail _ member))
  | pattern column negated like =>
    have unordered : some d.like ∉ orderings.map some := by cases d <;> decide
    exact .cons ⟨rfl, (Converted.text sound).admits, fun wrong => absurd wrong unordered,
      fun _ => sound⟩ .nil

end Test

/-- The statement uses columns of the entity alone, and its operands are those of the parameters in
order, each of which suits the column and the operator at which it stands. -/
structure Usage.Typed (c : Compiler) (fill : Nat → Token) (index : Nat) (u : Usage)
    (params : List Value) : Prop where
  columns : ∀ n ∈ u.columns, c.Names n
  operands : u.bindings.map Binding.operand = (List.range' index params.length).map fill
  bindings : List.Forall₂
    (fun b v => ∃ column, c.entity.column? b.column = some column ∧ b.Suits column v) u.bindings params

namespace Usage

variable {c : Compiler} {fill : Nat → Token} {index : Nat}

theorem Typed.append {u v : Usage} {first second : List Value} (one : Typed c fill index u first)
    (two : Typed c fill (index + first.length) v second) :
    Typed c fill index (u.append v) (first ++ second) where
  columns n member := by
    rcases List.mem_append.mp member with front | back
    · exact one.columns n front
    · exact two.columns n back
  operands := by
    rw [Usage.append, List.map_append, one.operands, two.operands, List.length_append, ← List.map_append,
      List.range'_append_1]
  bindings := List.rel_append one.bindings two.bindings

theorem typed_names {names : List String} (known : ∀ n ∈ names, c.Names n) :
    Typed c fill index (ofNames names) [] :=
  ⟨known, rfl, .nil⟩

theorem typed_empty : Typed c fill index empty [] :=
  typed_names fun _ member => (List.not_mem_nil member).elim

theorem typed_pairs {pairs : List (Column × Value)} (binds : ∀ p ∈ pairs, c.Binds p) :
    Typed c fill index (ofPairs (Command.pairOperands fill index pairs)) (pairs.map Prod.snd) := by
  induction pairs generalizing index with
  | nil => exact typed_empty
  | cons p rest ih =>
    have first := binds p (.head _)
    have none : ∀ words : List String, .none ∉ words.map some := by simp
    have one : Typed c fill index (ofPairs [(p.1.name, fill index)]) [p.2] := by
      refine ⟨fun n member => ?_, rfl, .cons ⟨p.1, ?_, first.admitted, ?_, ?_⟩ .nil⟩
      · rw [List.mem_singleton.mp member]
        exact Compiler.resolve_names first.resolved
      · exact Compiler.resolve_column? first.resolved
      · exact fun wrong => absurd wrong (none _)
      · exact fun wrong => absurd wrong (none _)
    exact one.append (ih fun q member => binds q (.tail _ member))

theorem zip_pairOperands (fill : Nat → Token) (index : Nat) (bound : List (Column × Value)) :
    (bound.map fun p => p.1.name).zip ((List.range' index bound.length).map fill) =
      Command.pairOperands fill index bound := by
  induction bound generalizing index with
  | nil => rfl
  | cons p rest ih => exact congrArg ((p.1.name, fill index) :: ·) (ih (index + 1))

theorem typed_tuples {columns : List String} (known : ∀ n ∈ columns, c.Names n)
    {tuples : List (List (Column × Value))}
    (named : ∀ bound ∈ tuples, bound.map (fun p => p.1.name) = columns)
    (binds : ∀ bound ∈ tuples, ∀ p ∈ bound, c.Binds p) :
    Typed c fill index (ofTuples columns (Command.tupleOperands fill index tuples))
      (tuples.flatMap (List.map Prod.snd)) := by
  induction tuples generalizing index with
  | nil => exact typed_names known
  | cons bound rest ih =>
    have zipped : columns.zip ((List.range' index bound.length).map fill) =
        Command.pairOperands fill index bound := by
      rw [← named bound (.head _), zip_pairOperands]
    rw [List.flatMap_cons, Command.tupleOperands, ofTuples, List.foldr_cons, zipped]
    refine (typed_pairs (binds bound (.head _))).append ?_
    rw [List.length_map]
    exact ih (fun b member => named b (.tail _ member)) fun b member => binds b (.tail _ member)

theorem bindings_ofAtoms (a : Atom) : (ofAtoms [a]).bindings = a.bindings :=
  List.flatMap_singleton ..

theorem ofAtoms_cons (a : Atom) (rest : List Atom) :
    ofAtoms (a :: rest) = (ofAtoms [a]).append (ofAtoms rest) := by
  simp [ofAtoms, append]

theorem typed_test {t : Test} (resolved : c.resolve t.column.name = .ok t.column) (sound : t.Sound) :
    Typed c fill index (ofAtoms [t.atom c.dialect fill index]) t.params := by
  have named := t.column_atom c.dialect fill index
  refine ⟨fun n member => ?_, ?_, ?_⟩
  · rw [List.mem_singleton.mp member, named]
    exact Compiler.resolve_names resolved
  · rw [bindings_ofAtoms, t.operands_atom]
  · rw [bindings_ofAtoms]
    refine (Test.suits_atom c.dialect fill index sound).imp fun b v given => ⟨t.column, ?_, given.2⟩
    rw [given.1, named]
    exact Compiler.resolve_column? resolved

theorem typed_tests {tests : List Test}
    (sound : ∀ t ∈ tests, c.resolve t.column.name = .ok t.column ∧ t.Sound) :
    Typed c fill index (ofTests c.dialect fill index tests) (tests.flatMap Test.params) := by
  induction tests generalizing index with
  | nil => exact typed_empty
  | cons t rest ih =>
    obtain ⟨resolved, first⟩ := sound t (.head _)
    rw [ofTests, Test.numbered, List.map_cons, ofAtoms_cons]
    exact (typed_test resolved first).append (ih fun t member => sound t (.tail _ member))

end Usage

/-! Requests. -/

/-- The names of columns in a request. -/
def Request.names : Request → List String
  | .createTable => []
  | .select fields g =>
    fields ++ (g.filter.elim [] Tree.leaves).map Condition.field ++ g.order.map OrderBy.field
  | .filter node => node.leaves.map Condition.field
  | .insert row => row.keys
  | .bulkInsert rows => rows.flatMap KeyMap.keys
  | .updateByKey row => row.keys
  | .deleteByEquality row => row.keys

namespace Compiler

open Usage

/-- Both texts of the statement are well typed. -/
structure WellTyped (c : Compiler) (s : Statement) : Prop where
  parameterized : ∃ u, ofText? s.parameterized = some u ∧
    Typed c (Statement.placeholders c.dialect) 0 u s.params
  sql : ∃ u, ofText? s.sql = some u ∧ Typed c (Statement.literals c.dialect s.params) 0 u s.params

variable {c : Compiler} {s : Statement} {is : List Item}

/-- What is so for any operands is so for placeholders and for literals. -/
theorem wellTyped_of_items (reads : s.Reads c.dialect is) (tidy : Item.Tidy false is)
    (typed : ∀ fill, IsFilling fill → ∃ u, ofTokens? (Item.tokens fill 0 is) = some u ∧
      Typed c fill 0 u (Item.params is)) : c.WellTyped s := by
  rw [← reads.params] at typed
  constructor
  · have form := reads.isForm_parameterized tidy
    obtain ⟨u, read, typed⟩ := typed _ form.operands
    exact ⟨u, by rw [ofText?, form.tokens, Option.bind_some, read], typed⟩
  · have form := reads.isForm_sql tidy
    obtain ⟨u, read, typed⟩ := typed _ form.operands
    exact ⟨u, by rw [ofText?, form.tokens, Option.bind_some, read], typed⟩

theorem tested_sound {field : String} {column : Column} {operator : Operator} {values : List Value}
    {t : Test} (resolved : c.resolve field = .ok column) (tested : Tested column operator values t) :
    c.resolve t.column.name = .ok t.column ∧ t.Sound := by
  rw [Test.column_of_tested tested, (resolve_eq_ok resolved).2]
  exact ⟨resolved, Test.sound_of_tested tested⟩

theorem condition_sound {cond : Condition} {t : Test} (ok : c.condition cond = .ok t) :
    c.resolve t.column.name = .ok t.column ∧ t.Sound := by
  obtain ⟨column, resolved, tested⟩ := condition_tested ok
  exact tested_sound resolved tested

theorem select_names {fields : List String} {g : SearchGraph} (ok : c.select fields g = .ok s) :
    (∀ f ∈ fields, c.Names f) ∧ ∀ o ∈ g.order, c.Names o.field := by
  obtain ⟨projected, sorted, _⟩ := select_eq_ok.mp ok
  constructor
  · intro f member
    obtain ⟨column, resolved⟩ := (projection_eq_ok projected).2 f member
    exact resolve_names resolved
  · intro o member
    obtain ⟨column, resolved⟩ := (orderClause_eq_ok (sorted .empty)).2 o member
    exact resolve_names resolved

theorem IsClause.exists_typed {filter : Option SearchNode} {k : Option Clause}
    (filtered : c.IsClause filter k) {fill : Nat → Token} (fills : IsFilling fill) :
    ∃ u, condition? (Item.tokens fill 0 (k.elim [] Clause.items)) = some u ∧
      Typed c fill 0 u (Item.params (k.elim [] Clause.items)) := by
  cases k with
  | none => exact ⟨empty, rfl, typed_empty⟩
  | some k =>
    cases filter with
    | none => cases filtered
    | some node =>
      obtain ⟨checked, checks, written⟩ := filtered
      refine ⟨_, condition?_clause checks written fills, ?_⟩
      rw [Option.elim_some, checks.params written]
      apply typed_tests
      intro t member
      obtain ⟨x, leaf, rfl⟩ := List.mem_map.mp member
      exact condition_sound (checks.tests x leaf)

theorem IsClause.notMem {filter : Option SearchNode} {k : Option Clause}
    (filtered : c.IsClause filter k) : ∀ w ∈ keywords, .word w ∉ k.elim [] Clause.items := by
  cases k with
  | none => exact fun w _ => List.not_mem_nil
  | some k =>
    cases filter with
    | none => cases filtered
    | some node =>
      obtain ⟨checked, _, written⟩ := filtered
      exact notMem_clause written

theorem select_typed {fields : List String} {g : SearchGraph} (ok : c.select fields g = .ok s) :
    c.WellTyped s := by
  obtain ⟨k, filtered, reads⟩ := select_reads ok
  obtain ⟨projected, sorted⟩ := select_names ok
  have composes : c.Composes (.select fields g)
      (c.selectItems fields ++ whereItems k ++ c.tailItems g) :=
    .select (fun f member => (projected f member).1) (fun o member => (sorted o member).1) filtered
  have slots : Item.params (c.selectItems fields ++ whereItems k ++ c.tailItems g) =
      [] ++ Item.params (k.elim [] Clause.items) ++ [] := by
    rw [Item.params_append, Item.params_append, (c.select_spells fields).1, c.params_tailItems]
    cases k <;> rfl
  refine wellTyped_of_items reads composes.tidy fun fill fills => ?_
  obtain ⟨u, read, typed⟩ := filtered.exists_typed fills
  refine ⟨_, ofTokens?_selectItems fills fields g filtered.notMem read, ?_⟩
  rw [slots]
  exact ((typed_names projected).append typed).append (typed_names (by simpa using sorted))

theorem compileFilter_typed {node : SearchNode} (ok : c.compileFilter node = .ok (some s)) :
    c.WellTyped s := by
  obtain ⟨k, filtered, reads⟩ := compileFilter_reads ok
  refine wellTyped_of_items reads filtered.tidy fun fill fills => ?_
  obtain ⟨u, read, typed⟩ := filtered.exists_typed fills
  refine ⟨u, ?_, typed⟩
  rw [← read]
  exact ofTokens?_condition fun w foreign => notMem_tokens fills foreign (filtered.notMem w foreign) 0

theorem bulkInsert_typed {rows : List Record} (ok : c.bulkInsert rows = .ok s) : c.WellTyped s := by
  obtain ⟨first, rest, tuples, rfl, some, checked, reads⟩ := bulkInsert_reads ok
  obtain ⟨named, nonempty, filled⟩ := insertRows_nonempty some checked
  have each := insertRows_eq_ok.mp checked
  obtain ⟨_, _, ⟨_, _, bind⟩, _⟩ := List.forall₂_cons_left_iff.mp each
  refine wellTyped_of_items reads (c.tidy_insertItems _ _) fun fill fills =>
    ⟨_, ofTokens?_insertItems fills named nonempty filled, ?_⟩
  rw [params_insertItems]
  apply typed_tuples (keys_names bind)
  · intro bound member
    obtain ⟨row, _, _, same, bind⟩ := Outcome.exists_of_mem_results each member
    rw [names_bindRow bind, same]
  · intro bound member
    obtain ⟨row, _, _, _, bind⟩ := Outcome.exists_of_mem_results each member
    exact binds_of_bindRow bind

theorem updateByKey_typed {row : Record} (ok : c.updateByKey row = .ok s) : c.WellTyped s := by
  obtain ⟨bound, _, _, bind, some, reads⟩ := updateByKey_reads ok
  have binds := binds_of_bindRow bind
  refine wellTyped_of_items reads (c.tidy_updateItems _ _) fun fill fills =>
    ⟨_, ofTokens?_updateItems fills some _, ?_⟩
  rw [params_updateItems]
  refine (typed_pairs fun p member => binds p (mem_assigned.mp member).1).append ?_
  rw [List.length_map, Nat.zero_add]
  apply typed_tests
  intro t member
  obtain ⟨p, inside, rfl⟩ := List.mem_map.mp member
  obtain ⟨resolved, admitted⟩ := binds p (mem_lookup inside).1
  exact ⟨resolved, admitted, fun wrong => absurd wrong (by decide)⟩

theorem deleteByEquality_typed {row : Record} (ok : c.deleteByEquality row = .ok s) :
    c.WellTyped s := by
  obtain ⟨tests, _, _, each, reads⟩ := deleteByEquality_reads ok
  refine wellTyped_of_items reads (c.tidy_deleteItems _) fun fill fills =>
    ⟨_, ofTokens?_deleteItems fills (listed_comparisons each), ?_⟩
  rw [params_deleteItems]
  apply typed_tests
  intro t member
  obtain ⟨e, _, column, resolved, compared⟩ := Outcome.exists_of_mem_results each member
  exact tested_sound resolved (comparison_tested compared)

theorem createTable_params (ok : c.createTable = .ok s) : s.params = [] := by
  obtain ⟨columns, _, done⟩ := Outcome.bind_eq_ok.mp ok
  rw [(Buffer.finish_eq_ok.mp done).2]
  rfl

theorem predicate?_names {node : SearchNode} {r : Option Predicate}
    (ok : c.predicate? node = .ok r) : ∀ n ∈ node.leaves.map Condition.field, c.Names n := by
  obtain ⟨checked, checks, _⟩ := predicate?_reads ok
  intro n member
  rw [checks.leaves, List.map_map] at member
  obtain ⟨x, leaf, rfl⟩ := List.mem_map.mp member
  obtain ⟨column, resolved, _⟩ := condition_tested (checks.tests x leaf)
  exact resolve_names resolved

theorem filter_names {fields : List String} {g : SearchGraph} (ok : c.select fields g = .ok s) :
    ∀ n ∈ (g.filter.elim [] Tree.leaves).map Condition.field, c.Names n := by
  obtain ⟨_, _, filtered, found, _⟩ := select_eq_ok.mp ok
  cases filter : g.filter with
  | none => exact fun n member => (List.not_mem_nil member).elim
  | some node =>
    rw [filter] at found
    obtain ⟨p, known, _⟩ := Outcome.map_eq_ok.mp found
    exact predicate?_names known

theorem bulkInsert_names {rows : List Record} (ok : c.bulkInsert rows = .ok s) :
    ∀ n ∈ rows.flatMap KeyMap.keys, c.Names n := by
  obtain ⟨first, rest, tuples, rfl, _, checked, _⟩ := bulkInsert_reads ok
  intro n member
  obtain ⟨row, inside, key⟩ := List.mem_flatMap.mp member
  obtain ⟨bound, _, _, _, bind⟩ := Outcome.exists_of_mem_sources (insertRows_eq_ok.mp checked) inside
  exact keys_names bind n key

theorem run_names {q : Request} (ok : c.run q = .ok (some s)) : ∀ n ∈ q.names, c.Names n := by
  cases q with
  | createTable => exact fun n member => (List.not_mem_nil member).elim
  | select fields g =>
    have selected := map_some_eq_ok.mp ok
    obtain ⟨projected, sorted⟩ := select_names selected
    intro n member
    rcases List.mem_append.mp member with member | ordered
    · rcases List.mem_append.mp member with listed | filtered
      · exact projected n listed
      · exact filter_names selected n filtered
    · obtain ⟨o, inside, rfl⟩ := List.mem_map.mp ordered
      exact sorted o inside
  | filter node =>
    rcases compileFilter_eq_ok.mp ok with ⟨_, wrong⟩ | ⟨p, _, found, _, _⟩
    · cases wrong
    · exact predicate?_names found
  | insert row =>
    have names := bulkInsert_names (show c.bulkInsert [row] = .ok s from map_some_eq_ok.mp ok)
    rwa [List.flatMap_singleton] at names
  | bulkInsert rows => exact bulkInsert_names (map_some_eq_ok.mp ok)
  | updateByKey row =>
    obtain ⟨bound, _, _, bind, _⟩ := updateByKey_reads (map_some_eq_ok.mp ok)
    exact keys_names bind
  | deleteByEquality row =>
    obtain ⟨tests, _, _, each, _⟩ := deleteByEquality_reads (map_some_eq_ok.mp ok)
    intro n member
    obtain ⟨e, inside, rfl⟩ := List.mem_map.mp member
    obtain ⟨t, _, column, resolved, _⟩ := Outcome.exists_of_mem_sources each inside
    exact resolve_names resolved

/-- Every statement is well typed. The names in a request are those of columns, and none has a dot.
The definition of the table binds nothing. Any other statement names columns of the entity alone, and
binds its parameters in order, each to a column that takes it: null only to one that may be null and
by no operator that orders values, and a pattern only to a column of text. -/
theorem run_well_typed (c : Compiler) (q : Request) (s : Statement) (ok : c.run q = .ok (some s)) :
    (∀ n ∈ q.names, c.Names n) ∧ (q = .createTable → s.params = []) ∧
      (q ≠ .createTable → c.WellTyped s) := by
  refine ⟨run_names ok, fun same => ?_, fun other => ?_⟩
  · subst same
    exact createTable_params (map_some_eq_ok.mp ok)
  · cases q with
    | createTable => exact absurd rfl other
    | select fields g => exact select_typed (map_some_eq_ok.mp ok)
    | filter node => exact compileFilter_typed ok
    | insert row => exact bulkInsert_typed (map_some_eq_ok.mp ok)
    | bulkInsert rows => exact bulkInsert_typed (map_some_eq_ok.mp ok)
    | updateByKey row => exact updateByKey_typed (map_some_eq_ok.mp ok)
    | deleteByEquality row => exact deleteByEquality_typed (map_some_eq_ok.mp ok)

unseal Text.Numeral.digits in
theorem run_well_typed_note :
    notes.run (.updateByKey (note "it's")) = .ok (some (noteUpdate "it's" "'it''s'")) ∧
    Usage.ofText? (noteUpdate "it's" "'it''s'").sql = some ⟨["body", "id", "tenant"],
      [⟨"body", none, .text "it's"⟩, ⟨"id", some "=", .text "a"⟩, ⟨"tenant", some "=", .text "t"⟩]⟩ ∧
    notes.WellTyped (noteUpdate "it's" "'it''s'") :=
  ⟨rfl, rfl, (run_well_typed notes (.updateByKey (note "it's")) _ rfl).2.2 (by nofun)⟩

end Compiler

end EntitySchema.Sql
