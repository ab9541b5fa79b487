import EntitySchema.Proofs.Outcome
import EntitySchema.Sql.Compiler

/-!
What the compiler has checked when it goes on: names stand for columns of the entity, and values have
been converted for the column that they are compared with.
-/

namespace EntitySchema.Sql

open Calendar

/-- What becomes of a value at a column. -/
inductive Converted (column : Column) : Value → Value → Prop where
  | null (nullable : column.nullable = true) : Converted column .null .null
  | text {s : String} (category : column.category = .string) : Converted column (.text s) (.text s)
  | bool {b : Bool} (category : column.category = .bool) : Converted column (.bool b) (.bool b)
  | int {i : Int64} (category : column.category = .int) : Converted column (.int i) (.int i)
  | uint {u : UInt64} (category : column.category = .int) : Converted column (.uint u) (.uint u)
  | number {v : Value} (category : column.category = .numeric) (number : v.isNumber = true) :
    Converted column v v
  | timestamp {t : Timestamp} (category : column.category = .time) :
    Converted column (.timestamp t) (.timestamp t)
  | map {entries : KeyMap Value} (category : column.category = .json) :
    Converted column (.map entries) (.map entries)
  | instant {s : String} {t : Timestamp} (category : column.category = .time)
    (read : Timestamp.parse? (Text.trim s) = some t) : Converted column (.text s) (.timestamp t)
  | civil {s : String} (category : column.category = .time)
    (other : Timestamp.parse? (Text.trim s) = none)
    (read : ((Date.parse? (Text.trim s)).isSome || (Clock.parse? (Text.trim s)).isSome) = true) :
    Converted column (.text s) (.text (Text.trim s))

theorem Column.converted {column : Column} {v w : Value} (ok : column.convert v = .ok w) :
    Converted column v w := by
  unfold convert at ok
  dsimp only at ok
  split at ok
  · split at ok
    · next nullable =>
      cases ok
      exact .null nullable
    · cases ok
  · next category =>
    cases ok
    exact .text category
  · next category =>
    cases ok
    exact .bool category
  · next category =>
    cases ok
    exact .int category
  · next category =>
    cases ok
    exact .uint category
  · next category _ =>
    split at ok
    · next number =>
      cases ok
      exact .number category number
    · cases ok
  · next category =>
    cases ok
    exact .timestamp category
  · next category =>
    cases ok
    exact .map category
  · next category =>
    split at ok
    · next read =>
      cases ok
      exact .instant category read
    · next other =>
      split at ok
      · next read =>
        cases ok
        exact .civil category other read
      · cases ok
  · cases ok

theorem Converted.convert {column : Column} {v w : Value} (given : Converted column v w) :
    column.convert v = .ok w := by
  unfold Column.convert
  cases given with
  | null nullable => exact if_pos nullable
  | number category number =>
    rw [category]
    cases v <;> first | rfl | cases number
  | instant category read =>
    rw [category]
    dsimp only
    rw [read]
  | civil category other read =>
    rw [category]
    dsimp only
    rw [other, if_pos read]
  | text category | bool category | int category | uint category | timestamp category
  | map category => rw [category]

theorem eq_null_of_isNull {v : Value} (null : v.isNull = true) : v = .null := by
  cases v <;> first | rfl | cases null

theorem Column.convert_isNull {column : Column} {v w : Value} (ok : column.convert v = .ok w) :
    w.isNull = v.isNull := by
  cases converted ok <;> rfl

/-- A column that does not take null neither takes one nor makes one. -/
theorem Column.convert_set {column : Column} {v w : Value} (set : column.nullable = false)
    (ok : column.convert v = .ok w) : v.isNull = false ∧ w.isNull = false := by
  rw [convert_isNull ok, and_self]
  cases converted ok with
  | null nullable =>
    rw [set] at nullable
    cases nullable
  | number _ number => cases v <;> first | rfl | cases number
  | _ => rfl

/-- What becomes of an operator and its values at a column. -/
inductive Tested (column : Column) : Operator → List Value → Test → Prop where
  | present (isSet : Bool) : Tested column (.present isSet) [] (.present column isSet)
  | equalsNull {v : Value} (null : (v.isNull && column.nullable) = true) :
    Tested column (.compare .equals) [v] (.present column false)
  | notEqualsNull {v : Value} (null : (v.isNull && column.nullable) = true) :
    Tested column (.compare .notEquals) [v] (.present column true)
  | compare {op : Comparison} {v w : Value} (set : (v.isNull && column.nullable) = false)
    (converted : column.convert v = .ok w) : Tested column (.compare op) [v] (.compare column op w)
  | member {negated : Bool} {vs ws : List Value} (nonempty : vs ≠ [])
    (converted : List.Forall₂ (fun v w => column.convert v = .ok w) vs ws) :
    Tested column (.member negated) vs (.member column negated ws)
  | pattern {place : Place} {negated : Bool} {s : String} (text : column.category = .string) :
    Tested column (.pattern place negated) [.text s]
      (.pattern column negated (likePattern place s))

namespace Compiler

theorem resolve_column? {c : Compiler} {field : String} {column : Column}
    (ok : c.resolve field = .ok column) : c.entity.column? field = some column := by
  rw [resolve] at ok
  split at ok
  · cases ok
  · split at ok
    · next found =>
      cases ok
      exact found
    · cases ok

theorem resolve_eq_ok {c : Compiler} {field : String} {column : Column}
    (ok : c.resolve field = .ok column) : column ∈ c.entity.columns ∧ column.name = field := by
  have found := resolve_column? ok
  exact ⟨List.mem_of_find?_eq_some found, by simpa using List.find?_some found⟩

theorem resolve_known {c : Compiler} {field : String} {column : Column}
    (ok : c.resolve field = .ok column) : field ∈ c.entity.columnNames := by
  obtain ⟨member, rfl⟩ := resolve_eq_ok ok
  exact List.mem_map_of_mem member

/-- A row that is accepted has a column and a converted value for every entry. -/
theorem bindRow_eq_ok {c : Compiler} {row : Record} {bound : List (Column × Value)} :
    c.bindRow row = .ok bound ↔ List.Forall₂
      (fun e b => c.resolve e.1 = .ok b.1 ∧ b.1.convert e.2 = .ok b.2) row.entries bound := by
  rw [bindRow, Outcome.mapM_eq_ok]
  have step (e : String × Value) (b : Column × Value) :
      (do
        let column ← c.resolve e.1
        let value ← column.convert e.2
        .ok (column, value)) = (.ok b : Except SqlError (Column × Value)) ↔
      c.resolve e.1 = .ok b.1 ∧ b.1.convert e.2 = .ok b.2 := by
    simp only [Outcome.bind_eq_ok]
    constructor
    · intro given
      obtain ⟨column, resolved, value, converted, same⟩ := given
      cases same
      exact ⟨resolved, converted⟩
    · intro given
      obtain ⟨resolved, converted⟩ := given
      exact ⟨b.1, resolved, b.2, converted, rfl⟩
  simp only [step]

theorem names_bindRow {c : Compiler} {row : Record} {bound : List (Column × Value)}
    (bind : c.bindRow row = .ok bound) : bound.map (fun p => p.1.name) = row.keys := by
  rw [bindRow_eq_ok] at bind
  rw [KeyMap.keys]
  generalize row.entries = entries at bind
  induction bind with
  | nil => rfl
  | cons first others ih => rw [List.map_cons, List.map_cons, ih, (resolve_eq_ok first.1).2]

/-- Where a row has a key, the first value that is bound to its column is its own. -/
theorem find_bound {c : Compiler} {row : Record} {bound : List (Column × Value)}
    (bind : c.bindRow row = .ok bound) {key : String} {u : Value} (found : row.get? key = some u) :
    ∃ b, bound.find? (fun b => b.1.name == key) = some b ∧ c.resolve key = .ok b.1 ∧
      b.1.convert u = .ok b.2 := by
  rw [bindRow_eq_ok] at bind
  unfold KeyMap.get? at found
  generalize row.entries = entries at bind found
  induction bind with
  | nil => cases found
  | @cons e b rest others first _ ih =>
    obtain ⟨k, v⟩ := e
    have name : b.1.name = k := (resolve_eq_ok first.1).2
    rw [List.lookup_cons] at found
    by_cases same : key = k
    · subst same
      rw [beq_self_eq_true, Option.some.injEq] at found
      subst found
      exact ⟨b, List.find?_cons_of_pos (beq_iff_eq.mpr name), first⟩
    · rw [beq_false_of_ne same] at found
      rw [List.find?_cons_of_neg (by simpa [name] using Ne.symm same)]
      exact ih found

theorem requireTenant_eq_ok {c : Compiler} {row : Record} {tenant : String}
    (keyed : c.entity.tenantKey = some tenant) :
    c.requireTenant row = .ok () ↔ ∃ u, row.get? tenant = some u := by
  rw [requireTenant, keyed]
  unfold KeyMap.contains
  cases found : row.get? tenant <;> simp [found]

theorem requirePrimaryKeys_eq_ok {c : Compiler} {row : Record} :
    c.requirePrimaryKeys row = .ok () ↔
      ∀ key ∈ c.entity.primaryKeys, ∃ u, row.get? key = some u := by
  have present (key : String) : row.contains key = true ↔ ∃ u, row.get? key = some u := by
    rw [KeyMap.contains, Option.isSome_iff_exists]
  simp only [← present]
  rw [requirePrimaryKeys]
  cases missing : c.entity.primaryKeys.find? (fun key => !row.contains key) with
  | none => simpa using missing
  | some key =>
    have absent := List.find?_some missing
    simp only [reduceCtorEq, false_iff]
    intro all
    rw [all key (List.mem_of_find?_eq_some missing)] at absent
    cases absent

theorem insertRow_eq_ok {c : Compiler} {columns : List String} {index : Nat} {row : Record}
    {bound : List (Column × Value)} :
    c.insertRow columns index row = .ok bound ↔
      c.requireTenant row = .ok () ∧ row.keys = columns ∧ c.bindRow row = .ok bound := by
  simp only [insertRow, Outcome.bind_eq_ok]
  constructor
  · intro given
    obtain ⟨_, tenant, rest⟩ := given
    split at rest
    · cases rest
    · next same => exact ⟨tenant, not_not.mp same, rest⟩
  · intro given
    obtain ⟨tenant, same, bind⟩ := given
    exact ⟨(), tenant, by rw [if_neg (not_not.mpr same), bind]⟩

theorem insertRows_eq_ok {c : Compiler} {columns : List String} {index : Nat} {rows : List Record}
    {tuples : List (List (Column × Value))} :
    c.insertRows columns index rows = .ok tuples ↔ List.Forall₂
      (fun row bound => c.requireTenant row = .ok () ∧ row.keys = columns ∧
        c.bindRow row = .ok bound) rows tuples := by
  induction rows generalizing index tuples with
  | nil =>
    rw [insertRows, List.forall₂_nil_left_iff, Except.ok.injEq]
    exact eq_comm
  | cons row rest ih =>
    simp only [insertRows, Outcome.bind_eq_ok, insertRow_eq_ok, ih, List.forall₂_cons_left_iff]
    constructor
    · intro given
      obtain ⟨bound, first, others, later, same⟩ := given
      cases same
      exact ⟨bound, others, first, later, rfl⟩
    · intro given
      obtain ⟨bound, others, first, later, rfl⟩ := given
      exact ⟨bound, first, others, later, rfl⟩

/-- Rows with the columns of a row that has any are neither none nor empty. -/
theorem insertRows_nonempty {c : Compiler} {first : Record} {rest : List Record}
    {tuples : List (List (Column × Value))} (some : first.isEmpty = false)
    (checked : c.insertRows first.keys 0 (first :: rest) = .ok tuples) :
    first.keys ≠ [] ∧ tuples ≠ [] ∧ ∀ bound ∈ tuples, bound ≠ [] := by
  have each := insertRows_eq_ok.mp checked
  have named : first.keys ≠ [] := by
    intro none
    rw [KeyMap.keys, List.map_eq_nil_iff] at none
    rw [KeyMap.isEmpty, none] at some
    cases some
  refine ⟨named, ?_, ?_⟩
  · intro none
    rw [none] at each
    cases each
  · intro bound member none
    obtain ⟨row, _, _, keys, bind⟩ := Outcome.exists_of_mem_results each member
    rw [none, bindRow_eq_ok, List.forall₂_nil_right_iff] at bind
    rw [← keys, KeyMap.keys, bind] at named
    exact named rfl

theorem comparison_tested {column : Column} {op : Comparison} {v : Value} {t : Test}
    (ok : comparison column op v = .ok t) : Tested column (.compare op) [v] t := by
  unfold comparison at ok
  split at ok
  · next null =>
    cases op with
    | equals =>
      cases ok
      exact .equalsNull null
    | notEquals =>
      cases ok
      exact .notEqualsNull null
    | _ => cases ok
  · next set =>
    obtain ⟨w, converted, rfl⟩ := Outcome.map_eq_ok.mp ok
    exact .compare (Bool.eq_false_iff.mpr set) converted

theorem comparison_of_set {column : Column} {op : Comparison} {v w : Value}
    (set : (v.isNull && column.nullable) = false) (converted : column.convert v = .ok w) :
    comparison column op v = .ok (.compare column op w) := by
  unfold comparison
  rw [set, if_neg Bool.false_ne_true, converted]
  rfl

theorem patternTest_tested {column : Column} {place : Place} {negated : Bool} {v : Value} {t : Test}
    (ok : patternTest column place negated v = .ok t) :
    Tested column (.pattern place negated) [v] t := by
  unfold patternTest at ok
  split at ok
  · cases ok
  · next text =>
    cases v with
    | text s =>
      cases ok
      exact .pattern (not_not.mp text)
    | _ => cases ok

/-- A condition that is accepted names a column, at which its operator and values are tested. -/
theorem condition_tested {c : Compiler} {cond : Condition} {t : Test}
    (ok : c.condition cond = .ok t) :
    ∃ column, c.resolve cond.field = .ok column ∧ Tested column cond.operator cond.values t := by
  obtain ⟨field, operator, values⟩ := cond
  obtain ⟨column, resolved, checked⟩ := Outcome.bind_eq_ok.mp ok
  refine ⟨column, resolved, ?_⟩
  cases operator with
  | present isSet =>
    cases values with
    | nil =>
      cases checked
      exact .present isSet
    | cons v vs => cases checked
  | compare op =>
    rcases values with _ | ⟨v, _ | ⟨w, vs⟩⟩
    · cases checked
    · exact comparison_tested checked
    · cases checked
  | member negated =>
    cases values with
    | nil => cases checked
    | cons v vs =>
      obtain ⟨ws, converted, rfl⟩ := Outcome.map_eq_ok.mp checked
      exact .member (List.cons_ne_nil v vs) (Outcome.mapM_eq_ok.mp converted)
  | pattern place negated =>
    rcases values with _ | ⟨v, _ | ⟨w, vs⟩⟩
    · cases checked
    · exact patternTest_tested checked
    · cases checked

end Compiler

/-- What has been tested of an operator and its values at a column is what a condition on it gives. -/
theorem Tested.condition {c : Compiler} {n : String} {column : Column} {op : Operator}
    {vs : List Value} {t : Test} (tested : Tested column op vs t) (resolved : c.resolve n = .ok column) :
    c.condition ⟨n, op, vs⟩ = .ok t := by
  refine Outcome.bind_eq_ok.mpr ⟨column, resolved, ?_⟩
  cases tested with
  | present isSet => rfl
  | equalsNull null => exact if_pos null
  | notEqualsNull null => exact if_pos null
  | compare set converted => exact Compiler.comparison_of_set set converted
  | member nonempty converted =>
    cases vs with
    | nil => exact absurd rfl nonempty
    | cons v rest => exact Outcome.map_eq_ok.mpr ⟨_, Outcome.mapM_eq_ok.mpr converted, rfl⟩
  | pattern text => exact if_neg (not_not.mpr text)

end EntitySchema.Sql
