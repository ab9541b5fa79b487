import EntitySchema.Proofs.Sql.Checking
import EntitySchema.Proofs.Sql.Mutation
import EntitySchema.Proofs.Sql.Selection

/-!
The items of every statement that can come with values. They are tidy, so they are also the tokens of
its texts, and every name in them is that of the table or of a column.
-/

namespace EntitySchema.Sql

def whereItems : Option Clause → List Item
  | none => []
  | some k => [.blank, .word "WHERE", .blank] ++ k.items

theorem tidy_whereItems {k : Option Clause} (tidy : ∀ l, k = some l → Item.Tidy false l.items) :
    Item.Tidy true (whereItems k) := by
  cases k with
  | none => trivial
  | some k => simp +decide [whereItems, tidy k rfl, Token.Proper]

/-- Adds a filter that has been checked, if it has a predicate. -/
def writeFilter (b : Buffer) : Option Predicate → Buffer
  | some p => (b.push " WHERE ").append p.buffer
  | none => b

theorem writeFilter_reads {b : Buffer} {is : List Item} (reads : b.Reads is) {p : Option Predicate}
    {k : Option Clause} (same : Option.Rel Predicate.Reads p k) :
    (writeFilter b p).Reads (is ++ whereItems k) := by
  cases same with
  | none =>
    rw [whereItems, List.append_nil]
    exact reads
  | some same =>
    have keyword : Item.Spells " WHERE " [.blank, .word "WHERE", .blank] := ⟨rfl, fun _ _ => rfl⟩
    have all := (reads.push keyword).append same.buffer
    rw [List.append_assoc] at all
    exact all

namespace Test

def column : Test → Column
  | .present column _ => column
  | .compare column _ _ => column
  | .member column _ _ => column
  | .pattern column _ _ => column

theorem names_slots (vs : List Value) :
    Item.names (Item.join Item.comma (vs.map fun v => [.slot v])) = [] := by
  rw [Item.names_join rfl, List.flatMap_map]
  simp [Item.names]

theorem names_items (d : Dialect) (t : Test) : Item.names (t.items d) = [t.column.name] := by
  cases t with
  | present column isSet => cases isSet <;> rfl
  | compare column op v => rfl
  | member column negated vs =>
    cases negated <;> simp [items, isNegated, atomItems, Item.names, names_slots, Test.column]
  | pattern column negated like => cases negated <;> cases d <;> rfl

theorem column_of_tested {column : Column} {operator : Operator} {values : List Value} {t : Test}
    (tested : Tested column operator values t) : t.column = column := by
  cases tested <;> rfl

end Test

theorem Clause.names_nested (k : Clause) : Item.names k.nested = Item.names k.items := by
  rw [nested]
  split
  · simp [Item.names]
  · rfl

theorem Clause.names_join {c : Connective} {ks : List Clause} {k : Clause}
    (joined : join c ks = some k) : Item.names k.items = ks.flatMap fun k => Item.names k.items := by
  match ks, joined with
  | [only], joined =>
    cases joined
    simp
  | first :: second :: rest, joined =>
    cases joined
    rw [Item.names_join rfl, List.flatMap_map]
    exact List.flatMap_congr fun k _ => k.names_nested

/-- The names in a clause are those of the columns of its tests. -/
theorem Tree.names_clause {d : Dialect} {t : Tree Test} {k : Clause} (written : t.clause? d = some k)
    {n : String} (member : n ∈ Item.names k.items) : ∃ x ∈ t.leaves, n = x.column.name := by
  induction t using Tree.inductionOn generalizing k with
  | leaf x =>
    cases written
    rw [x.names_items, List.mem_singleton] at member
    exact ⟨x, .head _, member⟩
  | group c children ih =>
    rw [clause?_group] at written
    rw [Clause.names_join written, List.mem_flatMap] at member
    obtain ⟨part, inside, found⟩ := member
    obtain ⟨child, below, source⟩ := List.mem_filterMap.mp inside
    obtain ⟨x, leaf, same⟩ := ih child below source found
    rw [leaves_group]
    exact ⟨x, List.mem_flatMap.mpr ⟨child, below, leaf⟩, same⟩

namespace Compiler

/-- The clause of a filter, if there is a filter and it has conditions. -/
def IsClause (c : Compiler) (filter : Option SearchNode) (k : Option Clause) : Prop :=
  match filter with
  | none => k = none
  | some node => ∃ checked, c.Checks node checked ∧ c.clause? checked = k

/-- The items of a request that is accepted. -/
inductive Composes (c : Compiler) : Request → List Item → Prop where
  | select {fields : List String} {g : SearchGraph} {k : Option Clause}
    (projected : ∀ f ∈ fields, f ∈ c.entity.columnNames)
    (sorted : ∀ o ∈ g.order, o.field ∈ c.entity.columnNames) (filtered : c.IsClause g.filter k) :
    Composes c (.select fields g) (c.selectItems fields ++ whereItems k ++ c.tailItems g)
  | filter {node : SearchNode} {k : Clause} (filtered : c.IsClause (some node) (some k)) :
    Composes c (.filter node) k.items
  | insert {row : Record} {tuples : List (List (Column × Value))}
    (checked : c.insertRows row.keys 0 [row] = .ok tuples) :
    Composes c (.insert row) (c.insertItems row.keys tuples)
  | bulkInsert {first : Record} {rest : List Record} {tuples : List (List (Column × Value))}
    (checked : c.insertRows first.keys 0 (first :: rest) = .ok tuples) :
    Composes c (.bulkInsert (first :: rest)) (c.insertItems first.keys tuples)
  | updateByKey {row : Record} {bound : List (Column × Value)} (bind : c.bindRow row = .ok bound) :
    Composes c (.updateByKey row) (c.updateItems (c.assigned bound) (c.lookup bound))
  | deleteByEquality {row : Record} {tests : List Test}
    (each : List.Forall₂ (fun e t => ∃ column, c.resolve e.1 = .ok column ∧
      comparison column .equals e.2 = .ok t) row.entries tests) :
    Composes c (.deleteByEquality row) (c.deleteItems tests)

variable {c : Compiler} {q : Request} {s : Statement} {is : List Item}

theorem select_reads {fields : List String} {g : SearchGraph} (ok : c.select fields g = .ok s) :
    ∃ k, c.IsClause g.filter k ∧
      s.Reads c.dialect (c.selectItems fields ++ whereItems k ++ c.tailItems g) := by
  obtain ⟨_, _, filtered, found, finished⟩ := select_eq_ok.mp ok
  have head := Buffer.reads_empty.push (c.select_spells fields)
  have reads (k : Option Clause)
      (filter : filtered.Reads (c.selectItems fields ++ whereItems k)) :
      s.Reads c.dialect (c.selectItems fields ++ whereItems k ++ c.tailItems g) := by
    have all := pagingClause_reads c.dialect (writeOrder_reads filter g.order) g.limit g.offset
    rw [List.append_assoc _ (orderItems g.order)] at all
    exact .ofBuffer all finished
  cases filter : g.filter with
  | none =>
    rw [filter] at found
    cases found
    exact ⟨none, rfl, reads none (by simpa [whereItems] using head)⟩
  | some node =>
    rw [filter, whereClause] at found
    obtain ⟨p, ok, rfl⟩ := Outcome.map_eq_ok.mp found
    obtain ⟨checked, checks, same⟩ := predicate?_reads ok
    exact ⟨c.clause? checked, ⟨checked, checks, rfl⟩, reads _ (writeFilter_reads head same)⟩

theorem compileFilter_reads {node : SearchNode} (ok : c.compileFilter node = .ok (some s)) :
    ∃ k, c.IsClause (some node) (some k) ∧ s.Reads c.dialect k.items := by
  rcases compileFilter_eq_ok.mp ok with ⟨_, wrong⟩ | ⟨p, t, found, finished, same⟩
  · cases wrong
  · cases same
    obtain ⟨checked, checks, reads⟩ := predicate?_reads found
    generalize written : c.clause? checked = k at reads
    cases reads with
    | some same => exact ⟨_, ⟨checked, checks, written⟩, .ofBuffer same.buffer finished⟩

/-- Every statement but the definition of the table is made of the items of its request. -/
theorem run_composes (ok : c.run q = .ok (some s)) (other : q ≠ .createTable) :
    ∃ is, c.Composes q is ∧ s.Reads c.dialect is := by
  cases q with
  | createTable => exact absurd rfl other
  | select fields g =>
    have selected := map_some_eq_ok.mp ok
    obtain ⟨k, filtered, reads⟩ := select_reads selected
    obtain ⟨projected, sorted, _⟩ := select_eq_ok.mp selected
    refine ⟨_, .select (fun f member => ?_) (fun o member => ?_) filtered, reads⟩
    · obtain ⟨column, resolved⟩ := (projection_eq_ok projected).2 f member
      exact resolve_known resolved
    · obtain ⟨column, resolved⟩ := (orderClause_eq_ok (sorted .empty)).2 o member
      exact resolve_known resolved
  | filter node =>
    obtain ⟨k, filtered, reads⟩ := compileFilter_reads ok
    exact ⟨_, .filter filtered, reads⟩
  | insert row =>
    obtain ⟨first, rest, tuples, same, _, checked, reads⟩ :=
      bulkInsert_reads (map_some_eq_ok.mp ok)
    cases same
    exact ⟨_, .insert checked, reads⟩
  | bulkInsert rows =>
    obtain ⟨first, rest, tuples, rfl, _, checked, reads⟩ :=
      bulkInsert_reads (map_some_eq_ok.mp ok)
    exact ⟨_, .bulkInsert checked, reads⟩
  | updateByKey row =>
    obtain ⟨bound, _, _, bind, _, reads⟩ := updateByKey_reads (map_some_eq_ok.mp ok)
    exact ⟨_, .updateByKey bind, reads⟩
  | deleteByEquality row =>
    obtain ⟨tests, _, _, each, reads⟩ := deleteByEquality_reads (map_some_eq_ok.mp ok)
    exact ⟨_, .deleteByEquality each, reads⟩

theorem IsClause.tidy {filter : Option SearchNode} {k : Clause}
    (filtered : c.IsClause filter (some k)) : Item.Tidy false k.items := by
  cases filter with
  | none => cases filtered
  | some node =>
    obtain ⟨checked, _, written⟩ := filtered
    exact Tree.tidy_clause written

theorem Composes.tidy (composes : c.Composes q is) : Item.Tidy false is := by
  cases composes with
  | @select fields g k projected sorted filtered =>
    have clause : Item.Tidy true (whereItems k) := by
      refine tidy_whereItems fun l same => ?_
      subst same
      exact filtered.tidy
    exact ((c.tidy_selectItems fields).append clause).append (c.tidy_tailItems g)
  | filter filtered => exact filtered.tidy
  | insert checked => exact c.tidy_insertItems _ _
  | bulkInsert checked => exact c.tidy_insertItems _ _
  | updateByKey bind => exact c.tidy_updateItems _ _
  | deleteByEquality each => exact c.tidy_deleteItems _

/-- The name is that of the table or of a column. -/
def Knows (c : Compiler) (n : String) : Prop := n = c.entity.tableName ∨ n ∈ c.entity.columnNames

theorem names_list (names : List String) :
    Item.names (Item.join Item.comma (names.map fun n => [.name n])) = names := by
  rw [Item.names_join rfl, List.flatMap_map]
  simp [Item.names]

theorem names_pairs {separator : List Item} (none : Item.names separator = []) (d : Dialect)
    (pairs : List (Column × Value)) :
    Item.names (Item.join separator (pairs.map fun p => (pairTest p).items d)) =
      pairs.map fun p => p.1.name := by
  rw [Item.names_join none, List.flatMap_map, List.map_eq_flatMap]
  exact List.flatMap_congr fun p _ => (pairTest p).names_items d

theorem bound_known {row : Record} {bound : List (Column × Value)} (bind : c.bindRow row = .ok bound) :
    ∀ b ∈ bound, b.1.name ∈ c.entity.columnNames := by
  intro b member
  obtain ⟨e, _, resolved, _⟩ := Outcome.exists_of_mem_results (bindRow_eq_ok.mp bind) member
  rw [(resolve_eq_ok resolved).2]
  exact resolve_known resolved

theorem keys_known {row : Record} {bound : List (Column × Value)} (bind : c.bindRow row = .ok bound) :
    ∀ key ∈ row.keys, key ∈ c.entity.columnNames := by
  intro key member
  rw [← names_bindRow bind] at member
  obtain ⟨b, inside, rfl⟩ := List.mem_map.mp member
  exact bound_known bind b inside

theorem mem_assigned {bound : List (Column × Value)} {b : Column × Value} :
    b ∈ c.assigned bound ↔ b ∈ bound ∧ c.entity.isKey b.1.name = false := by
  rw [assigned, List.mem_filter, Bool.not_eq_true']

theorem mem_lookup {bound : List (Column × Value)} {b : Column × Value}
    (member : b ∈ c.lookup bound) : b ∈ bound ∧ c.entity.isKey b.1.name = true := by
  obtain ⟨name, _, found⟩ := List.mem_filterMap.mp member
  exact List.mem_filter.mp (List.mem_of_find?_eq_some found)

/-- The value of a key is the one that is looked up under its name. -/
theorem find_key {row : Record} {bound : List (Column × Value)} (bind : c.bindRow row = .ok bound)
    {key : String} {u : Value} (found : row.get? key = some u) (isKey : c.entity.isKey key = true) :
    ∃ b, (bound.filter fun b => c.entity.isKey b.1.name).find? (·.1.name == key) = some b ∧
      c.resolve key = .ok b.1 ∧ b.1.convert u = .ok b.2 := by
  obtain ⟨b, first, resolved, converted⟩ := find_bound bind found
  refine ⟨b, ?_, resolved, converted⟩
  rw [List.find?_filter, ← first]
  congr 1
  funext other
  by_cases same : other.1.name = key
  · simp [same, isKey]
  · simp [same]

theorem key_mem_lookup {row : Record} {bound : List (Column × Value)} (bind : c.bindRow row = .ok bound)
    {key : String} {u : Value} (found : row.get? key = some u) (listed : key ∈ c.entity.keyColumns)
    (isKey : c.entity.isKey key = true) :
    ∃ b ∈ c.lookup bound, c.resolve key = .ok b.1 ∧ b.1.convert u = .ok b.2 := by
  obtain ⟨b, first, rest⟩ := find_key bind found isKey
  exact ⟨b, List.mem_filterMap.mpr ⟨key, listed, first⟩, rest⟩

theorem select_known {fields : List String} {g : SearchGraph} {k : Option Clause}
    (projected : ∀ f ∈ fields, f ∈ c.entity.columnNames)
    (sorted : ∀ o ∈ g.order, o.field ∈ c.entity.columnNames)
    (filtered : ∀ n ∈ Item.names (whereItems k), c.Knows n) :
    ∀ n ∈ Item.names (c.selectItems fields ++ whereItems k ++ c.tailItems g), c.Knows n := by
  have columns : ∀ n ∈ Item.names (columnItems fields), n ∈ fields := by
    intro n member
    rw [columnItems] at member
    split at member
    · cases member
    · rwa [names_list] at member
  have order : ∀ n ∈ Item.names (orderItems g.order), n ∈ c.entity.columnNames := by
    intro n member
    rw [orderItems] at member
    split at member
    · cases member
    · rw [Item.names_append, Item.names_join rfl, List.flatMap_map] at member
      simp only [Item.names, List.nil_append, List.mem_flatMap, List.mem_singleton] at member
      obtain ⟨o, inside, rfl⟩ := member
      exact sorted o inside
  have paging : Item.names (pagingItems c.dialect g.limit g.offset) = [] := by
    rcases g.limit with _ | n <;> rcases g.offset with _ | m <;> cases c.dialect <;> rfl
  intro n member
  simp only [Item.names_append, selectItems, tailItems, Item.names, paging, List.mem_append,
    List.nil_append, List.append_nil, List.mem_singleton] at member
  rcases member with ((inside | rfl) | inside) | inside
  · exact .inr (projected n (columns n inside))
  · exact .inl rfl
  · exact filtered n inside
  · exact .inr (order n inside)

theorem names_insertItems (columns : List String) (tuples : List (List (Column × Value))) :
    Item.names (c.insertItems columns tuples) = c.entity.tableName :: columns := by
  have tuple (bound : List (Column × Value)) : Item.names (tupleItems bound) = [] := by
    simp [tupleItems, Item.names, Test.names_slots, -List.map_map]
  have values : Item.names (Item.join Item.comma (tuples.map tupleItems)) = [] := by
    rw [Item.names_join rfl, List.flatMap_map]
    simp [tuple]
  simp [insertItems, Item.names, names_list, values]

theorem names_updateItems (updates lookup : List (Column × Value)) :
    Item.names (c.updateItems updates lookup) =
      c.entity.tableName :: (updates ++ lookup).map fun p => p.1.name := by
  have changes := names_pairs (show Item.names Item.comma = [] from rfl) c.dialect updates
  have keys := names_pairs (show Item.names Connective.and.items = [] from rfl) c.dialect lookup
  simp [updateItems, Item.names, changes, keys]

theorem names_deleteItems (tests : List Test) :
    Item.names (c.deleteItems tests) = c.entity.tableName :: tests.map fun t => t.column.name := by
  have conditions : Item.names (Item.join Connective.and.items (tests.map (Test.items c.dialect))) =
      tests.map fun t => t.column.name := by
    rw [Item.names_join rfl, List.flatMap_map, List.map_eq_flatMap]
    exact List.flatMap_congr fun t _ => t.names_items c.dialect
  simp [deleteItems, Item.names, conditions]

theorem IsClause.known {filter : Option SearchNode} {k : Clause}
    (filtered : c.IsClause filter (some k)) : ∀ n ∈ Item.names k.items, c.Knows n := by
  cases filter with
  | none => cases filtered
  | some node =>
    obtain ⟨checked, checks, written⟩ := filtered
    intro n member
    obtain ⟨t, leaf, rfl⟩ := Tree.names_clause written member
    rw [Tree.leaves_map] at leaf
    obtain ⟨x, inside, rfl⟩ := List.mem_map.mp leaf
    obtain ⟨column, resolved, tested⟩ := condition_tested (checks.tests x inside)
    rw [Test.column_of_tested tested, (resolve_eq_ok resolved).2]
    exact .inr (resolve_known resolved)

theorem insert_known {first : Record} {rest : List Record} {tuples : List (List (Column × Value))}
    (checked : c.insertRows first.keys 0 (first :: rest) = .ok tuples) :
    ∀ n ∈ Item.names (c.insertItems first.keys tuples), c.Knows n := by
  obtain ⟨bound, _, ⟨_, _, bind⟩, _, _⟩ :=
    List.forall₂_cons_left_iff.mp (insertRows_eq_ok.mp checked)
  intro n member
  rw [names_insertItems, List.mem_cons] at member
  exact member.imp_right (keys_known bind n)

/-- Every name in a statement is that of the table or of a column. -/
theorem Composes.known (composes : c.Composes q is) : ∀ n ∈ Item.names is, c.Knows n := by
  cases composes with
  | @select fields g k projected sorted filtered =>
    refine select_known projected sorted fun n member => ?_
    cases k with
    | none => cases member
    | some k => exact filtered.known n member
  | filter filtered => exact filtered.known
  | insert checked => exact insert_known checked
  | bulkInsert checked => exact insert_known checked
  | updateByKey bind =>
    intro n member
    rw [names_updateItems, List.mem_cons] at member
    refine member.imp_right fun inside => ?_
    obtain ⟨b, found, rfl⟩ := List.mem_map.mp inside
    rcases List.mem_append.mp found with change | key
    · exact bound_known bind b (mem_assigned.mp change).1
    · exact bound_known bind b (mem_lookup key).1
  | deleteByEquality each =>
    intro n member
    rw [names_deleteItems, List.mem_cons] at member
    refine member.imp_right fun inside => ?_
    obtain ⟨t, found, rfl⟩ := List.mem_map.mp inside
    obtain ⟨e, _, column, resolved, compared⟩ := Outcome.exists_of_mem_results each found
    rw [Test.column_of_tested (comparison_tested compared), (resolve_eq_ok resolved).2]
    exact resolve_known resolved

end Compiler

end EntitySchema.Sql
