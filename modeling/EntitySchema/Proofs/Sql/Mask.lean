import EntitySchema.Proofs.Sql.Composition

/-!
Requests without the contents of their values, and what is left of their items. Only where a value is
null can be seen; everything else about a statement is settled by the rest of the request.
-/

namespace EntitySchema

/-- What is left of a value: whether it is null. -/
def Value.masked (v : Value) : Value := if v.isNull then .null else .bool true

theorem Value.isNull_masked (v : Value) : v.masked.isNull = v.isNull := by
  cases v <;> rfl

namespace Sql

def Condition.masked (cond : Condition) : Condition :=
  { cond with values := cond.values.map Value.masked }

def SearchGraph.masked (g : SearchGraph) : SearchGraph :=
  { g with filter := g.filter.map (Tree.map Condition.masked) }

/-- The request with nothing left of its values. -/
def Request.masked : Request → Request
  | .createTable => .createTable
  | .select fields g => .select fields g.masked
  | .filter node => .filter (node.map Condition.masked)
  | .insert row => .insert (row.map Value.masked)
  | .bulkInsert rows => .bulkInsert (rows.map (KeyMap.map Value.masked))
  | .updateByKey row => .updateByKey (row.map Value.masked)
  | .deleteByEquality row => .deleteByEquality (row.map Value.masked)

namespace Item

/-- The items with nothing left of the values in their slots. -/
def masked : List Item → List Item
  | [] => []
  | .slot _ :: rest => .slot .null :: masked rest
  | item :: rest => item :: masked rest

@[simp]
theorem masked_append (first second : List Item) :
    masked (first ++ second) = masked first ++ masked second := by
  induction first with
  | nil => rfl
  | cons item rest ih => cases item <;> simp [masked, ih]

theorem masked_join (separator : List Item) (iss : List (List Item)) :
    masked (join separator iss) = join (masked separator) (iss.map masked) := by
  induction iss with
  | nil => rfl
  | cons is rest ih =>
    cases rest with
    | nil => rfl
    | cons other others =>
      rw [join_cons_cons, masked_append, masked_append, ih]
      rfl

/-- The text depends on the slots alone. -/
theorem write_masked (spell : Nat → String) (index : Nat) (is : List Item) :
    write spell index (masked is) = write spell index is := by
  induction is generalizing index with
  | nil => rfl
  | cons item rest ih => cases item <;> simp only [masked, write, ih]

end Item

namespace Test

def masked : Test → Test
  | .present column isSet => .present column isSet
  | .compare column op _ => .compare column op .null
  | .member column negated vs => .member column negated (List.replicate vs.length .null)
  | .pattern column negated _ => .pattern column negated ""

theorem masked_slots (vs : List Value) :
    Item.masked (Item.join Item.comma (vs.map fun v => [.slot v])) =
      Item.join Item.comma (List.replicate vs.length [.slot .null]) := by
  have slots : (vs.map fun v => [Item.slot v]).map Item.masked =
      List.replicate vs.length [.slot .null] := by
    induction vs with
    | nil => rfl
    | cons v rest ih => rw [List.map_cons, List.map_cons, ih]; rfl
  rw [Item.masked_join, slots]
  rfl

theorem masked_replicate (n : Nat) :
    Item.masked (Item.join Item.comma (List.replicate n [.slot .null])) =
      Item.join Item.comma (List.replicate n [.slot .null]) := by
  rw [Item.masked_join, List.map_replicate]
  rfl

theorem masked_items (d : Dialect) (t : Test) :
    Item.masked (t.masked.items d) = Item.masked (t.items d) := by
  cases t with
  | present column isSet => rfl
  | compare column op v => rfl
  | member column negated vs =>
    cases negated <;>
      simp [masked, items, isNegated, atomItems, Item.masked, masked_slots, masked_replicate]
  | pattern column negated like => cases negated <;> cases d <;> rfl

/-- The test of a column, as far as it shows without the contents of the values. -/
def shape (column : Column) : Operator → List Value → Test
  | .present isSet, _ => .present column isSet
  | .compare op, vs =>
    if vs.all Value.isNull && column.nullable then .present column (op = .notEquals)
    else .compare column op .null
  | .member negated, vs => .member column negated (List.replicate vs.length .null)
  | .pattern _ negated, _ => .pattern column negated ""

theorem shape_of_tested {column : Column} {operator : Operator} {vs : List Value} {t : Test}
    (tested : Tested column operator vs t) :
    t.masked = shape column operator (vs.map Value.masked) := by
  cases tested with
  | present isSet => rfl
  | equalsNull null => simp [shape, masked, Value.isNull_masked, null]
  | notEqualsNull null => simp [shape, masked, Value.isNull_masked, null]
  | compare set converted =>
    simp only [shape, masked, List.map_cons, List.map_nil, List.all_cons, List.all_nil,
      Bool.and_true, Value.isNull_masked, set]
    rfl
  | member nonempty converted =>
    simp only [shape, masked, List.length_map, converted.length_eq]
  | pattern text => rfl

end Test

namespace Clause

def masked (k : Clause) : Clause := ⟨Item.masked k.items, k.compound⟩

theorem masked_nested (k : Clause) : Item.masked k.nested = k.masked.nested := by
  rw [nested, nested, masked]
  split
  · rw [Item.masked_append, Item.masked_append]
    rfl
  · rfl

theorem masked_join (c : Connective) (ks : List Clause) :
    (join c ks).map masked = join c (ks.map masked) := by
  match ks with
  | [] => rfl
  | [k] => rfl
  | first :: second :: rest =>
    have members : ((first :: second :: rest).map nested).map Item.masked =
        ((first :: second :: rest).map masked).map nested := by
      rw [List.map_map, List.map_map]
      exact List.map_congr_left fun k _ => k.masked_nested
    have several : join c (first :: second :: rest) =
        some ⟨Item.join c.items ((first :: second :: rest).map nested), true⟩ := rfl
    rw [several, Option.map_some, masked, Item.masked_join, members]
    rfl

end Clause

theorem Tree.masked_clause (d : Dialect) (t : Tree Test) :
    (t.clause? d).map Clause.masked = ((t.map Test.masked).clause? d).map Clause.masked := by
  induction t using Tree.inductionOn with
  | leaf t =>
    have same := t.masked_items d
    rw [map_leaf]
    simp [clause?, fold, Clause.masked, same]
  | group c children ih =>
    rw [map_group, clause?_group, clause?_group, Clause.masked_join, Clause.masked_join,
      List.map_filterMap, List.map_filterMap, List.filterMap_map]
    exact congrArg _ (List.filterMap_congr ih)

namespace Compiler

theorem condition_masked {c : Compiler} {first second : Condition} {t u : Test}
    (alike : first.masked = second.masked) (ok : c.condition first = .ok t)
    (other : c.condition second = .ok u) : t.masked = u.masked := by
  rw [Condition.masked, Condition.masked, Condition.mk.injEq] at alike
  obtain ⟨field, operator, values⟩ := alike
  obtain ⟨column, resolved, tested⟩ := condition_tested ok
  obtain ⟨again, known, measured⟩ := condition_tested other
  rw [field, known, Except.ok.injEq] at resolved
  rw [Test.shape_of_tested tested, Test.shape_of_tested measured, operator, values, resolved]

theorem Checks.masked {c : Compiler} {first second : SearchNode}
    {checked measured : Tree (Condition × Test)}
    (alike : first.map Condition.masked = second.map Condition.masked)
    (checks : c.Checks first checked) (measures : c.Checks second measured) :
    (c.clause? checked).map Clause.masked = (c.clause? measured).map Clause.masked := by
  rw [← checks.conditions, ← measures.conditions, Tree.map_map, Tree.map_map] at alike
  obtain ⟨pairs, left, right, leaves⟩ := Tree.exists_zip checked measured alike
  have tests : (checked.map Prod.snd).map Test.masked = (measured.map Prod.snd).map Test.masked := by
    rw [← left, ← right, Tree.map_map, Tree.map_map, Tree.map_map, Tree.map_map]
    refine Tree.map_congr pairs fun x leaf => ?_
    have one : x.1 ∈ checked.leaves := by
      rw [← left, Tree.leaves_map]
      exact List.mem_map_of_mem leaf
    have two : x.2 ∈ measured.leaves := by
      rw [← right, Tree.leaves_map]
      exact List.mem_map_of_mem leaf
    exact condition_masked (leaves x leaf) (checks.tests _ one) (measures.tests _ two)
  rw [clause?, clause?, Tree.masked_clause, tests, ← Tree.masked_clause]

theorem IsClause.masked {c : Compiler} {first second : Option SearchNode} {k l : Option Clause}
    (alike : first.map (Tree.map Condition.masked) = second.map (Tree.map Condition.masked))
    (one : c.IsClause first k) (two : c.IsClause second l) :
    k.map Clause.masked = l.map Clause.masked := by
  cases first with
  | none =>
    cases second with
    | none => rw [show k = none from one, show l = none from two]
    | some node => cases alike
  | some node =>
    cases second with
    | none => cases alike
    | some other =>
      obtain ⟨checked, checks, rfl⟩ := one
      obtain ⟨measured, measures, rfl⟩ := two
      exact checks.masked (Option.some.inj alike) measures

theorem masked_whereItems {k l : Option Clause} (alike : k.map Clause.masked = l.map Clause.masked) :
    Item.masked (whereItems k) = Item.masked (whereItems l) := by
  cases k with
  | none =>
    cases l with
    | none => rfl
    | some l => cases alike
  | some k =>
    cases l with
    | none => cases alike
    | some l =>
      have items : Item.masked k.items = Item.masked l.items :=
        congrArg Clause.items (Option.some.inj alike)
      rw [whereItems, whereItems, Item.masked_append, Item.masked_append, items]

/-! Insertions depend on the columns and on the number of rows, updates on the columns, and deletions
on the columns and on where the filter is null. -/

theorem masked_tuple (bound : List (Column × Value)) :
    Item.masked (tupleItems bound) = [.symbol "("] ++
      Item.join Item.comma (List.replicate bound.length [.slot .null]) ++ [.symbol ")"] := by
  rw [tupleItems, Item.masked_append, Item.masked_append, Test.masked_slots, List.length_map]
  rfl

theorem masked_insertItems {c : Compiler} {columns : List String}
    {first second : List (List (Column × Value))}
    (alike : first.map List.length = second.map List.length) :
    Item.masked (c.insertItems columns first) = Item.masked (c.insertItems columns second) := by
  have values (tuples : List (List (Column × Value))) :
      (tuples.map tupleItems).map Item.masked = (tuples.map List.length).map fun n =>
        [.symbol "("] ++ Item.join Item.comma (List.replicate n [.slot .null]) ++ [.symbol ")"] := by
    rw [List.map_map, List.map_map]
    exact List.map_congr_left fun bound _ => masked_tuple bound
  simp only [insertItems, Item.masked_append, Item.masked_join, values, alike]

theorem masked_pairs (d : Dialect) (separator : List Item) (pairs : List (Column × Value)) :
    Item.masked (Item.join separator (pairs.map fun p => (pairTest p).items d)) =
      Item.join (Item.masked separator)
        ((pairs.map Prod.fst).map fun column => (pairTest (column, .null)).items d) := by
  rw [Item.masked_join, List.map_map, List.map_map]
  rfl

theorem masked_updateItems {c : Compiler} {first second : List (Column × Value)}
    (alike : first.map Prod.fst = second.map Prod.fst) :
    Item.masked (c.updateItems (c.assigned first) (c.lookup first)) =
      Item.masked (c.updateItems (c.assigned second) (c.lookup second)) := by
  have changes (bound : List (Column × Value)) : (c.assigned bound).map Prod.fst =
      (bound.map Prod.fst).filter fun column => !c.entity.isKey column.name := by
    rw [List.filter_map]
    rfl
  have keys (bound : List (Column × Value)) : (c.lookup bound).map Prod.fst =
      c.entity.keyColumns.filterMap fun name =>
        ((bound.map Prod.fst).filter fun column => c.entity.isKey column.name).find?
          (·.name == name) := by
    rw [lookup, List.map_filterMap]
    simp only [List.filter_map, List.find?_map]
    rfl
  simp only [updateItems, Item.masked_append, masked_pairs, changes, keys, alike]

theorem masked_deleteItems {c : Compiler} {first second : List Test}
    (alike : first.map Test.masked = second.map Test.masked) :
    Item.masked (c.deleteItems first) = Item.masked (c.deleteItems second) := by
  have conditions (tests : List Test) : (tests.map (Test.items c.dialect)).map Item.masked =
      (tests.map Test.masked).map fun t => Item.masked (t.items c.dialect) := by
    rw [List.map_map, List.map_map]
    exact List.map_congr_left fun t _ => (t.masked_items c.dialect).symm
  simp only [deleteItems, Item.masked_append, Item.masked_join, conditions, alike]

/-! Rows without the contents of their values. -/

theorem keys_masked (row : Record) : KeyMap.keys (row.map Value.masked) = row.keys := by
  rw [KeyMap.keys, KeyMap.keys, KeyMap.map, List.map_map]
  rfl

theorem keys_alike {first second : Record}
    (alike : first.map Value.masked = second.map Value.masked) : first.keys = second.keys := by
  rw [← keys_masked first, alike, keys_masked]

theorem bound_columns {c : Compiler} {row : Record} {bound : List (Column × Value)}
    (bind : c.bindRow row = .ok bound) :
    List.Forall₂ (fun key column => c.resolve key = .ok column) row.keys (bound.map Prod.fst) := by
  rw [KeyMap.keys, List.forall₂_map_left_iff, List.forall₂_map_right_iff]
  exact (bindRow_eq_ok.mp bind).imp fun e b found => found.1

theorem insert_lengths {c : Compiler} {columns : List String} {rows : List Record}
    {tuples : List (List (Column × Value))} (checked : c.insertRows columns 0 rows = .ok tuples) :
    tuples.map List.length = List.replicate rows.length columns.length := by
  have each := insertRows_eq_ok.mp checked
  rw [List.eq_replicate_iff]
  refine ⟨by rw [List.length_map, each.length_eq], fun n member => ?_⟩
  obtain ⟨bound, inside, rfl⟩ := List.mem_map.mp member
  obtain ⟨row, _, _, rfl, bind⟩ := Outcome.exists_of_mem_results each inside
  rw [(bound_columns bind).length_eq, List.length_map]

theorem delete_alike {c : Compiler} {first second : Record} {tests others : List Test}
    (alike : first.map Value.masked = second.map Value.masked)
    (one : List.Forall₂ (fun e t => ∃ column, c.resolve e.1 = .ok column ∧
      comparison column .equals e.2 = .ok t) first.entries tests)
    (two : List.Forall₂ (fun e t => ∃ column, c.resolve e.1 = .ok column ∧
      comparison column .equals e.2 = .ok t) second.entries others) :
    tests.map Test.masked = others.map Test.masked := by
  have shapes {row : Record} {tests : List Test}
      (each : List.Forall₂ (fun e t => ∃ column, c.resolve e.1 = .ok column ∧
        comparison column .equals e.2 = .ok t) row.entries tests) :
      List.Forall₂ (fun e t => ((c.resolve e.1).map fun column =>
        Test.shape column (.compare .equals) [e.2]) = .ok t)
        (row.map Value.masked).entries (tests.map Test.masked) := by
    rw [KeyMap.map, List.forall₂_map_left_iff, List.forall₂_map_right_iff]
    refine each.imp fun e t found => ?_
    obtain ⟨column, resolved, compared⟩ := found
    rw [resolved, Test.shape_of_tested (comparison_tested compared)]
    rfl
  have left := shapes one
  rw [alike] at left
  exact Outcome.results_unique left (shapes two)

end Compiler

end Sql

end EntitySchema
