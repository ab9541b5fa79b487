import EntitySchema.Proofs.Sql.Clause

/-!
Insertions, updates and deletions as items. A pair in an update is written like the test that a
column equals a value.
-/

namespace EntitySchema.Sql

/-- A column and its value with an equals sign between them. -/
def pairTest (pair : Column × Value) : Test := .compare pair.1 .equals pair.2

def tupleItems (bound : List (Column × Value)) : List Item :=
  [.symbol "("] ++ Item.join Item.comma ((bound.map Prod.snd).map fun v => [.slot v]) ++
    [.symbol ")"]

namespace Compiler

variable {c : Compiler} {s : Statement}

def insertItems (c : Compiler) (columns : List String) (tuples : List (List (Column × Value))) :
    List Item :=
  [.word "INSERT", .blank, .word "INTO", .blank, .name c.entity.tableName, .blank, .symbol "("] ++
    Item.join Item.comma (columns.map fun n => [.name n]) ++
    [.symbol ")", .blank, .word "VALUES", .blank] ++ Item.join Item.comma (tuples.map tupleItems)

def updateItems (c : Compiler) (updates lookup : List (Column × Value)) : List Item :=
  [.word "UPDATE", .blank, .name c.entity.tableName, .blank, .word "SET", .blank] ++
    Item.join Item.comma (updates.map fun p => (pairTest p).items c.dialect) ++
    [.blank, .word "WHERE", .blank] ++
    Item.join Connective.and.items (lookup.map fun p => (pairTest p).items c.dialect)

def deleteItems (c : Compiler) (tests : List Test) : List Item :=
  [.word "DELETE", .blank, .word "FROM", .blank, .name c.entity.tableName, .blank, .word "WHERE",
    .blank] ++ Item.join Connective.and.items (tests.map (Test.items c.dialect))

/-- The values of an update that are assigned. -/
def assigned (c : Compiler) (bound : List (Column × Value)) : List (Column × Value) :=
  bound.filter fun b => !c.entity.isKey b.1.name

/-- The values of an update that find the row, in the order of the key columns. -/
def lookup (c : Compiler) (bound : List (Column × Value)) : List (Column × Value) :=
  c.entity.keyColumns.filterMap fun name =>
    (bound.filter fun b => c.entity.isKey b.1.name).find? (·.1.name == name)

theorem writes_tuple (bound : List (Column × Value)) :
    Buffer.Writes writeTuple bound (tupleItems bound) := by
  intro b is reads
  have opened := reads.push (Item.spells_symbol "(")
  have values := opened.separated_map Buffer.bind (fun v => [.slot v])
    (fun v b is reads => reads.bind v) Item.spells_comma (bound.map Prod.snd)
  have all := values.push (Item.spells_symbol ")")
  rw [List.append_assoc, List.append_assoc] at all
  rw [tupleItems, List.append_assoc]
  exact all

theorem writes_pair (d : Dialect) (pair : Column × Value) :
    Buffer.Writes writePair pair ((pairTest pair).items d) := by
  intro b is reads
  have equals : Item.Spells " = " [.blank, .symbol "=", .blank] := ⟨rfl, fun _ _ => rfl⟩
  have all := (reads.push ((Item.spells_name pair.1.name).append equals)).bind pair.2
  rw [List.append_assoc] at all
  exact all

theorem tidy_tuple (bound : List (Column × Value)) : Item.Tidy false (tupleItems bound) := by
  simp [tupleItems, Token.proper_mark, Test.tidy_slots, -List.map_map]

theorem tidy_insertItems (c : Compiler) (columns : List String)
    (tuples : List (List (Column × Value))) : Item.Tidy false (c.insertItems columns tuples) := by
  have names : Item.Tidy false (Item.join Item.comma (columns.map fun n => [.name n])) :=
    Item.tidy_list (by simp)
  have values : Item.Tidy false (Item.join Item.comma (tuples.map tupleItems)) :=
    Item.tidy_list (by simpa using fun bound _ => tidy_tuple bound)
  simp +decide [insertItems, names, values, Token.Proper]

theorem tidy_pairs (d : Dialect) (pairs : List (Column × Value)) :
    ∀ is ∈ pairs.map (fun p => (pairTest p).items d), Item.Tidy false is := by
  intro is member
  obtain ⟨p, _, rfl⟩ := List.mem_map.mp member
  exact (pairTest p).tidy_items d

theorem tidy_updateItems (c : Compiler) (updates lookup : List (Column × Value)) :
    Item.Tidy false (c.updateItems updates lookup) := by
  have changes : Item.Tidy false
      (Item.join Item.comma (updates.map fun p => (pairTest p).items c.dialect)) :=
    Item.tidy_list (tidy_pairs c.dialect updates)
  have keys : Item.Tidy false
      (Item.join Connective.and.items (lookup.map fun p => (pairTest p).items c.dialect)) :=
    Connective.and.tidy_chain (tidy_pairs c.dialect lookup)
  simp +decide [updateItems, changes, keys, Token.Proper]

theorem tidy_deleteItems (c : Compiler) (tests : List Test) :
    Item.Tidy false (c.deleteItems tests) := by
  have conditions : Item.Tidy false
      (Item.join Connective.and.items (tests.map (Test.items c.dialect))) :=
    Connective.and.tidy_chain (by simpa using fun t _ => t.tidy_items c.dialect)
  simp +decide [deleteItems, conditions, Token.Proper]

/-- An insertion before it is finished. -/
def insertBuffer (c : Compiler) (columns : List String) (tuples : List (List (Column × Value))) :
    Buffer :=
  (Buffer.empty.push ("INSERT INTO " ++ c.table ++ " (" ++ nameList columns ++ ") VALUES ")).separated
    ", " writeTuple tuples

/-- An update before it is finished. -/
def updateBuffer (c : Compiler) (updates lookup : List (Column × Value)) : Buffer :=
  ((((Buffer.empty.push ("UPDATE " ++ c.table ++ " SET ")).separated ", " writePair updates).push
    " WHERE ").separated " AND " writePair lookup)

/-- A deletion before it is finished. -/
def deleteBuffer (c : Compiler) (tests : List Test) : Buffer :=
  (Buffer.empty.push ("DELETE FROM " ++ c.table ++ " WHERE ")).separated " AND " (Test.write c.dialect)
    tests

theorem insertBuffer_reads (c : Compiler) (columns : List String)
    (tuples : List (List (Column × Value))) :
    (c.insertBuffer columns tuples).Reads (c.insertItems columns tuples) := by
  have insert : Item.Spells "INSERT INTO " [.word "INSERT", .blank, .word "INTO", .blank] :=
    ⟨rfl, fun _ _ => rfl⟩
  have opened : Item.Spells " (" [.blank, .symbol "("] := ⟨rfl, fun _ _ => rfl⟩
  have closed : Item.Spells ") VALUES " [.symbol ")", .blank, .word "VALUES", .blank] :=
    ⟨rfl, fun _ _ => rfl⟩
  have head := (((insert.append (Item.spells_name c.entity.tableName)).append opened).append
    (Item.spells_names columns)).append closed
  have all := (Buffer.reads_empty.push head).separated_map writeTuple tupleItems writes_tuple
    Item.spells_comma tuples
  simp only [List.append_assoc] at all
  rw [insertItems]
  simp only [List.append_assoc]
  exact all

theorem updateBuffer_reads (c : Compiler) (updates lookup : List (Column × Value)) :
    (c.updateBuffer updates lookup).Reads (c.updateItems updates lookup) := by
  have update : Item.Spells "UPDATE " [.word "UPDATE", .blank] := ⟨rfl, fun _ _ => rfl⟩
  have set : Item.Spells " SET " [.blank, .word "SET", .blank] := ⟨rfl, fun _ _ => rfl⟩
  have keyword : Item.Spells " WHERE " [.blank, .word "WHERE", .blank] := ⟨rfl, fun _ _ => rfl⟩
  have head := (update.append (Item.spells_name c.entity.tableName)).append set
  have changes := (Buffer.reads_empty.push head).separated_map writePair _
    (writes_pair c.dialect) Item.spells_comma updates
  have all := (changes.push keyword).separated_map writePair _
    (writes_pair c.dialect) Connective.and.spells_separator lookup
  exact all

theorem deleteBuffer_reads (c : Compiler) (tests : List Test) :
    (c.deleteBuffer tests).Reads (c.deleteItems tests) := by
  have delete : Item.Spells "DELETE FROM " [.word "DELETE", .blank, .word "FROM", .blank] :=
    ⟨rfl, fun _ _ => rfl⟩
  have keyword : Item.Spells " WHERE " [.blank, .word "WHERE", .blank] := ⟨rfl, fun _ _ => rfl⟩
  have head := (delete.append (Item.spells_name c.entity.tableName)).append keyword
  exact (Buffer.reads_empty.push head).separated_map _ _ (Test.writes_items c.dialect)
    Connective.and.spells_separator tests

theorem bulkInsert_reads {rows : List Record} (ok : c.bulkInsert rows = .ok s) :
    ∃ first rest tuples, rows = first :: rest ∧ first.isEmpty = false ∧
      c.insertRows first.keys 0 rows = .ok tuples ∧
      s.Reads c.dialect (c.insertItems first.keys tuples) := by
  obtain ⟨first, rest, tuples, same, some, checked, finished⟩ := bulkInsert_eq_ok.mp ok
  exact ⟨first, rest, tuples, same, some, checked, .ofBuffer (c.insertBuffer_reads _ _) finished⟩

theorem updateByKey_reads {row : Record} (ok : c.updateByKey row = .ok s) :
    ∃ bound, c.requireTenant row = .ok () ∧ c.requirePrimaryKeys row = .ok () ∧
      c.bindRow row = .ok bound ∧ c.assigned bound ≠ [] ∧
      s.Reads c.dialect (c.updateItems (c.assigned bound) (c.lookup bound)) := by
  obtain ⟨bound, tenant, keys, bind, some, finished⟩ := updateByKey_eq_ok.mp ok
  exact ⟨bound, tenant, keys, bind, some, .ofBuffer (c.updateBuffer_reads _ _) finished⟩

theorem deleteByEquality_reads {row : Record} (ok : c.deleteByEquality row = .ok s) :
    ∃ tests, row.isEmpty = false ∧ c.requireTenant row = .ok () ∧
      List.Forall₂ (fun e t => ∃ column, c.resolve e.1 = .ok column ∧
        comparison column .equals e.2 = .ok t) row.entries tests ∧
      s.Reads c.dialect (c.deleteItems tests) := by
  obtain ⟨tests, some, tenant, each, finished⟩ := deleteByEquality_eq_ok.mp ok
  exact ⟨tests, some, tenant, each, .ofBuffer (c.deleteBuffer_reads tests) finished⟩

end Compiler

end EntitySchema.Sql
