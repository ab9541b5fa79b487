import EntitySchema.Proofs.Sql.Buffer
import EntitySchema.Sql.Compiler

/-!
The requests that a compiler takes. Whatever is asked, a statement that comes out is a finished
buffer.
-/

namespace EntitySchema.Sql

/-- One call of a compiler, with its arguments. -/
inductive Request where
  | createTable
  | select (fields : List String) (graph : SearchGraph)
  | filter (node : SearchNode)
  | insert (row : Record)
  | bulkInsert (rows : List Record)
  | updateByKey (row : Record)
  | deleteByEquality (row : Record)

namespace Compiler

/-- Answers a request. Only a filter can be accepted and give no statement. -/
def run (c : Compiler) : Request → Except SqlError (Option Statement)
  | .createTable => c.createTable.map some
  | .select fields graph => (c.select fields graph).map some
  | .filter node => c.compileFilter node
  | .insert row => (c.insert row).map some
  | .bulkInsert rows => (c.bulkInsert rows).map some
  | .updateByKey row => (c.updateByKey row).map some
  | .deleteByEquality row => (c.deleteByEquality row).map some

theorem map_some_eq_ok {x : Except SqlError Statement} {s : Statement} :
    x.map some = .ok (some s) ↔ x = .ok s := by
  rw [Outcome.map_eq_ok]
  constructor
  · intro given
    obtain ⟨other, ok, same⟩ := given
    cases same
    exact ok
  · intro ok
    exact ⟨s, ok, rfl⟩

theorem createTable_finish {c : Compiler} {s : Statement} (ok : c.createTable = .ok s) :
    ∃ b : Buffer, b.finish c.dialect = .ok s := by
  obtain ⟨columns, _, done⟩ := Outcome.bind_eq_ok.mp ok
  exact ⟨_, done⟩

theorem select_finish {c : Compiler} {fields : List String} {g : SearchGraph} {s : Statement}
    (ok : c.select fields g = .ok s) : ∃ b : Buffer, b.finish c.dialect = .ok s := by
  obtain ⟨columns, _, rest⟩ := Outcome.bind_eq_ok.mp ok
  obtain ⟨filtered, _, rest⟩ := Outcome.bind_eq_ok.mp rest
  obtain ⟨ordered, _, done⟩ := Outcome.bind_eq_ok.mp rest
  exact ⟨_, done⟩

/-- A filter is accepted when its predicate is; it gives a statement when it has a predicate. -/
theorem compileFilter_eq_ok {c : Compiler} {node : SearchNode} {r : Option Statement} :
    c.compileFilter node = .ok r ↔
      (c.predicate? node = .ok none ∧ r = none) ∨
      ∃ p s, c.predicate? node = .ok (some p) ∧ p.buffer.finish c.dialect = .ok s ∧ r = some s := by
  rw [compileFilter, Outcome.bind_eq_ok]
  constructor
  · intro given
    obtain ⟨p, ok, rest⟩ := given
    cases p with
    | none =>
      cases rest
      exact .inl ⟨ok, rfl⟩
    | some p =>
      obtain ⟨s, finished, rfl⟩ := Outcome.map_eq_ok.mp rest
      exact .inr ⟨p, s, ok, finished, rfl⟩
  · intro given
    rcases given with ⟨ok, rfl⟩ | ⟨p, s, ok, finished, rfl⟩
    · exact ⟨none, ok, rfl⟩
    · exact ⟨some p, ok, Outcome.map_eq_ok.mpr ⟨s, finished, rfl⟩⟩

/-- A batch that is accepted has a first row with columns, and a tuple for every row. -/
theorem bulkInsert_eq_ok {c : Compiler} {rows : List Record} {s : Statement} :
    c.bulkInsert rows = .ok s ↔
      ∃ first rest tuples, rows = first :: rest ∧ first.isEmpty = false ∧
        c.insertRows first.keys 0 rows = .ok tuples ∧
        ((Buffer.empty.push
            ("INSERT INTO " ++ c.table ++ " (" ++ nameList first.keys ++ ") VALUES ")).separated ", "
          writeTuple tuples).finish c.dialect = .ok s := by
  cases rows with
  | nil => simp [bulkInsert]
  | cons first rest =>
    cases blank : first.isEmpty with
    | true => simp [bulkInsert, blank]
    | false => simp [bulkInsert, blank, Outcome.bind_eq_ok]

/-- An update that is accepted names the tenant and the primary keys, and changes something. -/
theorem updateByKey_eq_ok {c : Compiler} {row : Record} {s : Statement} :
    c.updateByKey row = .ok s ↔
      ∃ bound, c.requireTenant row = .ok () ∧ c.requirePrimaryKeys row = .ok () ∧
        c.bindRow row = .ok bound ∧
        bound.filter (fun b => !c.entity.isKey b.1.name) ≠ [] ∧
        ((((Buffer.empty.push ("UPDATE " ++ c.table ++ " SET ")).separated ", " writePair
              (bound.filter fun b => !c.entity.isKey b.1.name)).push " WHERE ").separated " AND "
          writePair (c.entity.keyColumns.filterMap fun name =>
            (bound.filter fun b => c.entity.isKey b.1.name).find? (·.1.name == name))).finish
          c.dialect = .ok s := by
  simp only [updateByKey, Outcome.bind_eq_ok, List.partition_eq_filter_filter]
  constructor
  · intro given
    obtain ⟨_, tenant, _, keys, bound, bind, rest⟩ := given
    refine ⟨bound, tenant, keys, bind, ?_⟩
    split at rest
    · cases rest
    · next some => exact ⟨fun none => some (by simp [Function.comp_def, none]), rest⟩
  · intro given
    obtain ⟨bound, tenant, keys, bind, some, done⟩ := given
    refine ⟨(), tenant, (), keys, bound, bind, ?_⟩
    split
    · next none => exact absurd (List.isEmpty_iff.mp none) some
    · exact done

/-- A deletion that is accepted has a test for every entry of its filter. -/
theorem deleteByEquality_eq_ok {c : Compiler} {row : Record} {s : Statement} :
    c.deleteByEquality row = .ok s ↔
      ∃ tests, row.isEmpty = false ∧ c.requireTenant row = .ok () ∧
        List.Forall₂ (fun e t => ∃ column, c.resolve e.1 = .ok column ∧
          comparison column .equals e.2 = .ok t) row.entries tests ∧
        ((Buffer.empty.push ("DELETE FROM " ++ c.table ++ " WHERE ")).separated " AND "
          (Test.write c.dialect) tests).finish c.dialect = .ok s := by
  cases blank : row.isEmpty with
  | true => simp [deleteByEquality, blank]
  | false =>
    simp only [deleteByEquality, blank, Outcome.bind_eq_ok, Outcome.mapM_eq_ok, Bool.false_eq_true,
      ↓reduceIte, true_and]
    constructor
    · intro given
      obtain ⟨_, tenant, tests, each, done⟩ := given
      exact ⟨tests, tenant, each, done⟩
    · intro given
      obtain ⟨tests, tenant, each, done⟩ := given
      exact ⟨(), tenant, tests, each, done⟩

/-- Every statement comes out of a buffer. -/
theorem run_finish {c : Compiler} {q : Request} {s : Statement} (ok : c.run q = .ok (some s)) :
    ∃ b : Buffer, b.finish c.dialect = .ok s := by
  cases q with
  | createTable => exact createTable_finish (map_some_eq_ok.mp ok)
  | select fields graph => exact select_finish (map_some_eq_ok.mp ok)
  | filter node =>
    rcases compileFilter_eq_ok.mp ok with ⟨_, wrong⟩ | ⟨p, _, _, done, same⟩
    · cases wrong
    · cases same
      exact ⟨p.buffer, done⟩
  | insert row =>
    obtain ⟨first, rest, tuples, _, _, _, done⟩ := bulkInsert_eq_ok.mp (map_some_eq_ok.mp ok)
    exact ⟨_, done⟩
  | bulkInsert rows =>
    obtain ⟨first, rest, tuples, _, _, _, done⟩ := bulkInsert_eq_ok.mp (map_some_eq_ok.mp ok)
    exact ⟨_, done⟩
  | updateByKey row =>
    obtain ⟨bound, _, _, _, _, done⟩ := updateByKey_eq_ok.mp (map_some_eq_ok.mp ok)
    exact ⟨_, done⟩
  | deleteByEquality row =>
    obtain ⟨tests, _, _, _, done⟩ := deleteByEquality_eq_ok.mp (map_some_eq_ok.mp ok)
    exact ⟨_, done⟩

end Compiler

/-- Notes of several tenants in SQLite, a table on which theorems are tried out. -/
def notes : Compiler where
  entity := {
    name := "note"
    tableName := "notes"
    columns := [⟨"id", "TEXT", false, none⟩, ⟨"tenant", "TEXT", false, none⟩,
      ⟨"body", "TEXT", true, none⟩]
    primaryKeys := ["id"]
    tenantKey := some "tenant"
    uniqueKeys := [] }
  dialect := .sqlite

/-- The schema that the table of notes comes from. -/
def notesSchema : Schema where
  name := "note"
  label := "note"
  description := ""
  fields := [⟨"id", "id", "", .string, .empty, true, none, [.primary]⟩,
    ⟨"tenant", "tenant", "", .string, .empty, false, none, [.tenant]⟩,
    ⟨"body", "body", "", .string, .empty, false, none, []⟩]
  rules := []

/-- Notes that do not say `50%`, and two notes of one tenant. -/
def notesFilter : SearchNode :=
  .any [.leaf ⟨"body", .pattern .anywhere true, [.text "50%"]⟩,
    .all [.all [], .leaf ⟨"id", .member false, [.text "a", .text "it's"]⟩,
      .leaf ⟨"tenant", .compare .equals, [.text "t"]⟩]]

def notesFilterStatement : Statement where
  parameterized := "NOT (\"body\" LIKE ?1 ESCAPE '\\') OR (\"id\" IN (?2, ?3) AND \"tenant\" = ?4)"
  params := [.text "%50\\%%", .text "a", .text "it's", .text "t"]
  sql := "NOT (\"body\" LIKE '%50\\%%' ESCAPE '\\') OR "
    ++ "(\"id\" IN ('a', 'it''s') AND \"tenant\" = 't')"

/-- A note with the given text, and the statement that writes it over another. -/
def note (body : String) : Record := ⟨[("body", .text body), ("id", .text "a"), ("tenant", .text "t")]⟩

def noteUpdate (body literal : String) : Statement where
  parameterized := "UPDATE \"notes\" SET \"body\" = ?1 WHERE \"id\" = ?2 AND \"tenant\" = ?3"
  params := [.text body, .text "a", .text "t"]
  sql := "UPDATE \"notes\" SET \"body\" = " ++ literal ++ " WHERE \"id\" = 'a' AND \"tenant\" = 't'"

end EntitySchema.Sql
