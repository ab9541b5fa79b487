import EntitySchema.Proofs.Sql.Derivation
import EntitySchema.Proofs.Sql.Selection
import EntitySchema.Proofs.Validation.Validator

/-!
Field names from the schema through to statements. The validator looks a field up under its name as it
is written, the table has the name without blanks around it, and the compiler takes a dot for a path
into a nested value. A name without blanks at its ends is the same to all three unless it has a dot.
-/

namespace EntitySchema.Sql

open Validation

namespace Compiler

variable {c : Compiler} {n : String} {column : Column} {e : SqlError}

/-- A name stands for a column wherever a request can name one: among the fields of a selection, in a
condition, in an order and as a key of a row. -/
structure Denotes (c : Compiler) (n : String) (column : Column) : Prop where
  projection : c.projection [n] = .ok (quoteName column.name)
  condition : ∀ op vs t, c.condition ⟨n, op, vs⟩ = .ok t ↔ Tested column op vs t
  order : ∀ b direction, c.orderClause b [⟨n, direction⟩] =
    .ok (b.push (" ORDER BY " ++ (quoteName column.name ++ " " ++ direction.keyword)))
  key : ∀ v, c.bindRow ⟨[(n, v)]⟩ = (column.convert v).map fun w => [(column, w)]

/-- A name is refused wherever a request can name a column. -/
structure Refuses (c : Compiler) (n : String) (e : SqlError) : Prop where
  projection : c.projection [n] = .error e
  condition : ∀ op vs, c.condition ⟨n, op, vs⟩ = .error e
  order : ∀ b direction, c.orderClause b [⟨n, direction⟩] = .error e
  key : ∀ v, c.bindRow ⟨[(n, v)]⟩ = .error e

theorem denotes_of_resolve (resolved : c.resolve n = .ok column) : c.Denotes n column where
  projection := by
    rw [projection, (resolve_eq_ok resolved).2]
    simp only [List.isEmpty_cons, Bool.false_eq_true, if_false, List.mapM_cons, resolved]
    rfl
  condition op vs t := by
    constructor
    · intro ok
      obtain ⟨other, found, tested⟩ := condition_tested ok
      rw [resolved] at found
      cases found
      exact tested
    · intro tested
      exact tested.condition resolved
  order b direction := by
    unfold orderClause
    simp only [List.isEmpty_cons, Bool.false_eq_true, if_false, List.mapM_cons, resolved]
    rfl
  key v := by
    cases converted : column.convert v with
    | ok w => exact bindRow_eq_ok.mpr (.cons ⟨resolved, converted⟩ .nil)
    | error e =>
      unfold bindRow
      simp only [List.mapM_cons, resolved]
      change (column.convert v >>= _) >>= _ = _
      rw [converted]
      rfl

theorem refuses_of_resolve (failed : c.resolve n = .error e) : c.Refuses n e where
  projection := by
    unfold projection
    simp only [List.isEmpty_cons, Bool.false_eq_true, if_false, List.mapM_cons, failed]
    rfl
  condition op vs := by
    unfold condition
    rw [failed]
    rfl
  order b direction := by
    unfold orderClause
    simp only [List.isEmpty_cons, Bool.false_eq_true, if_false, List.mapM_cons, failed]
    rfl
  key v := by
    unfold bindRow
    simp only [List.mapM_cons, failed]
    rfl

theorem resolve_of_dot (dotted : '.' ∈ n.toList) : c.resolve n = .error (.nestedField n) :=
  if_pos (List.contains_iff_mem.mpr dotted)

theorem resolve_of_column? (plain : '.' ∉ n.toList) (found : c.entity.column? n = some column) :
    c.resolve n = .ok column := by
  rw [resolve, if_neg (by simpa using plain), found]

/-- Fields that all have a column can be selected. -/
theorem projection_of_resolved {names : List String}
    (each : ∀ n ∈ names, ∃ column, c.resolve n = .ok column) :
    c.projection names = .ok (columnText names) := by
  rw [projection, columnText]
  split
  · rfl
  · obtain ⟨columns, all⟩ := Outcome.exists_results each
    rw [Outcome.mapM_eq_ok.mpr all]
    rfl

/-- Columns can be selected by their names exactly if none of the names has a dot. -/
theorem exists_select_iff {names : List String} (known : ∀ n ∈ names, n ∈ c.entity.columnNames) :
    (∃ st, c.select names .empty = .ok st) ↔ ∀ n ∈ names, '.' ∉ n.toList := by
  constructor
  · rintro ⟨st, selected⟩ n member dotted
    obtain ⟨columns, projected, _⟩ := Outcome.bind_eq_ok.mp selected
    obtain ⟨column, resolved⟩ := (projection_eq_ok projected).2 n member
    rw [resolve_of_dot dotted] at resolved
    cases resolved
  · intro plain
    have each : ∀ n ∈ names, ∃ column, c.resolve n = .ok column := by
      intro n member
      have listed : ∃ column ∈ c.entity.columns, (column.name == n) = true := by
        obtain ⟨column, inside, rfl⟩ := List.mem_map.mp (known n member)
        exact ⟨column, inside, beq_self_eq_true _⟩
      obtain ⟨column, found⟩ := Option.isSome_iff_exists.mp (List.find?_isSome.mpr listed)
      exact ⟨column, resolve_of_column? (plain n member) found⟩
    obtain ⟨st, finished⟩ := Buffer.exists_finish (d := c.dialect) (b := Buffer.empty.push
      ("SELECT " ++ columnText names ++ " FROM " ++ c.table)) (by simp [Buffer.empty])
    refine ⟨st, select_eq_ok.mpr ⟨projection_of_resolved each, fun b => rfl, _, rfl, finished⟩⟩

/-- The validators of a schema look every field up under its name as it is written. Where that name has
no blank at either end, it stands for the field's column in every request, unless it has a dot and is
refused in every request as a path. All columns can be selected by their names exactly if no name has
a dot. -/
theorem field_named_unless_dotted {types : Dialect} {s : Schema} {tableName : String}
    (derived : Entity.derive types.columnType s tableName = .ok c.entity) :
    (∀ edit config v, Validator.ofSchema s edit config = .ok v → v.fieldNames = s.fieldNames) ∧
    (∀ f ∈ s.fields, Text.trim f.name = f.name →
      ∃ sqlType, types.columnType f = .ok sqlType ∧
        let column := Entity.Draft.columnOf f sqlType
        column ∈ c.entity.columns ∧ column.name = f.name ∧
          if '.' ∈ f.name.toList then c.Refuses f.name (.nestedField f.name)
          else c.Denotes f.name column) ∧
    ((∃ st, c.select c.entity.columnNames .empty = .ok st) ↔
      ∀ n ∈ c.entity.columnNames, '.' ∉ n.toList) := by
  refine ⟨fun edit config v built => Validator.fieldNames_eq built, ?_, ?_⟩
  · intro f declared unpadded
    obtain ⟨sqlType, typed, found⟩ := Entity.column?_field derived declared
    refine ⟨sqlType, typed, List.mem_of_find?_eq_some found, unpadded, ?_⟩
    rw [unpadded] at found
    split
    · next dotted => exact refuses_of_resolve (resolve_of_dot dotted)
    · next plain => exact denotes_of_resolve (resolve_of_column? plain found)
  · exact exists_select_iff fun n member => member

/-! Boxes, one field of which has a dot in its name and another one blanks around it. -/

def boxSchema : Schema where
  name := "box"
  label := "box"
  description := ""
  fields := [⟨"id", "id", "", .string, .empty, false, none, [.primary]⟩,
    ⟨"size.x", "size.x", "", .integer, .empty, false, none, []⟩,
    ⟨" mark ", " mark ", "", .string, .empty, false, none, []⟩]
  rules := []

def boxes : Compiler where
  entity := {
    name := "box"
    tableName := "box"
    columns := [⟨"id", "character varying", false, none⟩, ⟨"size.x", "integer", true, none⟩,
      ⟨"mark", "character varying", true, none⟩]
    primaryKeys := ["id"]
    tenantKey := none
    uniqueKeys := [] }
  dialect := .postgres

theorem boxes_derive :
    Entity.derive Dialect.postgres.columnType boxSchema "" = .ok boxes.entity := rfl

theorem field_named_unless_dotted_boxes :
    boxes.Denotes "id" ⟨"id", "character varying", false, none⟩ ∧
    boxes.Refuses "size.x" (.nestedField "size.x") ∧
    ¬ ∃ st, boxes.select boxes.entity.columnNames .empty = .ok st := by
  obtain ⟨_, fields, selected⟩ := field_named_unless_dotted (c := boxes) boxes_derive
  refine ⟨?_, ?_, fun done => ?_⟩
  · obtain ⟨sqlType, typed, _, _, named⟩ := fields _ (.head _) (by decide)
    cases typed
    exact named
  · obtain ⟨_, _, _, _, refused⟩ := fields _ (.tail _ (.head _)) (by decide)
    exact refused
  · exact selected.mp done "size.x" (.tail _ (.head _)) (by decide)

/-- A row of all three fields that the validator takes. -/
def box : Record := .ofList [("id", .text "a"), ("size.x", .int 3), (" mark ", .text "b")]

/-- The validator reads all fields of a box, and a request can name only one of them: the name with a dot
is refused, the name with blanks is unknown, and the columns cannot be selected by their names. -/
theorem boxes_unnamed :
    Entity.derive Dialect.postgres.columnType boxSchema "" = .ok boxes.entity ∧
    (∃ v, Validator.ofSchema boxSchema false .standard = .ok v ∧ v.fieldNames = ["id", "size.x", " mark "] ∧
      v.validateRecord box = .ok ()) ∧
    (¬ ∃ column, boxes.Denotes "size.x" column) ∧ (¬ ∃ column, boxes.Denotes " mark " column) ∧
    boxes.bindRow box = .error (.unknownColumn "box" " mark ") ∧
    boxes.select boxes.entity.columnNames .empty = .error (.nestedField "size.x") := by
  refine ⟨boxes_derive, ⟨_, rfl, rfl, rfl⟩, ?_, ?_, rfl, rfl⟩
  · rintro ⟨_, names⟩
    cases names.projection
  · rintro ⟨_, names⟩
    cases names.projection

end Compiler

end EntitySchema.Sql
