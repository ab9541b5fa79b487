import EntitySchema.Proofs.Sql.Deletion
import EntitySchema.Proofs.Sql.Uniqueness
import EntitySchema.Proofs.Sql.Updating
import EntitySchema.Proofs.Text.Case

/-!
The table that a statement is about. A definition defines one table and a command changes one; both are
the table of the entity that the statement was compiled for, and its name is never blank.
-/

namespace EntitySchema.Sql

/-- The table that a command changes. -/
def Command.table : Command → String
  | .insert table _ _ => table
  | .update table _ _ => table
  | .delete table _ => table

/-- The tables of a database after a command. -/
def Command.change {α : Type} (db : Database α) (defaults : String → Row α)
    (tables : String → List (Row α)) (cmd : Command) : String → List (Row α) :=
  Function.update tables cmd.table (cmd.run db (defaults cmd.table) (tables cmd.table))

theorem Command.change_of_ne {α : Type} (db : Database α) (defaults : String → Row α)
    (tables : String → List (Row α)) {cmd : Command} {table : String} (other : table ≠ cmd.table) :
    cmd.change db defaults tables table = tables table :=
  Function.update_of_ne other _ _

/-- The table that is defined, if it is not there. -/
def definedTable? : List Token → Option String
  | .word "CREATE" :: .word "TABLE" :: .word "IF" :: .word "NOT" :: .word "EXISTS" :: .name table ::
      .symbol "(" :: _ => some table
  | _ => none

namespace Compiler

variable {resolve : Field → Except DeriveError String} {schema : Schema} {tableName : String}
  {c : Compiler} {s : Statement}

/-- The statement was compiled to change rows. -/
inductive Mutates (c : Compiler) (s : Statement) : Prop
  | bulkInsert {rows : List Record} (ok : c.bulkInsert rows = .ok s)
  | insert {row : Record} (ok : c.insert row = .ok s)
  | updateByKey {row : Record} (ok : c.updateByKey row = .ok s)
  | deleteByEquality {filter : Record} (ok : c.deleteByEquality filter = .ok s)

/-- A statement that changes rows is a command on the table of its entity. -/
theorem Mutates.exists_command (derived : Entity.derive resolve schema tableName = .ok c.entity)
    (mutates : c.Mutates s) {text : String} (either : text = s.parameterized ∨ text = s.sql) :
    ∃ cmd, Command.ofText? text = some cmd ∧ cmd.table = c.entity.tableName := by
  have inserted {rows : List Record} (ok : c.bulkInsert rows = .ok s) :
      ∃ cmd, Command.ofText? text = some cmd ∧ cmd.table = c.entity.tableName := by
    obtain ⟨_, _, _, _, read, _⟩ := bulkInsert_command ok either
    exact ⟨_, read, rfl⟩
  cases mutates with
  | bulkInsert ok => exact inserted ok
  | insert ok => exact inserted ok
  | updateByKey ok =>
    obtain ⟨_, _, _, _, updates⟩ := updateByKey_divides derived ok
    obtain ⟨_, _, _, read, _⟩ := updates text either
    exact ⟨_, read, rfl⟩
  | deleteByEquality ok =>
    obtain ⟨_, deletes⟩ := deleteByEquality_deletes ok (by simpa using either)
    exact ⟨_, deletes.command, rfl⟩

/-- A definition defines the table of its entity. -/
theorem createTable_defines (legible : ∀ column ∈ c.entity.columns, Legible column.sqlType)
    (ok : c.createTable = .ok s) {text : String} (either : text = s.parameterized ∨ text = s.sql) :
    (Token.tokens? text).bind definedTable? = some c.entity.tableName := by
  obtain ⟨iss, spells, same, known⟩ := createTable_spells ok legible
  have read := Item.tokens?_write (Statement.fills_placeholders c.dialect)
    (tidy_tableItems (c := c) fun is member => (known is member).1)
  rw [spells.2] at read
  have text : text = s.sql := by
    rcases either with rfl | rfl
    · rw [same]
    · rfl
  rw [text, read]
  rfl

end Compiler

namespace Entity

variable {resolve : Field → Except DeriveError String} {s : Schema} {tableName : String} {e : Entity}

theorem exists_mark_of_derive (derived : derive resolve s tableName = .ok e) :
    ∃ c ∈ s.name.toList, Text.isBlank c = false := by
  by_contra none
  have blank : ∀ c ∈ s.name.toList, Text.isBlank c = true := by simpa using none
  have named := (derive_eq_ok.mp derived).1
  rw [Text.trim, Text.trimChars_eq_nil blank] at named
  cases named

/-- A table name with something in it is kept, without the blanks at its ends. -/
theorem toList_tableName (derived : derive resolve s tableName = .ok e)
    (mark : ∃ c ∈ tableName.toList, Text.isBlank c = false) :
    e.tableName.toList = Text.trimChars tableName.toList := by
  obtain ⟨_, draft, _, groups, _, _, rfl⟩ := derive_eq_ok.mp derived
  have some : ¬ (Text.trim tableName).isEmpty = true := by
    rw [String.isEmpty_iff, ← String.toList_inj, Text.toList_trim]
    exact Text.trimChars_ne_nil mark
  rw [if_neg some, Text.toList_trim]

end Entity

end EntitySchema.Sql
