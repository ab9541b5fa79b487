import EntitySchema.Proofs.Engine.Run
import EntitySchema.Proofs.Sql.Target

/-!
The tables of cached entities. Table names are made of names in lower case, so that entities whose names
differ in case alone have one table between them; all others have tables of their own, and no
statement for one of them changes the table of another.
-/

namespace EntitySchema

open Sql

/-- The names have one table behind the prefix: in lower case they differ in blanks at the end at most, and
at the front where the prefix is blank. -/
def EngineConfig.SharesTable (c : EngineConfig) (m n : String) : Prop :=
  if Text.blank c.tablePrefix then Text.trim (Text.lower m) = Text.trim (Text.lower n)
  else (Text.lower m).toList.rdropWhile Text.isBlank = (Text.lower n).toList.rdropWhile Text.isBlank

namespace EngineConfig

variable {c : EngineConfig} {m n : String}

theorem toList_tableName (c : EngineConfig) (n : String) :
    (c.tableName n).toList = c.tablePrefix.toList ++ (Text.lower n).toList :=
  String.toList_append

/-- Names that are not blank share a table exactly if their table names are the same when trimmed. -/
theorem sharesTable_iff (first : ∃ x ∈ m.toList, Text.isBlank x = false)
    (second : ∃ x ∈ n.toList, Text.isBlank x = false) :
    c.SharesTable m n ↔
      Text.trimChars (c.tableName m).toList = Text.trimChars (c.tableName n).toList := by
  have left := Text.exists_mark_lower first
  have right := Text.exists_mark_lower second
  rw [toList_tableName, toList_tableName, SharesTable]
  split_ifs with blank
  · have all : ∀ x ∈ c.tablePrefix.toList, Text.isBlank x = true := List.all_eq_true.mp blank
    rw [Text.trimChars_append_of_blank all, Text.trimChars_append_of_blank all, ← String.toList_inj,
      Text.toList_trim, Text.toList_trim]
  · have mark : ∃ x ∈ c.tablePrefix.toList, Text.isBlank x = false := by
      simpa [Text.blank] using blank
    rw [Text.trimChars_append_of_marks mark left, Text.trimChars_append_of_marks mark right,
      List.append_cancel_left_eq]

/-- Without blanks at their ends, names share a table exactly if they are the same in lower case. -/
theorem sharesTable_iff_lower (first : Text.trim m = m) (second : Text.trim n = n) :
    c.SharesTable m n ↔ Text.lower m = Text.lower n := by
  have kept {n : String} (trimmed : Text.trim n = n) : Text.trim (Text.lower n) = Text.lower n ∧
      (Text.lower n).toList.rdropWhile Text.isBlank = (Text.lower n).toList := by
    obtain ⟨front, back⟩ := Text.ends_of_trim_eq_self trimmed
    have head := Text.Case.head_lowerFrom [] front
    have last := Text.Case.last_lowerFrom [] back
    rw [← Text.toList_lower] at head last
    refine ⟨Text.trim_eq_self head last, List.rdropWhile_eq_self_iff.mpr fun some blank => ?_⟩
    rw [last _ (List.getLast?_eq_some_getLast some)] at blank
    cases blank
  rw [SharesTable, (kept first).1, (kept second).1, (kept first).2, (kept second).2, String.toList_inj,
    ite_self]

end EngineConfig

namespace Engine

variable {e : Engine} {m n : String} {t u : Toolbox}

theorem Sound.derived (sound : e.Sound) (found : e.toolbox? n = some t) :
    Entity.derive e.dialect.columnType t.schema (e.config.tableName n) = .ok t.entity := by
  obtain ⟨rfl, built⟩ := sound.built n t found
  exact built.entity

theorem Sound.exists_mark (sound : e.Sound) (found : e.toolbox? n = some t) :
    ∃ x ∈ n.toList, Text.isBlank x = false := by
  obtain ⟨rfl, built⟩ := sound.built n t found
  exact Entity.exists_mark_of_derive built.entity

/-- The table of a cached entity is its table name without the blanks at its ends. -/
theorem Sound.toList_tableName (sound : e.Sound) (found : e.toolbox? n = some t) :
    t.entity.tableName.toList = Text.trimChars (e.config.tableName n).toList := by
  apply Entity.toList_tableName (sound.derived found)
  obtain ⟨x, inside, mark⟩ := Text.exists_mark_lower (sound.exists_mark found)
  rw [EngineConfig.toList_tableName]
  exact ⟨x, List.mem_append_right _ inside, mark⟩

theorem Sound.tableName_eq_iff (sound : e.Sound) (first : e.toolbox? m = some t)
    (second : e.toolbox? n = some u) :
    t.entity.tableName = u.entity.tableName ↔ e.config.SharesTable m n := by
  rw [EngineConfig.sharesTable_iff (sound.exists_mark first) (sound.exists_mark second),
    ← sound.toList_tableName first, ← sound.toList_tableName second, String.toList_inj]

/-- What is compiled to define a table defines another one, and what is compiled to change rows leaves the
table as it is. -/
def Avoids (c : Compiler) (table : String) : Prop :=
  ∀ s, ∀ text ∈ [s.parameterized, s.sql],
    (c.createTable = .ok s →
      ∃ own, (Token.tokens? text).bind definedTable? = some own ∧ own ≠ table) ∧
    (c.Mutates s → ∃ cmd, Command.ofText? text = some cmd ∧
      ∀ (α : Type) (db : Database α) (defaults : String → Row α) (tables : String → List (Row α)),
        cmd.change db defaults tables table = tables table)

theorem Sound.avoids (sound : e.Sound) (found : e.toolbox? n = some t) {table : String}
    (other : table ≠ t.entity.tableName) : Avoids ⟨t.entity, e.dialect⟩ table := by
  intro s text member
  have either : text = s.parameterized ∨ text = s.sql := by simpa using member
  have derived := sound.derived found
  refine ⟨fun ok => ?_, fun mutates => ?_⟩
  · have legible := Entity.legible_of_derive derived
    exact ⟨_, Compiler.createTable_defines legible ok either, Ne.symm other⟩
  · obtain ⟨cmd, read, own⟩ := mutates.exists_command derived either
    exact ⟨cmd, read, fun α db defaults tables =>
      Command.change_of_ne db defaults tables (own ▸ other)⟩

end Engine

namespace Deployment

/-- In every run, two cached entities have one table exactly if their names share one, which names without
blanks at their ends do if they are the same in lower case. Where names do not share a table, no
statement for one of the entities defines or changes the table of the other. -/
theorem tables_shared_iff (calls : List Call) {i : Nat} {e : Engine}
    (there : (empty.run calls).engine? i = some e) {m n : String} {t u : Toolbox}
    (first : e.toolbox? m = some t) (second : e.toolbox? n = some u) :
    (t.entity.tableName = u.entity.tableName ↔ e.config.SharesTable m n) ∧
    (Text.trim m = m → Text.trim n = n →
      (e.config.SharesTable m n ↔ Text.lower m = Text.lower n)) ∧
    (¬ e.config.SharesTable m n →
      ∀ c, e.compiler? m = some c → Engine.Avoids c u.entity.tableName) := by
  have sound := (wired_run calls).sound i e there
  have shared := sound.tableName_eq_iff first second
  refine ⟨shared, EngineConfig.sharesTable_iff_lower, fun apart c compiled => ?_⟩
  rw [Engine.compiler?, first] at compiled
  cases compiled
  exact sound.avoids first fun same => apart (shared.mp same.symm)

/-- Notes under a name in lower case. -/
def smallNote : Schema := { noteSchema with name := "note" }

def taskSchema : Schema := { noteSchema with name := "Task" }

/-- An engine with three entities in its cache. -/
def casedCalls : List Call :=
  [.start ⟨"postgres", "app_", .standard⟩,
    .prepare 0 (fun _ _ => .ok [noteSchema, smallNote, taskSchema]) ["Note", "note", "Task"]]

theorem tables_shared_iff_notes : ∃ e t u v, (empty.run casedCalls).engine? 0 = some e ∧
    e.toolbox? "Note" = some t ∧ e.toolbox? "note" = some u ∧ e.toolbox? "Task" = some v ∧
    t.entity.tableName = u.entity.tableName ∧ t.entity.tableName ≠ v.entity.tableName ∧
    Engine.Avoids ⟨t.entity, .postgres⟩ v.entity.tableName := by
  refine ⟨_, _, _, _, rfl, rfl, rfl, rfl, ?_⟩
  obtain ⟨shared, lower, -⟩ := tables_shared_iff casedCalls (i := 0) rfl (m := "Note") (n := "note") rfl rfl
  obtain ⟨apart, other, avoids⟩ := tables_shared_iff casedCalls (i := 0) rfl (m := "Note") (n := "Task") rfl rfl
  have different : ¬ EngineConfig.SharesTable _ "Note" "Task" := fun same =>
    absurd ((other rfl rfl).mp same) (by decide)
  exact ⟨shared.mpr ((lower rfl rfl).mpr (by decide)), fun same => different (apart.mp same),
    avoids different _ rfl⟩

/-- Two entities with different names have one table between them. -/
theorem cased_notes_share_table : ∃ e t u, (empty.run casedCalls).engine? 0 = some e ∧
    e.toolbox? "Note" = some t ∧ e.toolbox? "note" = some u ∧
    t.entity.tableName = "app_note" ∧ u.entity.tableName = "app_note" :=
  ⟨_, _, _, rfl, rfl, rfl, rfl, rfl⟩

end Deployment

end EntitySchema
