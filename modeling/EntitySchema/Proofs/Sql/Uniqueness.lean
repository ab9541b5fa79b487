import EntitySchema.Proofs.Sql.Definition
import EntitySchema.Proofs.Sql.WellFormed
import Mathlib.Data.Finset.Insert

/-!
What becomes of the groups that a schema declares unique. Groups are told apart by their joined names, so
a group is lost exactly if another one of the same joined name comes before it.
-/

namespace EntitySchema.Sql.Entity

open Draft

variable {resolve : Field → Except DeriveError String} {s : Schema} {tableName : String} {e : Entity}

/-- The table has a unique group for each set of columns that the schema declares unique, and no
other one. -/
def KeepsGroups (s : Schema) (e : Entity) : Prop :=
  ∀ columns : Finset String, (∃ g ∈ e.uniqueKeys, g.toFinset = columns) ↔
    columns.Nonempty ∧ ∃ g ∈ declaredGroups s, g.toFinset = columns

/-- Declared groups of the same joined name have the same columns. -/
def GroupsTold (s : Schema) : Prop :=
  ∀ g ∈ declaredGroups s, ∀ h ∈ declaredGroups s, g ≠ [] → h ≠ [] →
    groupKey (normalGroup g) = groupKey (normalGroup h) → g.toFinset = h.toFinset

theorem toFinset_nonempty {g : List String} : g.toFinset.Nonempty ↔ g ≠ [] :=
  List.toFinset_nonempty_iff g

theorem exists_declared (derived : derive resolve s tableName = .ok e) {g : List String}
    (member : g ∈ e.uniqueKeys) : ∃ h ∈ declaredGroups s, h ≠ [] ∧ g = normalGroup h := by
  rw [uniqueKeys_eq derived] at member
  obtain ⟨nonempty, h, declared, rfl⟩ := exists_of_mem_normalGroups member
  exact ⟨h, declared, fun none => nonempty (normalGroup_eq_nil.mpr none), rfl⟩

theorem exists_kept (derived : derive resolve s tableName = .ok e) {g : List String}
    (declared : g ∈ declaredGroups s) (nonempty : g ≠ []) :
    ∃ kept ∈ e.uniqueKeys, groupKey kept = groupKey (normalGroup g) := by
  rw [uniqueKeys_eq derived]
  exact exists_mem_normalGroups declared nonempty

theorem keepsGroups_iff (derived : derive resolve s tableName = .ok e) :
    KeepsGroups s e ↔ GroupsTold s := by
  constructor
  · intro kept g first h second nonempty other same
    obtain ⟨k, member, columns⟩ := (kept g.toFinset).mpr ⟨toFinset_nonempty.mpr nonempty, g, first, rfl⟩
    obtain ⟨l, inside, others⟩ := (kept h.toFinset).mpr ⟨toFinset_nonempty.mpr other, h, second, rfl⟩
    have normal {k g : List String} (member : k ∈ e.uniqueKeys) (columns : k.toFinset = g.toFinset) :
        k = normalGroup g :=
      eq_of_toFinset_eq (group_normal derived member).2.1 (pairwise_normalGroup g)
        (columns.trans (toFinset_normalGroup g).symm)
    rw [← normal member columns, ← normal inside others] at same
    have distinct := nodup_keys_normalGroups (declaredGroups s)
    rw [← uniqueKeys_eq derived] at distinct
    rw [← columns, ← others, List.inj_on_of_nodup_map distinct member inside same]
  · intro told columns
    constructor
    · rintro ⟨g, member, rfl⟩
      obtain ⟨h, declared, nonempty, rfl⟩ := exists_declared derived member
      rw [toFinset_normalGroup]
      exact ⟨toFinset_nonempty.mpr nonempty, h, declared, rfl⟩
    · rintro ⟨nonempty, g, declared, rfl⟩
      rw [toFinset_nonempty] at nonempty
      obtain ⟨k, member, named⟩ := exists_kept derived declared nonempty
      refine ⟨k, member, ?_⟩
      obtain ⟨h, source, other, rfl⟩ := exists_declared derived member
      rw [toFinset_normalGroup]
      exact told h source g declared other nonempty named

/-- Names without a bar tell groups apart. -/
theorem groupsTold_of_plain (derived : derive resolve s tableName = .ok e)
    (plain : ∀ n ∈ e.columnNames, '|' ∉ n.toList) : GroupsTold s := by
  intro g first h second nonempty other same
  have names {g : List String} (declared : g ∈ declaredGroups s) :
      ∀ n ∈ normalGroup g, '|' ∉ n.toList := by
    intro n member
    exact plain n (declared_known derived declared n (mem_normalGroup.mp member))
  apply normalGroup_eq_iff.mp
  exact groupKey_inj (mt normalGroup_eq_nil.mp nonempty) (mt normalGroup_eq_nil.mp other) (names first)
    (names second) same

/-- Of the groups that a schema declares, the first of each joined name is kept, in order and without
repetitions. No set of columns is lost exactly if joined names tell the sets apart, as they do if no
name has a bar in it. The definition of the table has one clause for each kept group. -/
theorem unique_groups_kept (derived : derive resolve s tableName = .ok e) :
    (∀ g ∈ e.uniqueKeys, ∃ h ∈ declaredGroups s, h ≠ [] ∧ g = normalGroup h) ∧
    (∀ g ∈ declaredGroups s, g ≠ [] →
      ∃ kept ∈ e.uniqueKeys, groupKey kept = groupKey (normalGroup g)) ∧
    (KeepsGroups s e ↔ GroupsTold s) ∧
    ((∀ n ∈ e.columnNames, '|' ∉ n.toList) → KeepsGroups s e) ∧
    ((∀ column ∈ e.columns, Compiler.Legible column.sqlType) →
      ∀ (d : Dialect) (table : Statement), (Compiler.mk e d).createTable = .ok table →
        ∃ ts, Token.tokens? table.sql = some ts ∧ uniqueGroups ts = e.uniqueKeys) := by
  refine ⟨fun g member => exists_declared derived member,
    fun g declared nonempty => exists_kept derived declared nonempty, keepsGroups_iff derived, ?_, ?_⟩
  · intro plain
    exact (keepsGroups_iff derived).mpr (groupsTold_of_plain derived plain)
  · intro legible d table ok
    exact (Compiler.createTable_uniques ok legible fun g member => (group_normal derived member).1).2

/-- The columns of a table that is derived with the types of a dialect are legible. -/
theorem legible_of_derive {d : Dialect} (derived : derive d.columnType s tableName = .ok e) :
    ∀ column ∈ e.columns, Compiler.Legible column.sqlType := by
  intro column member
  obtain ⟨f, _, sqlType, typed, rfl⟩ := exists_field_of_column derived member
  exact Dialect.legible_columnType typed

/-- Members with a key `a`, a column `b` and a unique third one, where `b` and `a` together are
unique. -/
def memberSchema (third : String) : Schema where
  name := "Member"
  label := "Member"
  description := ""
  fields := [⟨"a", "a", "", .string, .empty, false, none, [.primary]⟩,
    ⟨"b", "b", "", .string, .empty, false, none, []⟩,
    ⟨third, third, "", .string, .empty, false, none, [.unique]⟩]
  rules := [.unique ["b", "a"]]

theorem normalGroup_member : normalGroup ["b", "a"] = ["a", "b"] := by
  rw [← normalGroup_of_sorted (g := ["a", "b"]) (by decide), normalGroup_eq_iff]
  decide

theorem unique_groups_kept_members : ∃ e,
    derive Dialect.postgres.columnType (memberSchema "c") "" = .ok e ∧
    KeepsGroups (memberSchema "c") e ∧
    ∃ table ts, (Compiler.mk e .postgres).createTable = .ok table ∧
      Token.tokens? table.sql = some ts ∧ uniqueGroups ts = e.uniqueKeys := by
  obtain ⟨e, derived⟩ : ∃ e, derive Dialect.postgres.columnType (memberSchema "c") "" = .ok e :=
    ⟨_, rfl⟩
  obtain ⟨_, _, _, plain, clauses⟩ := unique_groups_kept derived
  have names : ∀ n ∈ e.columnNames, '|' ∉ n.toList := by
    rw [columnNames_eq derived]
    decide
  obtain ⟨table, defined⟩ : ∃ table, (Compiler.mk e .postgres).createTable = .ok table := by
    refine Compiler.exists_createTable.mpr fun column member x held => ?_
    obtain ⟨f, declared, _, _, rfl⟩ := exists_field_of_column derived member
    have none : ∀ f ∈ (memberSchema "c").fields, f.default = none := by decide
    rw [Draft.columnOf, none f declared] at held
    cases held
  obtain ⟨ts, read, groups⟩ := clauses (legible_of_derive derived) .postgres table defined
  exact ⟨e, derived, plain names, table, ts, defined, read, groups⟩

/-- The columns `a` and `b` are not unique together beside a unique column `a|b`. -/
theorem barred_group_lost : ∃ e,
    derive Dialect.postgres.columnType (memberSchema "a|b") "" = .ok e ∧
    ["b", "a"] ∈ declaredGroups (memberSchema "a|b") ∧ e.uniqueKeys = [["a|b"]] ∧
    ¬ KeepsGroups (memberSchema "a|b") e := by
  have derived : derive Dialect.postgres.columnType (memberSchema "a|b") "" = .ok _ := rfl
  have declared : ["b", "a"] ∈ declaredGroups (memberSchema "a|b") := .tail _ (.head _)
  have kept : normalGroups (declaredGroups (memberSchema "a|b")) = [["a|b"]] := by
    have single : normalGroup ["a|b"] = ["a|b"] := normalGroup_of_sorted (List.pairwise_singleton _ _)
    have groups : declaredGroups (memberSchema "a|b") = [["a|b"], ["b", "a"]] := rfl
    rw [groups, normalGroups, List.map_cons, List.map_singleton, single, normalGroup_member]
    decide
  rw [← uniqueKeys_eq derived] at kept
  refine ⟨_, derived, declared, kept, fun keeps => ?_⟩
  obtain ⟨g, member, columns⟩ := (keeps ["b", "a"].toFinset).mpr ⟨by decide, _, declared, rfl⟩
  rw [kept, List.mem_singleton] at member
  rw [member] at columns
  revert columns
  decide

end EntitySchema.Sql.Entity
