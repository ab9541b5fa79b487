import EntitySchema.Proofs.Sql.Derivation
import EntitySchema.Proofs.Sql.Group
import EntitySchema.Proofs.Text.Blank

/-!
Which schemas have a table, and what every table that is derived fulfils. The schema may be any: nothing
is taken for granted of its names, its rules or the types of its fields.
-/

namespace EntitySchema

def EntityRule.columns : EntityRule → List String
  | .unique columns => columns

namespace Sql.Entity

open Draft

namespace Draft

variable {resolve : Field → Except DeriveError String} {entity : String} {d : Draft} {f : Field}
  {fields : List Field}

/-- The fields have names of their own and types, and one of them at most names the tenant. -/
structure Fits (resolve : Field → Except DeriveError String) (fields : List Field) : Prop where
  named : ∀ f ∈ fields, Text.trim f.name ≠ ""
  distinct : (namesOf fields).Nodup
  typed : ∀ f ∈ fields, ∃ sqlType, resolve f = .ok sqlType
  tenant : (fields.filter Field.isTenant).length ≤ 1

theorem Holds.hasColumn (holds : d.Holds resolve fields) {n : String} :
    d.hasColumn n = true ↔ n ∈ namesOf fields := by
  have names : d.columns.map Column.name = namesOf fields := by
    apply Outcome.eq_map_of_results
    rw [List.forall₂_map_right_iff]
    refine holds.columns.imp fun f column step => ?_
    obtain ⟨_, _, rfl⟩ := step
    rfl
  rw [← names, Draft.hasColumn, List.any_eq_true, List.mem_map]
  simp only [beq_iff_eq]

theorem Holds.tenant_none (holds : d.Holds resolve fields) :
    d.tenantKey = none ↔ fields.filter Field.isTenant = [] := by
  rw [← Option.toList_eq_nil_iff, holds.tenant, namesOf, List.map_eq_nil_iff]

/-- A further field is accepted if its name is new, it has a type and there is no second tenant. -/
theorem exists_addField (holds : d.Holds resolve fields) :
    (∃ next, addField resolve entity d f = .ok next) ↔
      Text.trim f.name ≠ "" ∧ Text.trim f.name ∉ namesOf fields ∧
      (∃ sqlType, resolve f = .ok sqlType) ∧
      (f.isTenant = true → fields.filter Field.isTenant = []) := by
  have named : (Text.trim f.name).isEmpty = false ↔ Text.trim f.name ≠ "" := by
    rw [← Bool.not_eq_true, String.isEmpty_iff]
  have keyed : (∃ tenant, d.nextTenant f (Text.trim f.name) = .ok tenant) ↔
      (f.isTenant = true → fields.filter Field.isTenant = []) := by
    simp only [nextTenant_eq_ok, ← holds.tenant_none]
    cases f.isTenant <;> simp
  rw [← named, ← holds.hasColumn, Bool.not_eq_true, ← keyed]
  simp only [addField_eq_ok]
  constructor
  · rintro ⟨_, named, fresh, sqlType, typed, tenant, keyed, _⟩
    exact ⟨named, fresh, ⟨sqlType, typed⟩, tenant, keyed⟩
  · rintro ⟨named, fresh, ⟨sqlType, typed⟩, tenant, keyed⟩
    exact ⟨_, named, fresh, sqlType, typed, tenant, keyed, rfl⟩

theorem fits_nil : Fits resolve [] where
  named := List.forall_mem_nil _
  distinct := List.nodup_nil
  typed := List.forall_mem_nil _
  tenant := Nat.zero_le 1

theorem fits_concat : Fits resolve (fields ++ [f]) ↔ Fits resolve fields ∧
    Text.trim f.name ≠ "" ∧ Text.trim f.name ∉ namesOf fields ∧
    (∃ sqlType, resolve f = .ok sqlType) ∧
    (f.isTenant = true → fields.filter Field.isTenant = []) := by
  have names : (namesOf (fields ++ [f])).Nodup ↔
      Text.trim f.name ∉ namesOf fields ∧ (namesOf fields).Nodup := by
    rw [namesOf, List.map_append, List.map_singleton, List.nodup_append_comm, List.singleton_append,
      List.nodup_cons]
    rfl
  have tenants : ((fields ++ [f]).filter Field.isTenant).length ≤ 1 ↔
      (fields.filter Field.isTenant).length ≤ 1 ∧
        (f.isTenant = true → fields.filter Field.isTenant = []) := by
    rw [List.filter_append, List.length_append, ← List.length_eq_zero_iff]
    cases own : f.isTenant with
    | false => simp [own]
    | true =>
      simp only [own, List.filter_cons_of_pos, List.filter_nil, List.length_singleton, forall_const]
      omega
  constructor
  · rintro ⟨named, distinct, typed, tenant⟩
    rw [List.forall_mem_append, List.forall_mem_singleton] at named typed
    obtain ⟨fresh, distinct⟩ := names.mp distinct
    obtain ⟨before, single⟩ := tenants.mp tenant
    exact ⟨⟨named.1, distinct, typed.1, before⟩, named.2, fresh, typed.2, single⟩
  · rintro ⟨⟨named, distinct, typed, tenant⟩, last, fresh, resolved, single⟩
    refine ⟨?_, names.mpr ⟨fresh, distinct⟩, ?_, tenants.mpr ⟨tenant, single⟩⟩
    · rw [List.forall_mem_append, List.forall_mem_singleton]
      exact ⟨named, last⟩
    · rw [List.forall_mem_append, List.forall_mem_singleton]
      exact ⟨typed, resolved⟩

/-- All fields are accepted, one after the other, if they fit together. -/
theorem exists_draft (resolve : Field → Except DeriveError String) (entity : String)
    (fields : List Field) :
    (∃ d, fields.foldlM (addField resolve entity) empty = .ok d) ↔ Fits resolve fields := by
  -- the last field is checked against all before it, so the induction is on the end of the list
  induction fields using List.reverseRecOn with
  | nil => exact iff_of_true ⟨empty, rfl⟩ fits_nil
  | append_singleton fields f ih =>
    rw [fits_concat, ← ih]
    simp only [List.foldlM_append, Outcome.bind_eq_ok]
    constructor
    · rintro ⟨next, d, drafted, last⟩
      refine ⟨⟨d, drafted⟩, ?_⟩
      rw [← exists_addField (holds_of_drafted drafted)]
      exact ⟨next, by simpa using last⟩
    · rintro ⟨⟨d, drafted⟩, accepted⟩
      obtain ⟨next, added⟩ := (exists_addField (holds_of_drafted drafted)).mpr accepted
      exact ⟨next, d, drafted, by simpa using added⟩

theorem ruleGroup_eq_ok (holds : d.Holds resolve fields) {r : EntityRule} {group : List String} :
    ruleGroup entity d r = .ok group ↔
      group = r.columns ∧ ∀ n ∈ r.columns, n ∈ namesOf fields := by
  cases r with
  | unique columns =>
    have known : columns.find? (fun c => !d.hasColumn c) = none ↔ ∀ n ∈ columns, n ∈ namesOf fields := by
      rw [List.find?_eq_none]
      simp only [Bool.not_eq_true', Bool.not_eq_false, holds.hasColumn]
    rw [ruleGroup, EntityRule.columns, ← known]
    cases columns.find? (fun c => !d.hasColumn c) with
    | none => simp [eq_comm]
    | some column => simp

theorem ruleGroups_eq_ok (holds : d.Holds resolve fields) {rules : List EntityRule}
    {groups : List (List String)} : rules.mapM (ruleGroup entity d) = .ok groups ↔
      groups = rules.map EntityRule.columns ∧ ∀ r ∈ rules, ∀ n ∈ r.columns, n ∈ namesOf fields := by
  rw [Outcome.mapM_eq_ok]
  simp only [ruleGroup_eq_ok holds]
  constructor
  · intro all
    refine ⟨Outcome.eq_map_of_results (all.imp fun _ _ => And.left), fun r member => ?_⟩
    obtain ⟨_, _, _, known⟩ := Outcome.exists_of_mem_sources all member
    exact known
  · rintro ⟨rfl, known⟩
    rw [List.forall₂_map_right_iff, List.forall₂_same]
    exact fun r member => ⟨rfl, known r member⟩

end Draft

variable {resolve : Field → Except DeriveError String} {s : Schema} {tableName : String} {e : Entity}

/-- The groups that a schema declares: those of single fields, and those of rules. -/
def declaredGroups (s : Schema) : List (List String) :=
  (namesOf (s.fields.filter Field.isUnique)).map (fun n => [n]) ++ s.rules.map EntityRule.columns

/-- What a schema has to fulfil to have a table. -/
structure Derivable (resolve : Field → Except DeriveError String) (s : Schema) : Prop where
  entity : Text.trim s.name ≠ ""
  fields : Fits resolve s.fields
  rules : ∀ r ∈ s.rules, ∀ n ∈ r.columns, n ∈ namesOf s.fields
  primary : ∃ f ∈ s.fields, f.isPrimary = true

theorem exists_derive : (∃ e, derive resolve s tableName = .ok e) ↔ Derivable resolve s := by
  have named : (Text.trim s.name).isEmpty = false ↔ Text.trim s.name ≠ "" := by
    rw [← Bool.not_eq_true, String.isEmpty_iff]
  have keyed {d : Draft} (holds : d.Holds resolve s.fields) : d.primaryKeys.isEmpty = false ↔
      ∃ f ∈ s.fields, f.isPrimary = true := by
    rw [holds.primary, namesOf, List.isEmpty_eq_false_iff_exists_mem]
    simp [List.mem_filter]
  simp only [derive_eq_ok, named]
  constructor
  · rintro ⟨e, entity, d, drafted, groups, grouped, primary, _⟩
    have holds := holds_of_drafted drafted
    exact ⟨entity, (exists_draft resolve _ _).mp ⟨d, drafted⟩, ((ruleGroups_eq_ok holds).mp grouped).2,
      (keyed holds).mp primary⟩
  · rintro ⟨entity, fields, rules, primary⟩
    obtain ⟨d, drafted⟩ := (exists_draft resolve (Text.trim s.name) _).mpr fields
    have holds := holds_of_drafted drafted
    exact ⟨_, entity, d, drafted, _, (ruleGroups_eq_ok holds).mpr ⟨rfl, rules⟩, (keyed holds).mpr primary,
      rfl⟩

theorem uniqueKeys_eq (derived : derive resolve s tableName = .ok e) :
    e.uniqueKeys = normalGroups (declaredGroups s) := by
  obtain ⟨_, d, drafted, groups, grouped, _, rfl⟩ := derive_eq_ok.mp derived
  have holds := holds_of_drafted drafted
  rw [((ruleGroups_eq_ok holds).mp grouped).1, holds.unique]
  rfl

theorem declared_known (derived : derive resolve s tableName = .ok e) {g : List String}
    (declared : g ∈ declaredGroups s) : ∀ n ∈ g, n ∈ e.columnNames := by
  rw [columnNames_eq derived]
  rcases List.mem_append.mp declared with single | rule
  · obtain ⟨n, unique, rfl⟩ := List.mem_map.mp single
    obtain ⟨f, member, _, rfl⟩ := mem_namesOf_filter.mp unique
    rw [List.forall_mem_singleton]
    exact List.mem_map_of_mem member
  · obtain ⟨r, member, rfl⟩ := List.mem_map.mp rule
    exact (exists_derive.mp ⟨e, derived⟩).rules r member

/-- What statements rely on. -/
structure WellFormed (e : Entity) : Prop where
  table : Text.trim e.tableName ≠ ""
  columns : e.columnNames.Nodup
  primary : e.primaryKeys ≠ []
  primary_distinct : e.primaryKeys.Nodup
  primary_order : e.primaryKeys.Sublist e.columnNames
  tenant : ∀ n, e.tenantKey = some n → n ∈ e.columnNames
  required : ∀ column ∈ e.columns, e.isKey column.name = true → column.nullable = false
  keys_distinct : e.keyColumns.Nodup
  keys : ∀ n, n ∈ e.keyColumns ↔ n ∈ e.columnNames ∧ e.isKey n = true
  groups : ∀ g ∈ e.uniqueKeys, g ≠ [] ∧ g.Pairwise (· < ·) ∧ ∀ n ∈ g, n ∈ e.columnNames
  groups_distinct : e.uniqueKeys.Nodup

theorem nodup_keyColumns (e : Entity) (distinct : e.primaryKeys.Nodup) : e.keyColumns.Nodup := by
  unfold keyColumns
  cases e.tenantKey with
  | none => exact distinct
  | some tenant =>
    dsimp only
    split_ifs with primary
    · exact distinct
    · rw [← List.concat_eq_append]
      exact distinct.concat fun known => primary (List.contains_iff_mem.mpr known)

theorem mem_keyColumns {n : String} : n ∈ e.keyColumns ↔ e.isKey n = true := by
  unfold keyColumns isKey
  rw [Bool.or_eq_true, List.contains_iff_mem, beq_iff_eq]
  cases e.tenantKey with
  | none => simp
  | some tenant =>
    dsimp only
    split_ifs with primary
    · rw [Option.some.injEq]
      refine (or_iff_left_of_imp ?_).symm
      rintro rfl
      exact List.contains_iff_mem.mp primary
    · rw [List.mem_append, List.mem_singleton, Option.some.injEq, eq_comm]

theorem table_named (derived : derive resolve s tableName = .ok e) : Text.trim e.tableName ≠ "" := by
  obtain ⟨named, d, _, _, _, _, rfl⟩ := derive_eq_ok.mp derived
  rw [← Bool.not_eq_true, String.isEmpty_iff] at named
  dsimp only
  split_ifs with blank
  · rwa [Text.trim_trim]
  · rw [Text.trim_trim]
    exact fun none => blank (String.isEmpty_iff.mpr none)

theorem isKey_known (derived : derive resolve s tableName = .ok e) {n : String}
    (key : e.isKey n = true) : n ∈ e.columnNames := by
  obtain ⟨f, member, _, rfl⟩ := exists_field_of_isKey derived key
  rw [columnNames_eq derived]
  exact List.mem_map_of_mem member

theorem group_normal (derived : derive resolve s tableName = .ok e) {g : List String}
    (member : g ∈ e.uniqueKeys) : g ≠ [] ∧ g.Pairwise (· < ·) ∧ ∀ n ∈ g, n ∈ e.columnNames := by
  rw [uniqueKeys_eq derived] at member
  obtain ⟨nonempty, source, declared, rfl⟩ := exists_of_mem_normalGroups member
  refine ⟨nonempty, pairwise_normalGroup source, fun n inside => ?_⟩
  exact declared_known derived declared n (mem_normalGroup.mp inside)

theorem wellFormed_of_derive (derived : derive resolve s tableName = .ok e) : e.WellFormed := by
  obtain ⟨_, primary, tenant⟩ := holds_of_derive derived
  have order : e.primaryKeys.Sublist e.columnNames := by
    rw [primary, columnNames_eq derived]
    exact List.filter_sublist.map _
  have distinct : e.columnNames.Nodup := nodup_columns derived
  exact {
    table := table_named derived
    columns := distinct
    primary := by
      obtain ⟨f, member, own⟩ := (exists_derive.mp ⟨e, derived⟩).primary
      rw [primary]
      exact List.ne_nil_of_mem (mem_namesOf_filter.mpr ⟨f, member, own, rfl⟩)
    primary_distinct := distinct.sublist order
    primary_order := order
    tenant := fun n keyed => isKey_known derived (by rw [isKey, keyed, beq_self_eq_true, Bool.or_true])
    required := fun column member key => by
      obtain ⟨found, held, _, set⟩ := column?_key derived key
      rw [column?_of_mem derived member] at held
      exact Option.some.inj held ▸ set
    keys_distinct := nodup_keyColumns e (distinct.sublist order)
    keys := fun n => by
      rw [mem_keyColumns]
      exact ⟨fun key => ⟨isKey_known derived key, key⟩, And.right⟩
    groups := fun g member => group_normal derived member
    groups_distinct := by
      rw [uniqueKeys_eq derived]
      exact (nodup_keys_normalGroups _).of_map }

/-- A schema has a table exactly if its names, types, keys and rules fit together. The columns of the
table are those of the fields, in their order, and the table is well formed. -/
theorem derive_sound_and_complete (resolve : Field → Except DeriveError String) (s : Schema)
    (tableName : String) :
    ((∃ e, derive resolve s tableName = .ok e) ↔ Derivable resolve s) ∧
    ∀ e, derive resolve s tableName = .ok e →
      List.Forall₂ (fun f column => ∃ sqlType, resolve f = .ok sqlType ∧
        column = columnOf f sqlType) s.fields e.columns ∧
      e.primaryKeys = namesOf (s.fields.filter Field.isPrimary) ∧ e.WellFormed := by
  refine ⟨exists_derive, fun e derived => ?_⟩
  obtain ⟨columns, primary, _⟩ := holds_of_derive derived
  exact ⟨columns, primary, wellFormed_of_derive derived⟩

end Sql.Entity

end EntitySchema
