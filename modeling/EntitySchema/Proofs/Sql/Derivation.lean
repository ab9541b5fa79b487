import EntitySchema.Proofs.Outcome
import EntitySchema.Sql.Entity
import Mathlib.Data.List.Nodup

/-!
What holds of every table that is derived from a schema: its columns have different names, and a key
is the name of a column that does not take null.
-/

namespace EntitySchema.Sql.Entity

/-- One of the columns has this name and does not take null. -/
def Requires (columns : List Column) (n : String) : Prop :=
  ∃ column ∈ columns, column.name = n ∧ column.nullable = false

theorem Requires.append {columns : List Column} {n : String} (required : Requires columns n)
    (more : List Column) : Requires (columns ++ more) n := by
  obtain ⟨column, member, rest⟩ := required
  exact ⟨column, List.mem_append_left more member, rest⟩

namespace Draft

variable {resolve : Field → Except DeriveError String} {entity : String} {d next : Draft} {f : Field}

def columnOf (f : Field) (sqlType : String) : Column where
  name := Text.trim f.name
  sqlType := sqlType
  nullable := !(f.required || f.isPrimary || f.isTenant)
  default := f.default

theorem nextTenant_eq_ok {column : String} {tenant : Option String} :
    d.nextTenant f column = .ok tenant ↔
      if f.isTenant then d.tenantKey = none ∧ tenant = some column else tenant = d.tenantKey := by
  unfold nextTenant
  cases f.isTenant with
  | false => simp [eq_comm]
  | true => cases d.tenantKey <;> simp [eq_comm]

/-- A field that is accepted has a name that no column before it has, and a type. -/
theorem addField_eq_ok : addField resolve entity d f = .ok next ↔
    (Text.trim f.name).isEmpty = false ∧ d.hasColumn (Text.trim f.name) = false ∧
    ∃ sqlType, resolve f = .ok sqlType ∧
    ∃ tenant, d.nextTenant f (Text.trim f.name) = .ok tenant ∧
      next = {
        columns := d.columns ++ [columnOf f sqlType]
        primaryKeys := if f.isPrimary then d.primaryKeys ++ [Text.trim f.name] else d.primaryKeys
        tenantKey := tenant
        uniqueFields :=
          if f.isUnique then d.uniqueFields ++ [Text.trim f.name] else d.uniqueFields } := by
  unfold addField
  by_cases blank : (Text.trim f.name).isEmpty = true
  · simp [blank]
  · by_cases known : d.hasColumn (Text.trim f.name) = true
    · simp [blank, known]
    · simp only [blank, known, Bool.false_eq_true, if_false, Outcome.bind_eq_ok, Except.ok.injEq,
        true_and]
      constructor
      · intro done
        obtain ⟨sqlType, typed, tenant, keyed, same⟩ := done
        exact ⟨sqlType, typed, tenant, keyed, same.symm⟩
      · intro done
        obtain ⟨sqlType, typed, tenant, keyed, same⟩ := done
        exact ⟨sqlType, typed, tenant, keyed, same.symm⟩

/-- What holds of a table at every point of its derivation. -/
structure Sound (d : Draft) : Prop where
  distinct : (d.columns.map Column.name).Nodup
  primary : ∀ n ∈ d.primaryKeys, Requires d.columns n
  tenant : ∀ n, d.tenantKey = some n → Requires d.columns n

theorem sound_empty : Sound empty where
  distinct := List.nodup_nil
  primary n member := by cases member
  tenant n keyed := by cases keyed

theorem Sound.addField (sound : d.Sound) (ok : addField resolve entity d f = .ok next) :
    next.Sound := by
  rw [addField_eq_ok] at ok
  obtain ⟨_, fresh, sqlType, _, tenant, keyed, rfl⟩ := ok
  have added (key : (f.isPrimary || f.isTenant) = true) :
      Requires (d.columns ++ [columnOf f sqlType]) (Text.trim f.name) := by
    refine ⟨columnOf f sqlType, List.mem_append_right _ (.head _), rfl, ?_⟩
    simp only [columnOf, Bool.or_assoc, key, Bool.or_true, Bool.not_true]
  refine ⟨?_, ?_, ?_⟩
  · have other : Text.trim f.name ∉ d.columns.map Column.name := by
      simpa [hasColumn] using fresh
    rw [List.map_append, List.map_singleton, ← List.concat_eq_append]
    exact sound.distinct.concat other
  · intro n member
    by_cases primary : f.isPrimary = true
    · rw [if_pos primary] at member
      rcases List.mem_append.mp member with before | now
      · exact (sound.primary n before).append _
      · rw [List.mem_singleton.mp now]
        exact added (by rw [primary, Bool.true_or])
    · rw [if_neg primary] at member
      exact (sound.primary n member).append _
  · intro n same
    subst same
    rw [nextTenant_eq_ok] at keyed
    by_cases holds : f.isTenant = true
    · rw [if_pos holds] at keyed
      rw [Option.some.inj keyed.2]
      exact added (by rw [holds, Bool.or_true])
    · rw [if_neg holds] at keyed
      exact (sound.tenant n keyed.symm).append _

theorem Sound.addFields {fields : List Field} (sound : d.Sound)
    (ok : fields.foldlM (Draft.addField resolve entity) d = .ok next) : next.Sound := by
  induction fields generalizing d with
  | nil =>
    cases ok
    exact sound
  | cons f rest ih =>
    rw [List.foldlM_cons, Outcome.bind_eq_ok] at ok
    obtain ⟨between, first, others⟩ := ok
    exact ih (sound.addField first) others

/-- The names of the columns of fields. -/
def namesOf (fields : List Field) : List String := fields.map fun f => Text.trim f.name

theorem mem_namesOf_filter {is : Field → Bool} {fields : List Field} {n : String} :
    n ∈ namesOf (fields.filter is) ↔ ∃ f ∈ fields, is f = true ∧ Text.trim f.name = n := by
  simp only [namesOf, List.mem_map, List.mem_filter, and_assoc]

theorem namesOf_concat (is : Field → Bool) (fields : List Field) (f : Field) :
    namesOf ((fields ++ [f]).filter is) =
      if is f then namesOf (fields.filter is) ++ [Text.trim f.name]
      else namesOf (fields.filter is) := by
  cases own : is f with
  | true => simp [namesOf, own]
  | false => simp [namesOf, own]

/-- The fields are told by the draft: each has a column, in their order, and the keys are the names of
those fields that say so. -/
structure Holds (resolve : Field → Except DeriveError String) (fields : List Field) (d : Draft) :
    Prop where
  columns : List.Forall₂ (fun f column => ∃ sqlType, resolve f = .ok sqlType ∧
    column = columnOf f sqlType) fields d.columns
  primary : d.primaryKeys = namesOf (fields.filter Field.isPrimary)
  tenant : d.tenantKey.toList = namesOf (fields.filter Field.isTenant)
  unique : d.uniqueFields = namesOf (fields.filter Field.isUnique)

theorem Holds.addField {fields : List Field} (holds : d.Holds resolve fields)
    (ok : addField resolve entity d f = .ok next) : next.Holds resolve (fields ++ [f]) := by
  rw [addField_eq_ok] at ok
  obtain ⟨_, _, sqlType, typed, tenant, keyed, rfl⟩ := ok
  refine ⟨?_, ?_, ?_, ?_⟩
  · exact List.rel_append holds.columns (.cons ⟨sqlType, typed, rfl⟩ .nil)
  · rw [namesOf_concat, ← holds.primary]
  · rw [nextTenant_eq_ok] at keyed
    rw [namesOf_concat, ← holds.tenant]
    by_cases own : f.isTenant = true
    · rw [if_pos own] at keyed ⊢
      rw [keyed.1, keyed.2]
      rfl
    · rw [if_neg own] at keyed ⊢
      rw [keyed]
  · rw [namesOf_concat, ← holds.unique]

theorem Holds.addFields {before fields : List Field} (holds : d.Holds resolve before)
    (ok : fields.foldlM (Draft.addField resolve entity) d = .ok next) :
    next.Holds resolve (before ++ fields) := by
  induction fields generalizing d before with
  | nil =>
    cases ok
    rw [List.append_nil]
    exact holds
  | cons f rest ih =>
    rw [List.foldlM_cons, Outcome.bind_eq_ok] at ok
    obtain ⟨between, first, others⟩ := ok
    have all := ih (holds.addField first) others
    rw [List.append_assoc] at all
    exact all

theorem holds_empty : empty.Holds resolve [] := ⟨.nil, rfl, rfl, rfl⟩

theorem holds_of_drafted {fields : List Field}
    (drafted : fields.foldlM (Draft.addField resolve entity) empty = .ok d) : d.Holds resolve fields :=
  holds_empty.addFields drafted

end Draft

variable {resolve : Field → Except DeriveError String} {s : Schema} {tableName : String} {e : Entity}

/-- A table that is derived has the columns and keys of the draft of all its fields. -/
theorem derive_eq_ok : derive resolve s tableName = .ok e ↔
    (Text.trim s.name).isEmpty = false ∧
    ∃ draft, s.fields.foldlM (Draft.addField resolve (Text.trim s.name)) Draft.empty = .ok draft ∧
    ∃ groups, s.rules.mapM (Draft.ruleGroup (Text.trim s.name) draft) = .ok groups ∧
      draft.primaryKeys.isEmpty = false ∧
      e = {
        name := Text.trim s.name
        tableName :=
          if (Text.trim tableName).isEmpty then Text.trim s.name else Text.trim tableName
        columns := draft.columns
        primaryKeys := draft.primaryKeys
        tenantKey := draft.tenantKey
        uniqueKeys := normalGroups (draft.uniqueFields.map (fun c => [c]) ++ groups) } := by
  unfold derive
  by_cases blank : (Text.trim s.name).isEmpty = true
  · simp [blank]
  · simp only [blank, Bool.false_eq_true, if_false, Outcome.bind_eq_ok, true_and]
    refine exists_congr fun draft => and_congr_right fun _ => exists_congr fun groups =>
      and_congr_right fun _ => ?_
    cases draft.primaryKeys.isEmpty with
    | true => simp
    | false =>
      simp only [Bool.false_eq_true, if_false, Except.ok.injEq, true_and]
      exact eq_comm

theorem nodup_columns (derived : derive resolve s tableName = .ok e) :
    (e.columns.map Column.name).Nodup := by
  rw [derive_eq_ok] at derived
  obtain ⟨_, draft, drafted, _, _, _, rfl⟩ := derived
  exact (Draft.sound_empty.addFields drafted).distinct

/-- Every column is found by its name. -/
theorem column?_of_mem (derived : derive resolve s tableName = .ok e) {column : Column}
    (member : column ∈ e.columns) : e.column? column.name = some column :=
  Outcome.find?_of_mem (nodup_columns derived) member

/-- Key columns are found by their names, and do not take null. -/
theorem column?_key (derived : derive resolve s tableName = .ok e) {n : String}
    (key : e.isKey n = true) :
    ∃ column, e.column? n = some column ∧ column.name = n ∧ column.nullable = false := by
  have required : Requires e.columns n := by
    rw [derive_eq_ok] at derived
    obtain ⟨_, draft, drafted, _, _, _, rfl⟩ := derived
    have sound := Draft.sound_empty.addFields drafted
    rw [isKey, Bool.or_eq_true, List.contains_iff_mem, beq_iff_eq] at key
    rcases key with primary | tenant
    · exact sound.primary n primary
    · exact sound.tenant n tenant
  obtain ⟨column, member, rfl, set⟩ := required
  exact ⟨column, column?_of_mem derived member, rfl, set⟩

theorem holds_of_derive (derived : derive resolve s tableName = .ok e) :
    List.Forall₂ (fun f column => ∃ sqlType, resolve f = .ok sqlType ∧
      column = Draft.columnOf f sqlType) s.fields e.columns ∧
    e.primaryKeys = Draft.namesOf (s.fields.filter Field.isPrimary) ∧
    e.tenantKey.toList = Draft.namesOf (s.fields.filter Field.isTenant) := by
  rw [derive_eq_ok] at derived
  obtain ⟨_, draft, drafted, _, _, _, rfl⟩ := derived
  have holds := Draft.holds_of_drafted drafted
  exact ⟨holds.columns, holds.primary, holds.tenant⟩

theorem exists_field_of_column (derived : derive resolve s tableName = .ok e) {column : Column}
    (member : column ∈ e.columns) : ∃ f ∈ s.fields, ∃ sqlType, resolve f = .ok sqlType ∧
      column = Draft.columnOf f sqlType :=
  Outcome.exists_of_mem_results (holds_of_derive derived).1 member

/-- The column of a field is found by the field's name. -/
theorem column?_field (derived : derive resolve s tableName = .ok e) {f : Field}
    (declared : f ∈ s.fields) : ∃ sqlType, resolve f = .ok sqlType ∧
      e.column? (Text.trim f.name) = some (Draft.columnOf f sqlType) := by
  obtain ⟨columns, _⟩ := holds_of_derive derived
  obtain ⟨column, member, sqlType, typed, rfl⟩ := Outcome.exists_of_mem_sources columns declared
  exact ⟨sqlType, typed, column?_of_mem derived member⟩

/-- A key column is the column of a field that is a primary or the tenant key. -/
theorem exists_field_of_isKey (derived : derive resolve s tableName = .ok e) {n : String}
    (key : e.isKey n = true) :
    ∃ f ∈ s.fields, (f.isPrimary || f.isTenant) = true ∧ Text.trim f.name = n := by
  obtain ⟨_, primary, tenant⟩ := holds_of_derive derived
  rw [isKey, Bool.or_eq_true, List.contains_iff_mem, beq_iff_eq] at key
  rcases key with first | last
  · rw [primary] at first
    obtain ⟨f, declared, own, named⟩ := Draft.mem_namesOf_filter.mp first
    exact ⟨f, declared, by rw [own, Bool.true_or], named⟩
  · have listed : n ∈ e.tenantKey.toList := Option.mem_toList.mpr last
    rw [tenant] at listed
    obtain ⟨f, declared, own, named⟩ := Draft.mem_namesOf_filter.mp listed
    exact ⟨f, declared, by rw [own, Bool.or_true], named⟩

theorem columnNames_eq (derived : derive resolve s tableName = .ok e) :
    e.columnNames = Draft.namesOf s.fields := by
  apply Outcome.eq_map_of_results
  rw [columnNames, List.forall₂_map_right_iff]
  refine (holds_of_derive derived).1.imp fun f column step => ?_
  obtain ⟨_, _, rfl⟩ := step
  rfl

/-- Fields have different names, blanks around them aside. -/
theorem field_unique (derived : derive resolve s tableName = .ok e) {f g : Field}
    (first : f ∈ s.fields) (second : g ∈ s.fields) (same : Text.trim f.name = Text.trim g.name) :
    f = g := by
  have distinct := nodup_columns derived
  rw [← columnNames, columnNames_eq derived] at distinct
  exact List.inj_on_of_nodup_map distinct first second same

end EntitySchema.Sql.Entity
