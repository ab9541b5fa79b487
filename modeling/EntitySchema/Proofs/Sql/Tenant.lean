import EntitySchema.Proofs.Sql.Command
import EntitySchema.Proofs.Sql.Composition
import EntitySchema.Proofs.Sql.Form
import EntitySchema.Proofs.Sql.Request
import EntitySchema.Proofs.Sql.WellFormed

/-!
Tenants are kept apart. Rows are inserted for the tenants that they name, and updates and deletions
find rows of the given tenant alone. A row without a tenant is refused.
-/

namespace EntitySchema.Sql

open Formula

namespace Compiler

variable {c : Compiler} {resolve : Field → Except DeriveError String} {schema : Schema}
  {tableName tenant : String}

/-- The tenant of a row as it is bound: converted for the tenant column, and not null. -/
def HasTenant (c : Compiler) (tenant : String) (row : Record) (v : Value) : Prop :=
  v.isNull = false ∧ ∃ column u, c.entity.column? tenant = some column ∧
    row.get? tenant = some u ∧ column.convert u = .ok v

theorem isKey_tenant (keyed : c.entity.tenantKey = some tenant) : c.entity.isKey tenant = true := by
  rw [Entity.isKey, keyed, beq_self_eq_true, Bool.or_true]

theorem hasTenant (derived : Entity.derive resolve schema tableName = .ok c.entity)
    (keyed : c.entity.tenantKey = some tenant) {row : Record} {column : Column} {u v : Value}
    (found : row.get? tenant = some u) (resolved : c.resolve tenant = .ok column)
    (converted : column.convert u = .ok v) : c.HasTenant tenant row v := by
  obtain ⟨known, named, _, set⟩ := Entity.column?_key derived (isKey_tenant keyed)
  have same := resolve_column? resolved
  rw [named, Option.some.injEq] at same
  subst same
  exact ⟨(Column.convert_set set converted).2, known, u, named, found, converted⟩

/-! Insertions. -/

/-- The text inserts one tuple for each row, and the tenant column has the tenant of that row. -/
def InsertsOwn (c : Compiler) (tenant : String) (s : Statement) (text : String)
    (rows : List Record) : Prop :=
  ∃ columns tuples, Command.ofText? text = some (.insert c.entity.tableName columns tuples) ∧
    List.Forall₂ (fun row tuple => tuple.length = columns.length ∧
      ∃ x v, (columns.zip tuple).lookup tenant = some x ∧ s.Denotes c.dialect text x v ∧
        c.HasTenant tenant row v) rows tuples

/-- A batch that is accepted is read as an insertion of its tuples, value by value. -/
theorem bulkInsert_command {rows : List Record} {s : Statement} (ok : c.bulkInsert rows = .ok s)
    {text : String} (either : text = s.parameterized ∨ text = s.sql) :
    ∃ columns tuples operands, c.insertRows columns 0 rows = .ok tuples ∧
      Command.ofText? text = some (.insert c.entity.tableName columns operands) ∧
      List.Forall₂ (List.Forall₂ fun b x => s.Denotes c.dialect text x b.2) tuples operands := by
  obtain ⟨first, rest, tuples, rfl, some, checked, reads⟩ := bulkInsert_reads ok
  obtain ⟨fill, form⟩ := reads.isForm (c.tidy_insertItems _ _) either
  obtain ⟨named, nonempty, filled⟩ := insertRows_nonempty some checked
  refine ⟨first.keys, tuples, Command.tupleOperands fill 0 tuples, checked, ?_, ?_⟩
  · rw [Command.ofText?, form.tokens, Option.bind_some]
    exact Command.ofTokens?_insertItems form.operands named nonempty filled
  · apply Command.tuples_results
    intro i v slot
    rw [Nat.zero_add]
    apply form.denotes
    rw [reads.params, params_insertItems]
    exact slot

theorem bulkInsert_own (derived : Entity.derive resolve schema tableName = .ok c.entity)
    (keyed : c.entity.tenantKey = some tenant) {rows : List Record} {s : Statement}
    (ok : c.bulkInsert rows = .ok s) {text : String}
    (either : text = s.parameterized ∨ text = s.sql) : c.InsertsOwn tenant s text rows := by
  obtain ⟨columns, tuples, operands, checked, read, denoted⟩ := bulkInsert_command ok either
  refine ⟨columns, operands, read, ?_⟩
  refine (Outcome.results_trans (insertRows_eq_ok.mp checked) denoted).imp fun row tuple step => ?_
  obtain ⟨bound, ⟨tenanted, keys, bind⟩, filled⟩ := step
  have entries := Outcome.results_trans (bindRow_eq_ok.mp bind) filled
  obtain ⟨u, found⟩ := (requireTenant_eq_ok keyed).mp tenanted
  obtain ⟨x, place, b, ⟨resolved, converted⟩, denotes⟩ := Outcome.lookup_results entries found
  refine ⟨?_, x, b.2, ?_, denotes, hasTenant derived keyed found resolved converted⟩
  · rw [← keys, KeyMap.keys, List.length_map, entries.length_eq]
  · rw [← keys]
    exact place

/-! Updates and deletions. -/

/-- Where a conjunction is true, a column has the value that one of its tests asks for. -/
theorem conjunction_keeps {d : Dialect} {s : Statement} {is : List Item} {text : String}
    {fill : Nat → Token} (form : s.IsForm d is text fill) {before : List Value} {tests : List Test}
    (slots : s.params = before ++ tests.flatMap Test.params) (listed : ∀ t ∈ tests, t.IsListed)
    {column : Column} {v : Value} (member : .compare column .equals v ∈ tests) :
    ∃ f x, parse? (Item.tokens fill before.length
        (Item.join Connective.and.items (tests.map (Test.items d)))) = some f ∧
      s.Denotes d text x v ∧ f.KeepsTo column.name x := by
  obtain ⟨f, read, value⟩ :=
    conjunction_reads d form.operands before.length (List.ne_nil_of_mem member) listed
  rw [← Test.map_numbered before.length tests] at member
  obtain ⟨⟨i, _⟩, inside, rfl⟩ := List.mem_map.mp member
  refine ⟨f, fill i, read, ?_, ?_⟩
  · apply form.denotes
    rw [slots]
    exact Test.slots_numbered before tests _ inside 0 v rfl
  · intro α db row chosen
    have all : ∀ x ∈ Test.numbered before.length tests,
        Test.truth d fill (Atom.truth db row) x = .yes := by
      rw [Formula.truth, value, Truth.all_yes] at chosen
      exact fun x member => chosen _ (List.mem_map_of_mem member)
    exact all _ inside

/-- The text updates rows of the row's tenant alone, and their tenant stays. -/
def UpdatesOwn (c : Compiler) (tenant : String) (s : Statement) (text : String) (row : Record) :
    Prop :=
  ∃ assignments filter x v,
    Command.ofText? text = some (.update c.entity.tableName assignments filter) ∧
    s.Denotes c.dialect text x v ∧ c.HasTenant tenant row v ∧
    tenant ∉ assignments.map Prod.fst ∧ filter.KeepsTo tenant x ∧
    (Command.update c.entity.tableName assignments filter).Spares tenant x

/-- The text deletes rows of the row's tenant alone. -/
def DeletesOwn (c : Compiler) (tenant : String) (s : Statement) (text : String) (row : Record) :
    Prop :=
  ∃ filter x v, Command.ofText? text = some (.delete c.entity.tableName filter) ∧
    s.Denotes c.dialect text x v ∧ c.HasTenant tenant row v ∧ filter.KeepsTo tenant x ∧
    (Command.delete c.entity.tableName filter).Spares tenant x

theorem updateByKey_own (derived : Entity.derive resolve schema tableName = .ok c.entity)
    (keyed : c.entity.tenantKey = some tenant) {row : Record} {s : Statement}
    (ok : c.updateByKey row = .ok s) {text : String}
    (either : text = s.parameterized ∨ text = s.sql) : c.UpdatesOwn tenant s text row := by
  obtain ⟨bound, tenanted, _, bind, some, reads⟩ := updateByKey_reads ok
  obtain ⟨fill, form⟩ := reads.isForm (c.tidy_updateItems _ _) either
  obtain ⟨u, found⟩ := (requireTenant_eq_ok keyed).mp tenanted
  obtain ⟨b, inside, resolved, converted⟩ :=
    key_mem_lookup bind found (Entity.mem_keyColumns.mpr (isKey_tenant keyed)) (isKey_tenant keyed)
  have named : b.1.name = tenant := (resolve_eq_ok resolved).2
  -- the slots of the filter come after those of the assignments
  have slots := reads.params.trans (c.params_updateItems _ _)
  obtain ⟨f, x, read, denotes, keeps⟩ :=
    conjunction_keeps form slots (listed_pairTests _) (List.mem_map_of_mem (f := pairTest) inside)
  rw [named] at keeps
  have other : tenant ∉ (Command.pairOperands fill 0 (c.assigned bound)).map Prod.fst := by
    rw [Command.names_pairOperands]
    intro member
    obtain ⟨p, inside, same⟩ := List.mem_map.mp member
    have free := (mem_assigned.mp inside).2
    rw [same, isKey_tenant keyed] at free
    cases free
  rw [List.length_map, List.map_map] at read
  refine ⟨_, f, x, b.2, ?_, denotes, hasTenant derived keyed found resolved converted, other, keeps,
    keeps.update_spares _ other⟩
  rw [Command.ofText?, form.tokens, Option.bind_some]
  exact Command.ofTokens?_updateItems form.operands some read

theorem deleteByEquality_own (derived : Entity.derive resolve schema tableName = .ok c.entity)
    (keyed : c.entity.tenantKey = some tenant) {row : Record} {s : Statement}
    (ok : c.deleteByEquality row = .ok s) {text : String}
    (either : text = s.parameterized ∨ text = s.sql) : c.DeletesOwn tenant s text row := by
  obtain ⟨tests, _, tenanted, each, reads⟩ := deleteByEquality_reads ok
  obtain ⟨fill, form⟩ := reads.isForm (c.tidy_deleteItems _) either
  obtain ⟨u, found⟩ := (requireTenant_eq_ok keyed).mp tenanted
  obtain ⟨t, member, column, resolved, compared⟩ :=
    Outcome.exists_of_mem_sources each (Outcome.mem_of_lookup found)
  obtain ⟨known, column?, named, set⟩ := Entity.column?_key derived (isKey_tenant keyed)
  have same := resolve_column? resolved
  rw [column?, Option.some.injEq] at same
  subst same
  -- the tenant column takes no null, so the test is an equality and not one for null
  have equality : ∃ v, t = .compare known .equals v ∧ known.convert u = .ok v := by
    cases comparison_tested compared with
    | equalsNull null =>
      rw [set, Bool.and_false] at null
      cases null
    | compare _ converted => exact ⟨_, rfl, converted⟩
  obtain ⟨v, rfl, converted⟩ := equality
  have slots : s.params = [] ++ tests.flatMap Test.params :=
    reads.params.trans (c.params_deleteItems tests)
  obtain ⟨f, x, read, denotes, keeps⟩ :=
    conjunction_keeps form slots (listed_comparisons each) member
  rw [named] at keeps
  refine ⟨f, x, v, ?_, denotes, hasTenant derived keyed found resolved converted, keeps,
    keeps.delete_spares _⟩
  rw [Command.ofText?, form.tokens, Option.bind_some]
  exact Command.ofTokens?_deleteItems read

/-! Rows without a tenant. -/

/-- The row does not name its tenant, or has null for it. -/
def LacksTenant (tenant : String) (row : Record) : Prop :=
  row.get? tenant = none ∨ row.get? tenant = some .null

theorem HasTenant.notLacks (derived : Entity.derive resolve schema tableName = .ok c.entity)
    (keyed : c.entity.tenantKey = some tenant) {row : Record} {v : Value}
    (has : c.HasTenant tenant row v) : ¬LacksTenant tenant row := by
  obtain ⟨_, column, u, known, found, converted⟩ := has
  obtain ⟨other, again, _, set⟩ := Entity.column?_key derived (isKey_tenant keyed)
  rw [known, Option.some.injEq] at again
  subst again
  have given := (Column.convert_set set converted).1
  intro lacks
  rcases lacks with none | null
  · rw [none] at found
    cases found
  · rw [null] at found
    cases found
    cases given

theorem refused_of_never {α : Type} {x : Except SqlError α} (never : ∀ a, x ≠ .ok a) :
    ∃ e, x = .error e := by
  cases x with
  | error e => exact ⟨e, rfl⟩
  | ok a => exact absurd rfl (never a)

/-- Whatever the table holds, a statement touches the rows of the tenant in its payload alone, and a
row that lacks its tenant is refused with everything that comes with it. -/
theorem tenants_kept_apart (c : Compiler) (resolve : Field → Except DeriveError String)
    (schema : Schema) (tableName tenant : String)
    (derived : Entity.derive resolve schema tableName = .ok c.entity)
    (keyed : c.entity.tenantKey = some tenant) :
    (∀ rows s, c.bulkInsert rows = .ok s →
      ∀ text ∈ [s.parameterized, s.sql], c.InsertsOwn tenant s text rows) ∧
    (∀ row s, c.insert row = .ok s →
      ∀ text ∈ [s.parameterized, s.sql], c.InsertsOwn tenant s text [row]) ∧
    (∀ row s, c.updateByKey row = .ok s →
      ∀ text ∈ [s.parameterized, s.sql], c.UpdatesOwn tenant s text row) ∧
    (∀ row s, c.deleteByEquality row = .ok s →
      ∀ text ∈ [s.parameterized, s.sql], c.DeletesOwn tenant s text row) ∧
    ∀ row, LacksTenant tenant row →
      (∀ rows, row ∈ rows → ∃ e, c.bulkInsert rows = .error e) ∧
      (∃ e, c.insert row = .error e) ∧ (∃ e, c.updateByKey row = .error e) ∧
      ∃ e, c.deleteByEquality row = .error e := by
  have either {s : Statement} {text : String} (member : text ∈ [s.parameterized, s.sql]) :
      text = s.parameterized ∨ text = s.sql := by simpa using member
  refine ⟨?_, ?_, ?_, ?_, ?_⟩
  · exact fun rows s ok text member => bulkInsert_own derived keyed ok (either member)
  · exact fun row s ok text member => bulkInsert_own derived keyed ok (either member)
  · exact fun row s ok text member => updateByKey_own derived keyed ok (either member)
  · exact fun row s ok text member => deleteByEquality_own derived keyed ok (either member)
  · intro row lacks
    have batch : ∀ rows, row ∈ rows → ∃ e, c.bulkInsert rows = .error e := by
      intro rows member
      apply refused_of_never
      intro s ok
      obtain ⟨_, _, _, each⟩ := bulkInsert_own derived keyed ok (.inl rfl)
      obtain ⟨_, _, _, _, v, _, _, has⟩ := Outcome.exists_of_mem_sources each member
      exact has.notLacks derived keyed lacks
    refine ⟨batch, batch [row] (.head _), ?_, ?_⟩
    · apply refused_of_never
      intro s ok
      obtain ⟨_, _, _, v, _, _, has, _⟩ := updateByKey_own derived keyed ok (.inl rfl)
      exact has.notLacks derived keyed lacks
    · apply refused_of_never
      intro s ok
      obtain ⟨_, _, v, _, _, has, _⟩ := deleteByEquality_own derived keyed ok (.inl rfl)
      exact has.notLacks derived keyed lacks

unseal Text.Numeral.digits in
theorem tenants_kept_apart_notes :
    Entity.derive sqliteType notesSchema "notes" = .ok notes.entity ∧
    notes.updateByKey (note "it's") = .ok (noteUpdate "it's" "'it''s'") ∧
    notes.UpdatesOwn "tenant" (noteUpdate "it's" "'it''s'") (noteUpdate "it's" "'it''s'").sql
      (note "it's") ∧
    ∃ e, notes.insert ⟨[("id", .text "a"), ("tenant", .null)]⟩ = .error e :=
  have apart := tenants_kept_apart notes sqliteType notesSchema "notes" "tenant" rfl rfl
  ⟨rfl, rfl, apart.2.2.1 (note "it's") (noteUpdate "it's" "'it''s'") rfl _ (.tail _ (.head _)),
    (apart.2.2.2.2 ⟨[("id", .text "a"), ("tenant", .null)]⟩ (.inr rfl)).2.1⟩

end Compiler

end EntitySchema.Sql
