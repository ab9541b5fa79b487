import EntitySchema.Proofs.KeyMap
import EntitySchema.Proofs.Sql.Tenant

/-!
Updates by key. The entries of a row are divided between those that are assigned and the full key,
by which the rows to change are found; each entry is used once. A row without its full key, or with
nothing else, is refused.
-/

namespace EntitySchema.Sql

open Formula

/-! Columns that equal operands. -/

def Atom.equality (test : String × Token) : Atom := .compare test.1 "=" test.2

/-- Equalities with AND between each two, as they are read from the left. -/
def Formula.equalities? : List (String × Token) → Option (Formula Atom)
  | [] => none
  | first :: rest => some
      ((rest.map fun test => .atom (.equality test)).foldl (.pair .and) (.atom (.equality first)))

theorem Formula.equalities?_eq (tests : List (String × Token)) :
    equalities? tests = conjunction? (tests.map fun test => .atom (.equality test)) := by
  cases tests <;> rfl

theorem Formula.truth_equalities {α : Type} {tests : List (String × Token)} {f : Formula Atom}
    (read : equalities? tests = some f) (db : Database α) (row : Row α) :
    f.truth db row = .yes ↔ ∀ t ∈ tests, db.equal (row t.1) (db.read t.2) = .yes := by
  rw [equalities?_eq] at read
  rw [Formula.truth, value_conjunction? read, Truth.all_yes, List.map_map, List.forall_mem_map]
  rfl

namespace Command

theorem readings_pairs (d : Dialect) (fill : Nat → Token) (index : Nat)
    (pairs : List (Column × Value)) :
    (Test.numbered index (pairs.map pairTest)).map (Test.reading d fill) =
      (pairOperands fill index pairs).map fun test => .atom (.equality test) := by
  induction pairs generalizing index with
  | nil => rfl
  | cons p rest ih => exact congrArg (_ :: ·) (ih (index + 1))

/-- Pairs with AND between each two are read as the equalities of their columns and operands. -/
theorem parse?_pairs (d : Dialect) {fill : Nat → Token} (fills : IsFilling fill) (index : Nat)
    (pairs : List (Column × Value)) :
    parse? (Item.tokens fill index
        (Item.join Connective.and.items (pairs.map fun p => (pairTest p).items d))) =
      equalities? (pairOperands fill index pairs) := by
  cases pairs with
  | nil => rfl
  | cons p rest =>
    obtain ⟨f, parsed, read⟩ := tests_read d fills index (List.cons_ne_nil _ _)
      (Compiler.listed_pairTests (p :: rest))
    rw [← List.map_cons] at parsed read
    rw [readings_pairs, ← equalities?_eq] at read
    rw [List.map_map] at parsed
    exact parsed.trans read.symm

end Command

/-- In the text, the operands of the columns stand for these values. -/
def Statement.Gives (d : Dialect) (s : Statement) (text : String) (values : List (String × Value))
    (operands : List (String × Token)) : Prop :=
  List.Forall₂ (fun p x => x.1 = p.1 ∧ s.Denotes d text x.2 p.2) values operands

theorem Statement.IsForm.gives {d : Dialect} {s : Statement} {is : List Item} {text : String}
    {fill : Nat → Token} (form : s.IsForm d is text fill) (before : List Value)
    {pairs : List (Column × Value)} {after : List Value} (slots : s.params = before ++ pairs.map Prod.snd ++ after) :
    s.Gives d text (pairs.map fun p => (p.1.name, p.2))
      (Command.pairOperands fill before.length pairs) := by
  rw [Gives, List.forall₂_map_left_iff]
  apply Command.pairOperands_results
  intro i v slot
  have inside := (List.getElem?_eq_some_iff.mp slot).1
  apply form.denotes
  rw [slots, List.append_assoc, List.getElem?_append_right (Nat.le_add_right _ _),
    Nat.add_sub_cancel_left, List.getElem?_append_left inside]
  exact slot

namespace Compiler

variable {c : Compiler} {resolve : Field → Except DeriveError String} {schema : Schema}
  {tableName : String} {row : Record} {bound : List (Column × Value)}

/-- The column of this name turns `u` into `v`. -/
def Takes (c : Compiler) (name : String) (u v : Value) : Prop :=
  ∃ column, c.entity.column? name = some column ∧ column.convert u = .ok v

/-- The entries of the row are divided: `changes` are those of columns that are no keys, and `keys`
are those of the key columns, in the order of the key columns. -/
structure Divides (c : Compiler) (row : Record) (changes keys : List (String × Value)) : Prop where
  changes : List.Forall₂ (fun e p => p.1 = e.1 ∧ c.Takes e.1 e.2 p.2)
    (row.entries.filter fun e => !c.entity.isKey e.1) changes
  keys : List.Forall₂ (fun name p => p.1 = name ∧ p.2.isNull = false ∧
    ∃ u, row.get? name = some u ∧ c.Takes name u p.2) c.entity.keyColumns keys

/-- The text assigns the changes to the rows that have all the keys, and to no others. -/
def UpdatesWhere (c : Compiler) (s : Statement) (text : String)
    (changes keys : List (String × Value)) : Prop :=
  ∃ assignments tests filter,
    Command.ofText? text = some (.update c.entity.tableName assignments filter) ∧
    s.Gives c.dialect text changes assignments ∧ s.Gives c.dialect text keys tests ∧
    Formula.equalities? tests = some filter ∧
    ∀ (α : Type) (db : Database α) (row : Row α), filter.truth db row = .yes ↔
      ∀ t ∈ tests, db.equal (row t.1) (db.read t.2) = .yes

/-- The row misses part of its key, names a column that there is not, or has nothing to assign. -/
inductive Unusable (c : Compiler) (row : Record) : Prop where
  | keyless {key : String} (required : key ∈ c.entity.primaryKeys ∨ c.entity.tenantKey = some key)
    (missing : row.get? key = none ∨ row.get? key = some .null)
  | unknown {key : String} (present : key ∈ row.keys) (unknown : key ∉ c.entity.columnNames)
  | unchanged (all : ∀ key ∈ row.keys, key ∈ c.entity.columnNames → c.entity.isKey key = true)

/-- A row that passes the checks of an update has a value for every key. -/
theorem exists_key (tenanted : c.requireTenant row = .ok ())
    (primary : c.requirePrimaryKeys row = .ok ()) {key : String}
    (isKey : c.entity.isKey key = true) : ∃ u, row.get? key = some u := by
  rw [Entity.isKey, Bool.or_eq_true, List.contains_iff_mem, beq_iff_eq] at isKey
  rcases isKey with inside | keyed
  · exact requirePrimaryKeys_eq_ok.mp primary key inside
  · exact (requireTenant_eq_ok keyed).mp tenanted

theorem divides (derived : Entity.derive resolve schema tableName = .ok c.entity)
    (tenanted : c.requireTenant row = .ok ()) (primary : c.requirePrimaryKeys row = .ok ())
    (bind : c.bindRow row = .ok bound) :
    c.Divides row ((c.assigned bound).map fun b => (b.1.name, b.2))
      ((c.lookup bound).map fun b => (b.1.name, b.2)) where
  changes := by
    rw [List.forall₂_map_right_iff]
    have each : List.Forall₂ (fun e b => b.1.name = e.1 ∧ c.Takes e.1 e.2 b.2) row.entries bound :=
      (bindRow_eq_ok.mp bind).imp fun e b step =>
        ⟨(resolve_eq_ok step.1).2, b.1, resolve_column? step.1, step.2⟩
    refine List.rel_filter (fun e b step => ?_) each
    dsimp only at step ⊢
    rw [step.1]
  keys := by
    rw [List.forall₂_map_right_iff]
    apply Outcome.results_filterMap
    intro name member
    have key := Entity.mem_keyColumns.mp member
    obtain ⟨u, found⟩ := exists_key tenanted primary key
    obtain ⟨b, first, resolved, converted⟩ := find_key bind found key
    obtain ⟨column, known, _, set⟩ := Entity.column?_key derived key
    have same := resolve_column? resolved
    rw [known, Option.some.injEq] at same
    subst same
    exact ⟨b, first, (resolve_eq_ok resolved).2, (Column.convert_set set converted).2, u, found,
      b.1, known, converted⟩

variable {changes keys : List (String × Value)}

theorem Divides.names (divides : c.Divides row changes keys) :
    changes.map Prod.fst = row.keys.filter (fun name => !c.entity.isKey name) ∧
      keys.map Prod.fst = c.entity.keyColumns := by
  constructor
  · rw [KeyMap.keys, List.filter_map]
    apply Outcome.eq_map_of_results
    rw [List.forall₂_map_right_iff]
    exact divides.changes.imp fun e p step => step.1
  · rw [← List.map_id c.entity.keyColumns]
    apply Outcome.eq_map_of_results
    rw [List.forall₂_map_right_iff]
    exact divides.keys.imp fun name p step => step.1

/-- Every key of the row is used once. -/
theorem Divides.perm (divides : c.Divides row changes keys) (distinct : row.keys.Nodup)
    (single : c.entity.keyColumns.Nodup) : ((changes ++ keys).map Prod.fst).Perm row.keys := by
  have found : ∀ name ∈ c.entity.keyColumns, name ∈ row.keys := by
    intro name member
    obtain ⟨_, _, _, _, u, own, _⟩ := Outcome.exists_of_mem_sources divides.keys member
    exact List.mem_map_of_mem (Outcome.mem_of_lookup own)
  have same : c.entity.keyColumns.Perm (row.keys.filter c.entity.isKey) := by
    apply (List.perm_ext_iff_of_nodup single (distinct.filter _)).mpr
    intro name
    rw [List.mem_filter]
    exact ⟨fun member => ⟨found name member, Entity.mem_keyColumns.mp member⟩,
      fun both => Entity.mem_keyColumns.mpr both.2⟩
  rw [List.map_append, divides.names.1, divides.names.2]
  exact (List.perm_append_comm.trans (same.append_right _)).trans (List.filter_append_perm _ _)

theorem exists_keyColumn (derived : Entity.derive resolve schema tableName = .ok c.entity) :
    ∃ key, key ∈ c.entity.keyColumns := by
  obtain ⟨key, inside⟩ := List.exists_mem_of_ne_nil _ (Entity.wellFormed_of_derive derived).primary
  refine ⟨key, Entity.mem_keyColumns.mpr ?_⟩
  rw [Entity.isKey, List.contains_iff_mem.mpr inside, Bool.true_or]

theorem updateByKey_divides (derived : Entity.derive resolve schema tableName = .ok c.entity)
    {s : Statement} (ok : c.updateByKey row = .ok s) :
    ∃ changes keys, c.Divides row changes keys ∧ s.params = (changes ++ keys).map Prod.snd ∧
      ∀ text, text = s.parameterized ∨ text = s.sql → c.UpdatesWhere s text changes keys := by
  obtain ⟨bound, tenanted, primary, bind, changed, reads⟩ := updateByKey_reads ok
  have divided := divides derived tenanted primary bind
  have params : s.params = (c.assigned bound).map Prod.snd ++ (c.lookup bound).map Prod.snd := by
    rw [reads.params, params_updateItems, params_pairTests]
  refine ⟨_, _, divided, ?_, fun text either => ?_⟩
  · rw [params, List.map_append, List.map_map, List.map_map]
    rfl
  obtain ⟨fill, form⟩ := reads.isForm (c.tidy_updateItems _ _) either
  have changes := form.gives [] params
  have keys := form.gives _ (params.trans (List.append_nil _).symm)
  rw [List.length_map] at keys
  have read := Command.parse?_pairs c.dialect form.operands (c.assigned bound).length (c.lookup bound)
  -- the chain is not empty, as there is a key column and each has its test
  obtain ⟨f, tests⟩ : ∃ f, Formula.equalities?
      (Command.pairOperands fill (c.assigned bound).length (c.lookup bound)) = some f := by
    obtain ⟨key, inside⟩ := exists_keyColumn derived
    obtain ⟨p, member, _⟩ := Outcome.exists_of_mem_sources divided.keys inside
    cases found : c.lookup bound with
    | nil =>
      rw [found] at member
      cases member
    | cons b rest => exact ⟨_, rfl⟩
  refine ⟨_, _, f, ?_, changes, keys, tests, fun α db row => truth_equalities tests db row⟩
  rw [Command.ofText?, form.tokens, Option.bind_some]
  exact Command.ofTokens?_updateItems form.operands changed (read.trans tests)

theorem not_unusable (derived : Entity.derive resolve schema tableName = .ok c.entity)
    {s : Statement} (ok : c.updateByKey row = .ok s) : ¬c.Unusable row := by
  obtain ⟨bound, tenanted, primary, bind, changed, _⟩ := updateByKey_reads ok
  intro unusable
  cases unusable with
  | @keyless key required missing =>
    have isKey : c.entity.isKey key = true := by
      rwa [Entity.isKey, Bool.or_eq_true, List.contains_iff_mem, beq_iff_eq]
    obtain ⟨u, found⟩ := exists_key tenanted primary isKey
    obtain ⟨b, _, resolved, converted⟩ := find_key bind found isKey
    obtain ⟨column, known, _, set⟩ := Entity.column?_key derived isKey
    have same := resolve_column? resolved
    rw [known, Option.some.injEq] at same
    subst same
    have given := (Column.convert_set set converted).1
    rcases missing with absent | null
    · rw [absent] at found
      cases found
    · rw [null, Option.some.injEq] at found
      subst found
      cases given
  | @unknown key present unknown => exact unknown (keys_known bind key present)
  | unchanged all =>
    obtain ⟨b, member⟩ := List.exists_mem_of_ne_nil _ changed
    obtain ⟨inside, free⟩ := mem_assigned.mp member
    have present : b.1.name ∈ row.keys := names_bindRow bind ▸ List.mem_map_of_mem inside
    rw [all b.1.name present (bound_known bind b inside)] at free
    cases free

/-- An update assigns what a row has besides its key, to the rows with exactly its full key. A row that
misses part of its key, names an unknown column or has nothing to assign is refused. -/
theorem updateByKey_uses_full_key (c : Compiler) (resolve : Field → Except DeriveError String)
    (schema : Schema) (tableName : String)
    (derived : Entity.derive resolve schema tableName = .ok c.entity) :
    (∀ row s, c.updateByKey row = .ok s → ∃ changes keys, c.Divides row changes keys ∧
      s.params = (changes ++ keys).map Prod.snd ∧
      (∀ text ∈ [s.parameterized, s.sql], c.UpdatesWhere s text changes keys) ∧
      (row.Sorted → (changes.map Prod.fst).Pairwise (· < ·) ∧
        ((changes ++ keys).map Prod.fst).Perm row.keys)) ∧
    ∀ row, c.Unusable row → ∃ e, c.updateByKey row = .error e := by
  constructor
  · intro row s ok
    obtain ⟨changes, keys, divides, params, texts⟩ := updateByKey_divides derived ok
    refine ⟨changes, keys, divides, params, fun text member => texts text (by simpa using member),
      fun sorted => ⟨?_, ?_⟩⟩
    · rw [divides.names.1, KeyMap.keys]
      exact (List.pairwise_map.mpr sorted).filter _
    · exact divides.perm (KeyMap.Sorted.nodup sorted) (Entity.wellFormed_of_derive derived).keys_distinct
  · intro row unusable
    exact refused_of_never fun s ok => not_unusable derived ok unusable

unseal Text.Numeral.digits in
theorem updateByKey_uses_full_key_note :
    Entity.derive sqliteType notesSchema "notes" = .ok notes.entity ∧
    notes.updateByKey (note "it's") = .ok (noteUpdate "it's" "'it''s'") ∧
    (note "it's").Sorted ∧
    (∃ changes keys, notes.Divides (note "it's") changes keys ∧
      [.text "it's", .text "a", .text "t"] = (changes ++ keys).map Prod.snd ∧
      ((changes ++ keys).map Prod.fst).Perm ["body", "id", "tenant"]) ∧
    notes.Unusable ⟨[("id", .text "a"), ("tenant", .text "t")]⟩ ∧
    ∃ e, notes.updateByKey ⟨[("id", .text "a"), ("tenant", .text "t")]⟩ = .error e := by
  have full := updateByKey_uses_full_key notes sqliteType notesSchema "notes" rfl
  have sorted : (note "it's").Sorted := by
    rw [KeyMap.Sorted, note]
    decide
  have keyOnly : notes.Unusable ⟨[("id", .text "a"), ("tenant", .text "t")]⟩ :=
    .unchanged (by decide)
  obtain ⟨changes, keys, divides, params, _, once⟩ :=
    full.1 (note "it's") (noteUpdate "it's" "'it''s'") rfl
  exact ⟨rfl, rfl, sorted, ⟨changes, keys, divides, params, (once sorted).2⟩, keyOnly,
    full.2 _ keyOnly⟩

end Compiler

end EntitySchema.Sql
