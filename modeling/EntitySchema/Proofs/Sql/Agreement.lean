import EntitySchema.Proofs.Sql.Composition
import EntitySchema.Proofs.Sql.Respelling
import EntitySchema.Proofs.Sql.Uniqueness

/-!
One entity in both dialects. A request is accepted in both or fails in both with the same error, and
its statements have the same parameters and are spelled alike.
-/

namespace EntitySchema.Sql

open Token

/-- Two texts have tokens, and these are spelled alike. -/
def Token.Respells (unlimited : Prop) (text other : String) : Prop :=
  ∃ ts us, tokens? text = some ts ∧ tokens? other = some us ∧ Respelled unlimited ts us

/-- The name of a type is made of whole tokens. -/
def Item.Whole (sqlType : String) : Prop := ∃ is, Spells sqlType is ∧ Tidy false is

theorem Compiler.Legible.whole {sqlType : String} (legible : Legible sqlType) : Item.Whole sqlType := by
  obtain ⟨is, spells, tidy, _⟩ := legible
  exact ⟨is, spells, tidy⟩

/-- A request has an offset and no limit. -/
def Request.Unlimited : Request → Prop
  | .select _ g => g.limit = none ∧ g.offset ≠ none
  | _ => False

/-- Statements in both dialects that are spelled alike. Their items are whole tokens where the types of
columns are. -/
def Statement.Respelled (unlimited whole : Prop) (s t : Statement) : Prop :=
  ∃ is js, s.Reads .postgres is ∧ t.Reads .sqlite js ∧ Item.Respelled unlimited is js ∧
    (whole → Item.Tidy false is ∧ Item.Tidy false js)

namespace Statement.Respelled

variable {unlimited whole : Prop} {s t : Statement}

theorem params (respelled : Respelled unlimited whole s t) : s.params = t.params := by
  obtain ⟨is, js, reads, others, items, _⟩ := respelled
  rw [reads.params, others.params, items.params]

theorem respells (respelled : Respelled unlimited whole s t) (types : whole) :
    Respells unlimited s.parameterized t.parameterized ∧ Respells unlimited s.sql t.sql := by
  have same := respelled.params
  obtain ⟨is, js, reads, others, items, tidy⟩ := respelled
  obtain ⟨left, right⟩ := tidy types
  constructor
  · exact ⟨_, _, reads.tokens_parameterized left, others.tokens_parameterized right,
      items.tokens (fun index => .placeholder (index + 1)) 0⟩
  · refine ⟨_, _, reads.tokens_sql left, others.tokens_sql right, ?_⟩
    rw [← same]
    exact items.tokens (fun index => Dialect.respelling_literal _) 0

end Statement.Respelled

variable {unlimited whole : Prop}

/-- Buffers that are spelled alike are finished in both dialects, or in none because of the same
parameter. -/
theorem Buffer.Reads.agree {b c : Buffer} {is js : List Item} (reads : b.Reads is) (others : c.Reads js)
    (respelled : Item.Respelled unlimited is js)
    (tidy : whole → Item.Tidy false is ∧ Item.Tidy false js) :
    Outcome.Agree (Statement.Respelled unlimited whole) (b.finish .postgres) (c.finish .sqlite) := by
  have params : b.params.toList = c.params.toList := by
    rw [reads.params, others.params, respelled.params]
  have literals : Outcome.Agree (List.Forall₂ fun _ _ => True)
      (c.params.toList.mapM Dialect.postgres.literal) (c.params.toList.mapM Dialect.sqlite.literal) :=
    .mapM fun v _ => Dialect.literal_agree v
  have left := b.finish_agree .postgres
  rw [params] at left
  refine ((left.trans literals).trans (c.finish_agree .sqlite).symm).known.imp fun s t finished => ?_
  exact ⟨is, js, .ofBuffer reads finished.2.1, .ofBuffer others finished.2.2, respelled, tidy⟩

namespace Compiler

variable (e : Entity)

/-! Selections. -/

theorem respelled_tailItems (g : SearchGraph) :
    Item.Respelled (g.limit = none ∧ g.offset ≠ none) (tailItems ⟨e, .postgres⟩ g)
      (tailItems ⟨e, .sqlite⟩ g) := by
  refine (Item.Respelled.refl (orderItems g.order)).append ?_
  dsimp only
  rcases limit : g.limit with _ | n <;> rcases offset : g.offset with _ | m
  · exact .nil
  · exact .offset ⟨rfl, Option.some_ne_none m⟩ (.refl _)
  · exact .refl _
  · exact .refl _

theorem orderClause_agree (b c : Buffer) (order : List OrderBy) :
    Outcome.Agree (fun x y => x = writeOrder b order ∧ y = writeOrder c order)
      (orderClause ⟨e, .postgres⟩ b order) (orderClause ⟨e, .sqlite⟩ c order) := by
  have same : orderClause ⟨e, .sqlite⟩ c order = orderClause ⟨e, .postgres⟩ c order := rfl
  rw [same]
  cases sorted : orderClause ⟨e, .postgres⟩ b order with
  | ok ordered =>
    obtain ⟨always, _⟩ := orderClause_eq_ok sorted
    rw [always b, Except.ok.injEq] at sorted
    rw [always c]
    exact .ok ⟨sorted.symm, rfl⟩
  | error x =>
    unfold orderClause at sorted ⊢
    split_ifs at sorted ⊢
    rcases Outcome.bind_eq_error.mp sorted with failed | ⟨terms, _, wrong⟩
    · rw [failed]
      exact .error x
    · cases wrong

theorem whereClause_agree (unlimited : Prop) {b : Buffer} {is : List Item} (reads : b.Reads is)
    (filter : Option SearchNode) :
    Outcome.Agree (fun x y => ∃ k l, Option.Rel (Clause.Respelled unlimited) k l ∧
        x.Reads (is ++ whereItems k) ∧ y.Reads (is ++ whereItems l))
      (whereClause ⟨e, .postgres⟩ b filter) (whereClause ⟨e, .sqlite⟩ b filter) := by
  cases filter with
  | none => exact .ok ⟨none, none, .none, writeFilter_reads reads .none, writeFilter_reads reads .none⟩
  | some node =>
    refine (predicate?_agree unlimited e node).map fun p q same => ?_
    cases same with
    | none => exact ⟨none, none, .none, writeFilter_reads reads .none, writeFilter_reads reads .none⟩
    | some same =>
      obtain ⟨k, l, left, right, alike⟩ := same
      exact ⟨some k, some l, .some alike, writeFilter_reads reads (.some left),
        writeFilter_reads reads (.some right)⟩

theorem respelled_whereItems {k l : Option Clause}
    (alike : Option.Rel (Clause.Respelled unlimited) k l) :
    Item.Respelled unlimited (whereItems k) (whereItems l) ∧ Item.Tidy true (whereItems k) ∧
      Item.Tidy true (whereItems l) := by
  cases alike with
  | none => exact ⟨.nil, trivial, trivial⟩
  | some alike =>
    refine ⟨(Item.Respelled.refl _).append alike.items, ?_, ?_⟩
    · exact tidy_whereItems fun _ same => Option.some.inj same ▸ alike.left
    · exact tidy_whereItems fun _ same => Option.some.inj same ▸ alike.right

theorem select_agree (fields : List String) (g : SearchGraph) :
    Outcome.Agree (Statement.Respelled (g.limit = none ∧ g.offset ≠ none) whole)
      (select ⟨e, .postgres⟩ fields g) (select ⟨e, .sqlite⟩ fields g) := by
  refine (Outcome.Agree.refl (projection ⟨e, .postgres⟩ fields)).bind fun columns others known => ?_
  obtain ⟨rfl, projected⟩ := known
  obtain ⟨rfl, _⟩ := projection_eq_ok projected
  have head := Buffer.reads_empty.push (select_spells ⟨e, .postgres⟩ fields)
  refine (whereClause_agree e (g.limit = none ∧ g.offset ≠ none) head g.filter).bind
    fun x y filtered => ?_
  obtain ⟨k, l, alike, left, right⟩ := filtered
  refine (orderClause_agree e x y g.order).bind fun ordered sorted known => ?_
  obtain ⟨rfl, rfl⟩ := known
  have first := pagingClause_reads .postgres (writeOrder_reads left g.order) g.limit g.offset
  have second := pagingClause_reads .sqlite (writeOrder_reads right g.order) g.limit g.offset
  rw [List.append_assoc _ (orderItems g.order)] at first second
  obtain ⟨items, tidy, other⟩ := respelled_whereItems alike
  have front := tidy_selectItems ⟨e, .postgres⟩ fields
  refine first.agree second (((Item.Respelled.refl _).append items).append (respelled_tailItems e g)) ?_
  exact fun _ => ⟨(front.append tidy).append (tidy_tailItems ⟨e, .postgres⟩ g),
    (front.append other).append (tidy_tailItems ⟨e, .sqlite⟩ g)⟩

theorem compileFilter_agree (node : SearchNode) :
    Outcome.Agree (Option.Rel (Statement.Respelled unlimited whole))
      (compileFilter ⟨e, .postgres⟩ node) (compileFilter ⟨e, .sqlite⟩ node) := by
  refine (predicate?_agree unlimited e node).bind fun p q same => ?_
  cases same with
  | none => exact .ok .none
  | some same =>
    obtain ⟨k, l, left, right, alike⟩ := same
    exact (left.buffer.agree right.buffer alike.items fun _ => ⟨alike.left, alike.right⟩).map
      fun s t => .some

/-! Changes. -/

theorem insertRows_eq (columns : List String) (index : Nat) (rows : List Record) :
    insertRows ⟨e, .postgres⟩ columns index rows = insertRows ⟨e, .sqlite⟩ columns index rows := by
  induction rows generalizing index with
  | nil => rfl
  | cons row rest ih =>
    rw [insertRows, insertRows, ih]
    rfl

theorem bulkInsert_agree (rows : List Record) :
    Outcome.Agree (Statement.Respelled unlimited whole)
      (bulkInsert ⟨e, .postgres⟩ rows) (bulkInsert ⟨e, .sqlite⟩ rows) := by
  cases rows with
  | nil => exact .error _
  | cons first rest =>
    rw [bulkInsert, bulkInsert]
    split_ifs
    · exact .error _
    · rw [insertRows_eq]
      refine (Outcome.Agree.refl _).bind fun tuples others same => ?_
      obtain ⟨rfl, _⟩ := same
      exact (insertBuffer_reads ⟨e, .postgres⟩ first.keys tuples).agree
        (insertBuffer_reads ⟨e, .sqlite⟩ first.keys tuples) (.refl _)
        fun _ => ⟨tidy_insertItems _ _ _, tidy_insertItems _ _ _⟩

theorem updateByKey_agree (row : Record) :
    Outcome.Agree (Statement.Respelled unlimited whole)
      (updateByKey ⟨e, .postgres⟩ row) (updateByKey ⟨e, .sqlite⟩ row) := by
  unfold updateByKey
  simp only [List.partition_eq_filter_filter]
  refine (Outcome.Agree.refl (requireTenant ⟨e, .postgres⟩ row)).bind fun _ _ _ => ?_
  refine (Outcome.Agree.refl (requirePrimaryKeys ⟨e, .postgres⟩ row)).bind fun _ _ _ => ?_
  refine (Outcome.Agree.refl (bindRow ⟨e, .postgres⟩ row)).bind fun bound others same => ?_
  obtain ⟨rfl, _⟩ := same
  split_ifs
  · exact .error _
  · exact (updateBuffer_reads ⟨e, .postgres⟩ _ _).agree (updateBuffer_reads ⟨e, .sqlite⟩ _ _) (.refl _)
      fun _ => ⟨tidy_updateItems _ _ _, tidy_updateItems _ _ _⟩

theorem deleteByEquality_agree (row : Record) :
    Outcome.Agree (Statement.Respelled unlimited whole)
      (deleteByEquality ⟨e, .postgres⟩ row) (deleteByEquality ⟨e, .sqlite⟩ row) := by
  unfold deleteByEquality
  split_ifs
  · exact .error _
  · refine (Outcome.Agree.refl (requireTenant ⟨e, .postgres⟩ row)).bind fun _ _ _ => ?_
    refine (Outcome.Agree.refl _).bind fun tests others same => ?_
    obtain ⟨rfl, _⟩ := same
    have each : List.Forall₂ (Item.Respelled unlimited) (tests.map (Test.items .postgres))
        (tests.map (Test.items .sqlite)) := by
      rw [List.forall₂_map_left_iff, List.forall₂_map_right_iff, List.forall₂_same]
      exact fun t _ => t.respelled
    exact (deleteBuffer_reads ⟨e, .postgres⟩ tests).agree (deleteBuffer_reads ⟨e, .sqlite⟩ tests)
      ((Item.Respelled.refl _).append (.join _ each))
      fun _ => ⟨tidy_deleteItems _ _, tidy_deleteItems _ _⟩

/-! Definition of the table. A type that is not made of whole tokens is taken as one item. -/

/-- The type of a column as one item, whatever it is. -/
def singleType (column : Column) : List Item := [.word column.sqlType]

theorem spells_singleType (column : Column) : Item.Spells column.sqlType (singleType column) :=
  Item.spells_word column.sqlType

theorem exists_typeItems (column : Column) :
    ∃ type, Item.Spells column.sqlType type ∧ (Item.Whole column.sqlType → Item.Tidy false type) := by
  by_cases readable : Item.Whole column.sqlType
  · obtain ⟨type, spells, tidy⟩ := readable
    exact ⟨type, spells, fun _ => tidy⟩
  · exact ⟨singleType column, spells_singleType column, fun given => absurd given readable⟩

/-- The items of a definition, given those of the types. -/
def createItems (c : Compiler) (type : Column → List Item) : List Item :=
  c.tableItems (c.entity.columns.map fun column => definitionItems c.dialect column (type column))

theorem createTable_reads {c : Compiler} {s : Statement} (ok : c.createTable = .ok s)
    {type : Column → List Item} (spells : ∀ column, Item.Spells column.sqlType (type column)) :
    s.Reads c.dialect (c.createItems type) := by
  obtain ⟨texts, each, finished⟩ := createTable_eq_ok.mp ok
  have columns : List.Forall₂ Item.Spells texts
      (c.entity.columns.map fun column => definitionItems c.dialect column (type column)) := by
    rw [List.forall₂_map_right_iff]
    exact each.flip.imp fun text column done => columnDefinition_spells done (spells column)
  exact .ofBuffer (Buffer.reads_empty.push (tableText_spells columns)) finished

theorem tidy_createItems {c : Compiler} {s : Statement} (ok : c.createTable = .ok s)
    {type : Column → List Item}
    (tidy : ∀ column ∈ c.entity.columns, Item.Tidy false (type column)) :
    Item.Tidy false (c.createItems type) := by
  obtain ⟨texts, each, _⟩ := createTable_eq_ok.mp ok
  apply tidy_tableItems
  intro is member
  obtain ⟨column, inside, rfl⟩ := List.mem_map.mp member
  obtain ⟨text, _, done⟩ := Outcome.exists_of_mem_sources each inside
  exact tidy_definitionItems done (tidy column inside)

theorem respelled_definitionItems (column : Column) (type : List Item) :
    Item.Respelled unlimited (definitionItems .postgres column type)
      (definitionItems .sqlite column type) := by
  unfold definitionItems
  refine (Item.Respelled.refl _).append ?_
  cases column.default with
  | none => exact .nil
  | some v => exact .blank (.token (.same _) (.blank (.token (Dialect.respelling_literal v) .nil)))

theorem respelled_createItems (type : Column → List Item) :
    Item.Respelled unlimited (createItems ⟨e, .postgres⟩ type) (createItems ⟨e, .sqlite⟩ type) := by
  refine ((Item.Respelled.refl _).append (.join _ (List.rel_append ?_ ?_))).append (.refl _)
  · rw [List.forall₂_map_left_iff, List.forall₂_map_right_iff, List.forall₂_same]
    exact fun column _ => respelled_definitionItems column (type column)
  · rw [List.forall₂_same]
    exact fun is _ => .refl is

theorem columnDefinition_agree (column : Column) :
    Outcome.Agree (fun _ _ => True) (columnDefinition ⟨e, .postgres⟩ column)
      (columnDefinition ⟨e, .sqlite⟩ column) := by
  unfold columnDefinition
  cases column.default with
  | none => exact .ok trivial
  | some v =>
    have literals : Outcome.Agree (fun _ _ => True)
        ((Dialect.postgres.literal v).map (" DEFAULT " ++ ·))
        ((Dialect.sqlite.literal v).map (" DEFAULT " ++ ·)) :=
      (Dialect.literal_agree v).map fun _ _ => id
    exact literals.bind fun _ _ _ => .ok trivial

theorem createTable_agree (typed : whole → ∀ column ∈ e.columns, Item.Whole column.sqlType) :
    Outcome.Agree (Statement.Respelled unlimited whole) (createTable ⟨e, .postgres⟩)
      (createTable ⟨e, .sqlite⟩) := by
  have columns : Outcome.Agree (List.Forall₂ fun _ _ => True)
      (e.columns.mapM (columnDefinition ⟨e, .postgres⟩))
      (e.columns.mapM (columnDefinition ⟨e, .sqlite⟩)) :=
    .mapM fun column _ => columnDefinition_agree e column
  -- a text without slots can always be finished
  have finishes (text : String) (d : Dialect) : ∃ s, (Buffer.empty.push text).finish d = .ok s :=
    Buffer.exists_finish fun x member => absurd member List.not_mem_nil
  have texts (text other : String) : Outcome.Agree (fun _ _ => True)
      ((Buffer.empty.push text).finish .postgres) ((Buffer.empty.push other).finish .sqlite) := by
    obtain ⟨s, left⟩ := finishes text .postgres
    obtain ⟨t, right⟩ := finishes other .sqlite
    rw [left, right]
    exact .ok trivial
  have agree : Outcome.Agree (fun _ _ => True) (createTable ⟨e, .postgres⟩)
      (createTable ⟨e, .sqlite⟩) := columns.bind fun _ _ _ => texts _ _
  choose type spells tidy using exists_typeItems
  refine agree.known.imp fun s t done => ?_
  obtain ⟨_, left, right⟩ := done
  refine ⟨_, _, createTable_reads left spells, createTable_reads right spells,
    respelled_createItems e type, fun given => ?_⟩
  have each : ∀ column ∈ e.columns, Item.Tidy false (type column) :=
    fun column member => tidy column (typed given column member)
  exact ⟨tidy_createItems left each, tidy_createItems right each⟩

/-! Requests. -/

theorem run_agree (q : Request) :
    Outcome.Agree (Option.Rel (Statement.Respelled q.Unlimited
        (q = .createTable → ∀ column ∈ e.columns, Item.Whole column.sqlType)))
      (run ⟨e, .postgres⟩ q) (run ⟨e, .sqlite⟩ q) := by
  cases q with
  | createTable => exact (createTable_agree e fun given => given rfl).map fun _ _ => .some
  | select fields g => exact (select_agree e fields g).map fun _ _ => .some
  | filter node => exact compileFilter_agree e node
  | insert row => exact (bulkInsert_agree e [row]).map fun _ _ => .some
  | bulkInsert rows => exact (bulkInsert_agree e rows).map fun _ _ => .some
  | updateByKey row => exact (updateByKey_agree e row).map fun _ _ => .some
  | deleteByEquality row => exact (deleteByEquality_agree e row).map fun _ _ => .some

/-- One request to one entity is accepted in both dialects or fails in both with the same error. The
statements have the same parameters, and their tokens correspond but for the spelling. For a table with
types that are not made of whole tokens, this is so when each type is taken as one item. Entities that
are derived have no such types. -/
theorem dialects_agree :
    (∀ q : Request, Outcome.Agree (Option.Rel fun s t => s.params = t.params ∧
        ((q = .createTable → ∀ column ∈ e.columns, Item.Whole column.sqlType) →
          Respells q.Unlimited s.parameterized t.parameterized ∧ Respells q.Unlimited s.sql t.sql) ∧
        (q = .createTable → s.Reads .postgres (createItems ⟨e, .postgres⟩ singleType) ∧
          t.Reads .sqlite (createItems ⟨e, .sqlite⟩ singleType) ∧
          Item.Respelled q.Unlimited (createItems ⟨e, .postgres⟩ singleType)
            (createItems ⟨e, .sqlite⟩ singleType)))
      (run ⟨e, .postgres⟩ q) (run ⟨e, .sqlite⟩ q)) ∧
    ∀ (d : Dialect) (schema : Schema) (tableName : String),
      Entity.derive d.columnType schema tableName = .ok e →
        ∀ column ∈ e.columns, Item.Whole column.sqlType := by
  constructor
  · intro q
    refine (run_agree e q).known.imp fun r r' done => ?_
    obtain ⟨related, left, right⟩ := done
    cases related with
    | none => exact .none
    | some respelled =>
      refine .some ⟨respelled.params, respelled.respells, fun table => ?_⟩
      subst table
      exact ⟨createTable_reads (map_some_eq_ok.mp left) spells_singleType,
        createTable_reads (map_some_eq_ok.mp right) spells_singleType, respelled_createItems e _⟩
  · intro d schema tableName derived column member
    exact (Entity.legible_of_derive derived column member).whole

/-- The notes that begin with `50%`, but for three of them. -/
def otherNotes : Request :=
  .select ["id"] ⟨some (.leaf ⟨"body", .pattern .start false, [.text "50%"]⟩), [], none, some 3⟩

/-- What the dialects write for it, from the operator, the placeholder and what follows the pattern. -/
def otherNotesStatement (operator placeholder behind : String) : Statement :=
  let front := "SELECT \"id\" FROM \"notes\" WHERE \"body\" " ++ operator ++ " "
  ⟨front ++ placeholder ++ behind ++ " OFFSET 3", [.text "50\\%%"],
    front ++ "'50\\%%'" ++ behind ++ " OFFSET 3"⟩

unseal Text.Numeral.digits in
theorem dialects_agree_notes :
    run ⟨notes.entity, .postgres⟩ otherNotes = .ok (some (otherNotesStatement "ILIKE" "$1" "")) ∧
    run ⟨notes.entity, .sqlite⟩ otherNotes =
      .ok (some (otherNotesStatement "LIKE" "?1" " ESCAPE '\\' LIMIT -1")) ∧
    Respells otherNotes.Unlimited (otherNotesStatement "ILIKE" "$1" "").parameterized
      (otherNotesStatement "LIKE" "?1" " ESCAPE '\\' LIMIT -1").parameterized ∧
    ∀ column ∈ notes.entity.columns, Item.Whole column.sqlType := by
  have left : run ⟨notes.entity, .postgres⟩ otherNotes =
      .ok (some (otherNotesStatement "ILIKE" "$1" "")) := rfl
  have right : run ⟨notes.entity, .sqlite⟩ otherNotes =
      .ok (some (otherNotesStatement "LIKE" "?1" " ESCAPE '\\' LIMIT -1")) := rfl
  obtain ⟨agrees, derived⟩ := dialects_agree notes.entity
  have agree := agrees otherNotes
  rw [left, right] at agree
  cases agree with
  | ok related =>
    cases related with
    | some found =>
      exact ⟨left, right, (found.2.1 Request.noConfusion).1, derived .sqlite notesSchema "notes" rfl⟩

/-- A table of two columns. Each type has an apostrophe, and the text between these is one token. -/
def torn : Entity where
  name := "torn"
  tableName := "torn"
  columns := [⟨"a", "text '", true, some (.bool true)⟩, ⟨"b", "' text", true, none⟩]
  primaryKeys := ["a"]
  tenantKey := none
  uniqueKeys := []

def tornTable (literal : String) : Statement :=
  let sql := "CREATE TABLE IF NOT EXISTS \"torn\" (\"a\" text ' DEFAULT " ++ literal ++
    ", \"b\" ' text, PRIMARY KEY (\"a\"))"
  ⟨sql, [], sql⟩

def tornTokens (literal : String) : List Token :=
  [.word "CREATE", .word "TABLE", .word "IF", .word "NOT", .word "EXISTS", .name "torn", .symbol "(",
    .name "a", .word "text", .text (" DEFAULT " ++ literal ++ ", \"b\" "), .word "text", .symbol ",",
    .word "PRIMARY", .word "KEY", .symbol "(", .name "a", .symbol ")", .symbol ")"]

/-- Where a default comes to stand inside a token, its spelling changes this token. -/
theorem torn_table_differs :
    run ⟨torn, .postgres⟩ .createTable = .ok (some (tornTable "TRUE")) ∧
    run ⟨torn, .sqlite⟩ .createTable = .ok (some (tornTable "1")) ∧
    tokens? (tornTable "TRUE").sql = some (tornTokens "TRUE") ∧
    tokens? (tornTable "1").sql = some (tornTokens "1") ∧
    ∀ unlimited, ¬ Respelled unlimited (tornTokens "TRUE") (tornTokens "1") := by
  refine ⟨rfl, rfl, by decide +kernel, by decide +kernel, fun unlimited respelled => ?_⟩
  have kept := respelled.text_mem (s := " DEFAULT TRUE, \"b\" ") (by decide)
  exact absurd kept (by decide)

end Compiler

end EntitySchema.Sql
