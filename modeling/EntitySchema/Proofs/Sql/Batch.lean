import EntitySchema.Proofs.Sql.Updating

/-!
Insertions of several rows. A batch is its rows inserted one by one: they share the columns, their
parameters follow each other, and their tuples stand behind one head. Where the columns of a row differ,
its number is reported.
-/

namespace EntitySchema.Sql

theorem Part.text_congr {spell other : Nat → String} {parts : List Part}
    (same : ∀ index, .slot index ∈ parts → spell index = other index) :
    text spell parts = text other parts := by
  induction parts with
  | nil => rfl
  | cons part before ih =>
    have earlier := ih fun index member => same index (.tail _ member)
    cases part with
    | sql s => rw [text, text, earlier]
    | slot index => rw [text, text, earlier, same index (.head _)]

namespace Buffer

variable {α : Type} {d : Dialect}

/-- The text in which every slot is the literal of its parameter. -/
def rendered (b : Buffer) (d : Dialect) : String :=
  b.text fun index => d.literalText (b.params.getD index .null)

theorem rendered_push (b : Buffer) (s : String) : (b.push s).rendered d = b.rendered d ++ s :=
  b.text_push s _

theorem rendered_bind (b : Buffer) (v : Value) :
    (b.bind v).rendered d = b.rendered d ++ d.literalText v := by
  have earlier : b.text (fun index => d.literalText ((b.params.push v).getD index .null)) =
      b.rendered d := by
    apply Part.text_congr
    intro index member
    have inside := b.index_lt index member
    simp [Array.getElem_push_lt inside, inside, Nat.lt_succ_of_lt inside]
  rw [rendered, text_bind, params_bind, earlier]
  simp

/-- Items that are written one after the other have their texts between separators. -/
theorem rendered_separated {write : Buffer → α → Buffer} {text : α → String}
    (each : ∀ b x, (write b x).rendered d = b.rendered d ++ text x) (separator : String) (b : Buffer)
    (xs : List α) : (b.separated separator write xs).rendered d =
      b.rendered d ++ separator.intercalate (xs.map text) := by
  induction xs generalizing b with
  | nil => exact String.append_empty.symm
  | cons x rest ih =>
    cases rest with
    | nil => simp [separated, each]
    | cons y others =>
      rw [separated.eq_3 _ _ _ _ _ (List.cons_ne_nil y others), ih, rendered_push, each]
      simp only [List.map_cons, String.intercalate_cons_cons, String.append_assoc]

end Buffer

/-- The literals of values in parentheses. -/
def Dialect.tupleText (d : Dialect) (vs : List Value) : String :=
  "(" ++ ", ".intercalate (vs.map d.literalText) ++ ")"

namespace Compiler

variable {c : Compiler} {row : Record} {rows : List Record} {s : Statement}

theorem rendered_tuple (d : Dialect) (b : Buffer) (bound : List (Column × Value)) :
    (writeTuple b bound).rendered d = b.rendered d ++ d.tupleText (bound.map Prod.snd) := by
  have values := Buffer.rendered_separated (d := d) Buffer.rendered_bind ", " (b.push "(")
    (bound.map Prod.snd)
  rw [writeTuple, Buffer.rendered_push, values, Buffer.rendered_push, Dialect.tupleText]
  simp only [String.append_assoc]

/-- An insertion up to its first tuple. -/
def insertHead (c : Compiler) (columns : List String) : String :=
  "INSERT INTO " ++ c.table ++ " (" ++ nameList columns ++ ") VALUES "

theorem rendered_insertBuffer (columns : List String) (tuples : List (List (Column × Value))) :
    (c.insertBuffer columns tuples).rendered c.dialect = c.insertHead columns ++
      ", ".intercalate (tuples.map fun bound => c.dialect.tupleText (bound.map Prod.snd)) := by
  rw [insertBuffer, Buffer.rendered_separated (rendered_tuple c.dialect), Buffer.rendered_push]
  congr 1

/-- An insertion is finished when its values have literals. -/
theorem finish_insertBuffer {columns : List String} {tuples : List (List (Column × Value))} :
    (c.insertBuffer columns tuples).finish c.dialect = .ok s ↔
      (∀ bound ∈ tuples, ∀ b ∈ bound, ∃ literal, c.dialect.literal b.2 = .ok literal) ∧
      s = ⟨(c.insertBuffer columns tuples).text fun index => c.dialect.placeholder (index + 1),
        tuples.flatMap (List.map Prod.snd), (c.insertBuffer columns tuples).rendered c.dialect⟩ := by
  have params : (c.insertBuffer columns tuples).params.toList = tuples.flatMap (List.map Prod.snd) := by
    rw [(c.insertBuffer_reads _ _).params, params_insertItems]
  rw [Buffer.finish_eq_ok, params, Buffer.rendered]
  simp only [List.mem_flatMap, List.mem_map]
  constructor
  · intro given
    obtain ⟨literals, same⟩ := given
    exact ⟨fun bound listed b member => literals b.2 ⟨bound, listed, b, member, rfl⟩, same⟩
  · intro given
    obtain ⟨literals, same⟩ := given
    refine ⟨?_, same⟩
    intro v given
    obtain ⟨bound, listed, b, member, rfl⟩ := given
    exact literals bound listed b member

/-- The values of a row with these columns, once they have been checked. -/
structure Enters (c : Compiler) (columns : List String) (row : Record) (bound : List (Column × Value)) :
    Prop where
  tenant : c.requireTenant row = .ok ()
  keys : row.keys = columns
  bind : c.bindRow row = .ok bound

/-- A batch is accepted when its rows are bound to the same columns and can be finished. -/
theorem bulkInsert_eq_finish : c.bulkInsert rows = .ok s ↔
    rows ≠ [] ∧ ∃ columns tuples, columns ≠ [] ∧ List.Forall₂ (c.Enters columns) rows tuples ∧
      (c.insertBuffer columns tuples).finish c.dialect = .ok s := by
  have filled (row : Record) : row.isEmpty = false ↔ row.keys ≠ [] := by
    rw [KeyMap.isEmpty, List.isEmpty_eq_false_iff, KeyMap.keys, Ne, Ne, List.map_eq_nil_iff]
  rw [bulkInsert_eq_ok]
  constructor
  · intro given
    obtain ⟨first, rest, tuples, rfl, some, checked, finished⟩ := given
    refine ⟨List.cons_ne_nil _ _, first.keys, tuples, (filled first).mp some, ?_, finished⟩
    exact (insertRows_eq_ok.mp checked).imp fun row bound step => ⟨step.1, step.2.1, step.2.2⟩
  · intro given
    obtain ⟨nonempty, columns, tuples, some, entered, finished⟩ := given
    cases rows with
    | nil => exact absurd rfl nonempty
    | cons first rest =>
      have own : first.keys = columns := by
        cases entered with
        | cons bound _ => exact bound.keys
      subst own
      refine ⟨first, rest, tuples, rfl, (filled first).mpr some, ?_, finished⟩
      exact insertRows_eq_ok.mpr (entered.imp fun row bound step => ⟨step.tenant, step.keys, step.bind⟩)

theorem insert_eq_finish_single : c.insert row = .ok s ↔
    row.keys ≠ [] ∧ ∃ bound, c.Enters row.keys row bound ∧
      (c.insertBuffer row.keys [bound]).finish c.dialect = .ok s := by
  rw [insert, bulkInsert_eq_finish]
  constructor
  · intro given
    obtain ⟨_, columns, tuples, some, entered, finished⟩ := given
    cases entered with
    | @cons _ bound _ _ step rest =>
      cases rest
      have own := step.keys
      subst own
      exact ⟨some, bound, step, finished⟩
  · intro given
    obtain ⟨some, bound, step, finished⟩ := given
    exact ⟨List.cons_ne_nil _ _, row.keys, [bound], some, .cons step .nil, finished⟩

/-! The batch and its rows. -/

/-- The values are those of the row under these columns, each converted for its column. -/
def Aligned (c : Compiler) (columns : List String) (row : Record) (vs : List Value) : Prop :=
  List.Forall₂ (fun name v => ∃ u, row.get? name = some u ∧ c.Takes name u v) columns vs

/-- A batch in terms of the statements that insert its rows one by one. -/
structure Gathers (c : Compiler) (rows : List Record) (s : Statement) (columns : List String)
    (singles : List Statement) : Prop where
  sorted : columns.Pairwise (· < ·)
  keys : ∀ row ∈ rows, row.keys = columns
  inserted : List.Forall₂ (fun row one => c.insert row = .ok one) rows singles
  aligned : List.Forall₂ (fun row one => c.Aligned columns row one.params) rows singles
  literals : ∀ v ∈ s.params, ∃ literal, c.dialect.literal v = .ok literal
  params : s.params = singles.flatMap Statement.params
  own : ∀ one ∈ singles, one.sql = c.insertHead columns ++ c.dialect.tupleText one.params
  sql : s.sql = c.insertHead columns ++
    ", ".intercalate (singles.map fun one => c.dialect.tupleText one.params)

theorem Enters.aligned {columns : List String} {bound : List (Column × Value)} (sorted : row.Sorted)
    (step : c.Enters columns row bound) : c.Aligned columns row (bound.map Prod.snd) := by
  rw [Aligned, ← step.keys, KeyMap.keys, List.forall₂_map_left_iff, List.forall₂_map_right_iff]
  have found : ∀ e ∈ row.entries, row.get? e.1 = some e.2 := fun e member =>
    KeyMap.get?_eq_some_of_mem sorted.nodup member
  have each := (List.forall₂_and_left _ _).mpr ⟨found, bindRow_eq_ok.mp step.bind⟩
  exact each.imp fun e b given =>
    ⟨e.2, given.1, b.1, resolve_column? given.2.1, given.2.2⟩

/-- The statement that inserts one row with these values. -/
def single (c : Compiler) (columns : List String) (bound : List (Column × Value)) : Statement where
  parameterized :=
    (c.insertBuffer columns [bound]).text fun index => c.dialect.placeholder (index + 1)
  params := bound.map Prod.snd
  sql := c.insertHead columns ++ c.dialect.tupleText (bound.map Prod.snd)

theorem finish_single {columns : List String} {bound : List (Column × Value)}
    (literals : ∀ b ∈ bound, ∃ literal, c.dialect.literal b.2 = .ok literal) :
    (c.insertBuffer columns [bound]).finish c.dialect = .ok (c.single columns bound) := by
  apply finish_insertBuffer.mpr
  refine ⟨List.forall_mem_singleton.mpr literals, ?_⟩
  rw [rendered_insertBuffer, List.flatMap_singleton, List.map_singleton, String.intercalate_singleton]
  rfl

theorem Enters.insert {columns : List String} {bound : List (Column × Value)} (some : columns ≠ [])
    (step : c.Enters columns row bound)
    (literals : ∀ b ∈ bound, ∃ literal, c.dialect.literal b.2 = .ok literal) :
    c.insert row = .ok (c.single columns bound) := by
  have own := step.keys
  subst own
  exact insert_eq_finish_single.mpr ⟨some, bound, step, finish_single literals⟩

/-- The values of a row that can be inserted alone. -/
theorem enters_of_insert {one : Statement} (ok : c.insert row = .ok one) :
    row.keys ≠ [] ∧ ∃ bound, c.Enters row.keys row bound ∧
      ∀ b ∈ bound, ∃ literal, c.dialect.literal b.2 = .ok literal := by
  obtain ⟨some, bound, step, finished⟩ := insert_eq_finish_single.mp ok
  exact ⟨some, bound, step, (finish_insertBuffer.mp finished).1 bound (.head _)⟩

theorem requireTenant_of_contains
    (given : ∀ tenant, c.entity.tenantKey = some tenant → row.contains tenant = true) :
    c.requireTenant row = .ok () := by
  unfold requireTenant
  split
  · next tenant keyed => rw [if_pos (given tenant keyed)]
  · rfl

/-- The first row with other columns is reported, if nothing is wrong with the rows before it. -/
theorem insertRows_ragged {columns : List String} {index : Nat} {before behind : List Record}
    (each : ∀ other ∈ before, ∃ bound, c.Enters columns other bound)
    (tenant : c.requireTenant row = .ok ()) (differs : row.keys ≠ columns) :
    c.insertRows columns index (before ++ row :: behind) =
      .error (.raggedBatch (index + before.length)) := by
  induction before generalizing index with
  | nil =>
    have refused : c.insertRow columns index row = .error (.raggedBatch index) := by
      rw [insertRow, tenant, if_pos differs]
      rfl
    rw [List.nil_append, insertRows, refused]
    rfl
  | cons other rest ih =>
    obtain ⟨bound, step⟩ := each other (.head _)
    have first : c.insertRow columns index other = .ok bound :=
      insertRow_eq_ok.mpr ⟨step.tenant, step.keys, step.bind⟩
    have others : ∀ next ∈ rest, ∃ bound, c.Enters columns next bound := fun next member =>
      each next (.tail _ member)
    rw [List.cons_append, insertRows, first, List.length_cons]
    change (c.insertRows columns (index + 1) (rest ++ row :: behind) >>= _) = _
    rw [ih others, Nat.add_right_comm, Nat.add_assoc]
    rfl

theorem bulkInsert_ragged {before behind : List Record} (nonempty : before ≠ [])
    (alone : ∀ other ∈ before, ∃ one, c.insert other = .ok one)
    (alike : ∀ other ∈ before, ∀ next ∈ before, other.keys = next.keys)
    (tenant : c.requireTenant row = .ok ()) (differs : ∀ other ∈ before, row.keys ≠ other.keys) :
    c.bulkInsert (before ++ row :: behind) = .error (.raggedBatch before.length) := by
  cases before with
  | nil => exact absurd rfl nonempty
  | cons first rest =>
    obtain ⟨one, ok⟩ := alone first (.head _)
    have some : first.isEmpty = false := by
      rw [KeyMap.isEmpty, List.isEmpty_eq_false_iff]
      intro none
      exact (enters_of_insert ok).1 (by rw [KeyMap.keys, none, List.map_nil])
    have each : ∀ other ∈ first :: rest, ∃ bound, c.Enters first.keys other bound := by
      intro other member
      obtain ⟨single, inserted⟩ := alone other member
      obtain ⟨_, bound, step, _⟩ := enters_of_insert inserted
      exact ⟨bound, alike other member first (.head _) ▸ step⟩
    have refused : c.insertRows first.keys 0 (first :: rest ++ row :: behind) =
        .error (.raggedBatch (first :: rest).length) := by
      rw [insertRows_ragged each tenant (differs first (.head _)), Nat.zero_add]
    rw [List.cons_append] at refused ⊢
    rw [bulkInsert, if_neg (by simp [some]), refused]
    rfl

/-- The statement of a batch gathers those of its rows. -/
theorem exists_gathers (sorted : ∀ row ∈ rows, row.Sorted) (ok : c.bulkInsert rows = .ok s) :
    ∃ columns singles, c.Gathers rows s columns singles := by
  obtain ⟨nonempty, columns, tuples, some, entered, finished⟩ := bulkInsert_eq_finish.mp ok
  obtain ⟨literals, rfl⟩ := finish_insertBuffer.mp finished
  have keys : ∀ row ∈ rows, row.keys = columns := by
    intro row member
    obtain ⟨bound, _, step⟩ := Outcome.exists_of_mem_sources entered member
    exact step.keys
  have inserted : List.Forall₂ (fun row bound => c.insert row = .ok (c.single columns bound)) rows
      tuples := by
    have each := (List.forall₂_and_left _ _).mpr ⟨literals, entered.flip⟩
    exact each.flip.imp fun row bound given => given.2.insert some given.1
  have aligned : List.Forall₂ (fun row bound => c.Aligned columns row (bound.map Prod.snd)) rows
      tuples := by
    have each := (List.forall₂_and_left _ _).mpr ⟨sorted, entered⟩
    exact each.imp fun row bound given => given.2.aligned given.1
  refine ⟨columns, tuples.map (c.single columns), ?_⟩
  constructor
  · obtain ⟨row, member⟩ := List.exists_mem_of_ne_nil rows nonempty
    rw [← keys row member]
    exact List.pairwise_map.mpr (sorted row member)
  · exact keys
  · exact List.forall₂_map_right_iff.mpr inserted
  · exact List.forall₂_map_right_iff.mpr aligned
  · intro v member
    obtain ⟨bound, listed, inside⟩ := List.mem_flatMap.mp member
    obtain ⟨b, held, rfl⟩ := List.mem_map.mp inside
    exact literals bound listed b held
  · rw [List.flatMap_map]
    rfl
  · intro one member
    obtain ⟨bound, _, rfl⟩ := List.mem_map.mp member
    rfl
  · dsimp only
    rw [rendered_insertBuffer, List.map_map]
    rfl

theorem exists_bulkInsert (nonempty : rows ≠ [])
    (alike : ∀ row ∈ rows, ∀ other ∈ rows, row.keys = other.keys)
    (alone : ∀ row ∈ rows, ∃ one, c.insert row = .ok one) : ∃ s, c.bulkInsert rows = .ok s := by
  obtain ⟨first, member⟩ := List.exists_mem_of_ne_nil rows nonempty
  obtain ⟨one, ok⟩ := alone first member
  have some := (enters_of_insert ok).1
  have each : ∀ row ∈ rows, ∃ bound, c.Enters first.keys row bound ∧
      ∀ b ∈ bound, ∃ literal, c.dialect.literal b.2 = .ok literal := by
    intro row member
    obtain ⟨single, inserted⟩ := alone row member
    rw [← alike row member first ‹_›]
    exact (enters_of_insert inserted).2
  obtain ⟨tuples, all⟩ := Outcome.exists_results each
  have literals : ∀ bound ∈ tuples, ∀ b ∈ bound, ∃ literal, c.dialect.literal b.2 = .ok literal := by
    intro bound member
    obtain ⟨row, _, _, rendered⟩ := Outcome.exists_of_mem_results all member
    exact rendered
  have entered : List.Forall₂ (c.Enters first.keys) rows tuples :=
    all.imp fun row bound given => given.1
  exact ⟨_, bulkInsert_eq_finish.mpr
    ⟨nonempty, first.keys, tuples, some, entered, finish_insertBuffer.mpr ⟨literals, rfl⟩⟩⟩

/-- A batch is accepted if it has rows, these have the same keys, and each of them can be inserted
alone. Its statement then gathers those of the rows. If a row differs in its keys from all rows before
it, which can be inserted and agree, and names the tenant, then it is the one that is reported. -/
theorem bulkInsert_gathers_rows (c : Compiler) (rows : List Record)
    (sorted : ∀ row ∈ rows, row.Sorted) :
    ((∃ s, c.bulkInsert rows = .ok s) ↔
      rows ≠ [] ∧ (∀ row ∈ rows, ∀ other ∈ rows, row.SameKeys other) ∧
        ∀ row ∈ rows, ∃ one, c.insert row = .ok one) ∧
    (∀ s, c.bulkInsert rows = .ok s → ∃ columns singles, c.Gathers rows s columns singles) ∧
    ∀ before row behind, rows = before ++ row :: behind → before ≠ [] →
      (∀ other ∈ before, ∀ next ∈ before, other.SameKeys next) →
      (∀ other ∈ before, ¬row.SameKeys other) →
      (∀ other ∈ before, ∃ one, c.insert other = .ok one) →
      (∀ tenant, c.entity.tenantKey = some tenant → row.contains tenant = true) →
      c.bulkInsert rows = .error (.raggedBatch before.length) := by
  refine ⟨⟨?_, ?_⟩, fun s => exists_gathers sorted, ?_⟩
  · intro accepted
    obtain ⟨s, ok⟩ := accepted
    obtain ⟨columns, singles, gathers⟩ := exists_gathers sorted ok
    refine ⟨(bulkInsert_eq_finish.mp ok).1, ?_, ?_⟩
    · intro row member other inside
      rw [← (sorted row member).keys_eq_iff (sorted other inside), gathers.keys row member,
        gathers.keys other inside]
    · intro row member
      obtain ⟨one, _, inserted⟩ := Outcome.exists_of_mem_sources gathers.inserted member
      exact ⟨one, inserted⟩
  · intro given
    obtain ⟨nonempty, alike, alone⟩ := given
    apply exists_bulkInsert nonempty _ alone
    intro row member other inside
    exact ((sorted row member).keys_eq_iff (sorted other inside)).mpr (alike row member other inside)
  · intro before row behind split nonempty alike differs alone tenant
    subst split
    have front : ∀ other ∈ before, other.Sorted := fun other member =>
      sorted other (List.mem_append_left _ member)
    have own : row.Sorted := sorted row (List.mem_append_right _ (.head _))
    apply bulkInsert_ragged nonempty alone _ (requireTenant_of_contains tenant)
    · intro other member same
      exact differs other member ((own.keys_eq_iff (front other member)).mp same)
    · intro other member next inside
      exact ((front other member).keys_eq_iff (front next inside)).mpr (alike other member next inside)

/-- Two notes of a tenant, and one that has no text. -/
def twoNotes : List Record :=
  [note "it's", ⟨[("body", .null), ("id", .text "b"), ("tenant", .text "t")]⟩]

def bareNote : Record := ⟨[("id", .text "c"), ("tenant", .text "t")]⟩

def twoNotesStatement : Statement where
  parameterized := "INSERT INTO \"notes\" (\"body\", \"id\", \"tenant\") VALUES (?1, ?2, ?3), (?4, ?5, ?6)"
  params := [.text "it's", .text "a", .text "t", .null, .text "b", .text "t"]
  sql := "INSERT INTO \"notes\" (\"body\", \"id\", \"tenant\") VALUES ('it''s', 'a', 't'), (NULL, 'b', 't')"

unseal Text.Numeral.digits in
theorem bulkInsert_gathers_rows_notes :
    (∀ row ∈ twoNotes, row.Sorted) ∧ notes.bulkInsert twoNotes = .ok twoNotesStatement ∧
    (∃ columns singles, notes.Gathers twoNotes twoNotesStatement columns singles) ∧
    notes.bulkInsert (twoNotes ++ [bareNote]) = .error (.raggedBatch 2) := by
  have ordered : ∀ row ∈ twoNotes ++ [bareNote], row.Sorted := by
    simp only [twoNotes, bareNote, note, KeyMap.Sorted, List.cons_append, List.nil_append,
      List.forall_mem_cons]
    decide
  have sorted : ∀ row ∈ twoNotes, row.Sorted := fun row member =>
    ordered row (List.mem_append_left _ member)
  have ok : notes.bulkInsert twoNotes = .ok twoNotesStatement := rfl
  have accepted := bulkInsert_gathers_rows notes twoNotes sorted
  have alone := (accepted.1.mp ⟨_, ok⟩).2
  have differs : ∀ other ∈ twoNotes, ¬bareNote.SameKeys other := by
    intro other member same
    have body := same "body"
    simp only [twoNotes, List.mem_cons, List.not_mem_nil, or_false] at member
    rcases member with rfl | rfl <;> cases body
  have ragged := (bulkInsert_gathers_rows notes (twoNotes ++ [bareNote]) ordered).2.2
  refine ⟨sorted, ok, accepted.2.1 _ ok,
    ragged twoNotes bareNote [] rfl (List.cons_ne_nil _ _) alone.1 differs alone.2 ?_⟩
  intro tenant keyed
  cases keyed
  rfl

end Compiler

end EntitySchema.Sql
