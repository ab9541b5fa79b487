import EntitySchema.Proofs.Sql.Command
import EntitySchema.Proofs.Sql.Composition

/-!
What a statement uses: the columns that it names, and the operands that it compares with a column or
stores in one. Both are read from the tokens of the statement alone, in the order in which they stand.
-/

namespace EntitySchema.Sql

open Formula

/-- An operand at a column: compared with it by an operator, or else stored in it. -/
structure Binding where
  column : String
  operator : Option String
  operand : Token

/-- The columns that a statement names, and its operands. -/
structure Usage where
  columns : List String
  bindings : List Binding

namespace Atom

def column : Atom → String
  | .present column _ => column
  | .compare column _ _ => column
  | .member column _ _ => column
  | .pattern column _ _ _ => column

def bindings : Atom → List Binding
  | .present _ _ => []
  | .compare column operator x => [⟨column, some operator, x⟩]
  | .member column negated xs =>
    xs.map fun x => ⟨column, some (if negated then "NOT IN" else "IN"), x⟩
  | .pattern column operator x _ => [⟨column, some operator, x⟩]

end Atom

namespace Token

def isName : Token → Bool
  | .name _ => true
  | _ => false

/-- The token begins what stands behind the filter of a selection. -/
def endsFilter (t : Token) : Bool := t = .word "ORDER" || t = .word "LIMIT" || t = .word "OFFSET"

end Token

namespace Usage

def empty : Usage := ⟨[], []⟩

def append (u v : Usage) : Usage := ⟨u.columns ++ v.columns, u.bindings ++ v.bindings⟩

def ofNames (columns : List String) : Usage := ⟨columns, []⟩

def ofAtoms (atoms : List Atom) : Usage := ⟨atoms.map Atom.column, atoms.flatMap Atom.bindings⟩

/-- Operands that are stored. -/
def ofPairs (pairs : List (String × Token)) : Usage :=
  ⟨pairs.map Prod.fst, pairs.map fun p => ⟨p.1, none, p.2⟩⟩

def ofTuples (columns : List String) (tuples : List (List Token)) : Usage :=
  tuples.foldr (fun tuple => (ofPairs (columns.zip tuple)).append) (ofNames columns)

/-- A condition, which may be missing. -/
def condition? : List Token → Option Usage
  | [] => some empty
  | t :: rest => (parse? (t :: rest)).map fun f => ofAtoms f.atoms

/-- The columns of a selection up to its table, and what follows the table. -/
def projection? : List Token → Option (List String × List Token)
  | .symbol "*" :: .word "FROM" :: .name _ :: rest => some ([], rest)
  | .name n :: .word "FROM" :: .name _ :: rest => some ([n], rest)
  | .name n :: .symbol "," :: rest => (projection? rest).map fun read => (n :: read.1, read.2)
  | _ => none

/-- The filter of a selection, if it has one, and what follows it. -/
def filter? : List Token → Option (Usage × List Token)
  | .word "WHERE" :: rest =>
    (condition? (rest.takeWhile fun t => !t.endsFilter)).map fun u =>
      (u, rest.dropWhile fun t => !t.endsFilter)
  | rest => some (empty, rest)

/-- Names with their directions, and what follows them. -/
def terms? : List Token → Option (List String × List Token)
  | .name n :: .word _ :: .symbol "," :: rest => (terms? rest).map fun read => (n :: read.1, read.2)
  | .name n :: .word _ :: rest => some ([n], rest)
  | _ => none

/-- The order of a selection, if it has one, and what follows it. -/
def order? : List Token → Option (List String × List Token)
  | .word "ORDER" :: .word "BY" :: rest => terms? rest
  | rest => some ([], rest)

/-- A selection, from behind its keyword; behind its order, no column is named. -/
def query? (ts : List Token) : Option Usage := do
  let (columns, rest) ← projection? ts
  let (filter, rest) ← filter? rest
  let (order, rest) ← order? rest
  if rest.any Token.isName then none
  else some (((ofNames columns).append filter).append (ofNames order))

def ofCommand? : Command → Option Usage
  | .insert _ columns tuples => some (ofTuples columns tuples)
  | _ => none

/-- What a statement uses; a text that begins with no keyword of a statement is a condition. -/
def ofTokens? : List Token → Option Usage
  | .word "SELECT" :: rest => query? rest
  | .word "INSERT" :: rest => (Command.ofTokens? (.word "INSERT" :: rest)).bind ofCommand?
  | .word "UPDATE" :: .name _ :: .word "SET" :: rest =>
    (Command.assignments? rest).bind fun read =>
      (condition? read.2).map (ofPairs read.1).append
  | .word "DELETE" :: .word "FROM" :: .name _ :: .word "WHERE" :: rest => condition? rest
  | ts => condition? ts

def ofText? (text : String) : Option Usage := (Token.tokens? text).bind ofTokens?

example : ofText? "SELECT \"a\" FROM \"t\" WHERE \"b\" < 1 ORDER BY \"c\" DESC LIMIT 5" =
    some ⟨["a", "b", "c"], [⟨"b", some "<", .number "1"⟩]⟩ := by
  rfl

theorem ofTokens?_select (rest : List Token) :
    ofTokens? (.word "SELECT" :: rest) = query? rest := rfl

theorem ofTokens?_insert (rest : List Token) : ofTokens? (.word "INSERT" :: rest) =
    (Command.ofTokens? (.word "INSERT" :: rest)).bind ofCommand? := rfl

theorem ofTokens?_update (table : String) (rest : List Token) :
    ofTokens? (.word "UPDATE" :: .name table :: .word "SET" :: rest) =
      (Command.assignments? rest).bind fun read =>
        (condition? read.2).map (ofPairs read.1).append := rfl

theorem ofTokens?_delete (table : String) (rest : List Token) :
    ofTokens? (.word "DELETE" :: .word "FROM" :: .name table :: .word "WHERE" :: rest) =
      condition? rest := rfl

/-! Conditions. -/

/-- What tests use whose first slot has the number `index`. -/
def ofTests (d : Dialect) (fill : Nat → Token) (index : Nat) (tests : List Test) : Usage :=
  ofAtoms ((Test.numbered index tests).map fun x => x.2.atom d fill x.1)

theorem condition?_of_parse {ts : List Token} {f : Formula Atom} (read : parse? ts = some f) :
    condition? ts = some (ofAtoms f.atoms) := by
  cases ts with
  | nil => cases read
  | cons t rest => exact congrArg (Option.map fun f => ofAtoms f.atoms) read

end Usage

theorem Formula.atoms_map {α β : Type} (h : α → β) (f : Formula α) :
    (f.map h).atoms = f.atoms.map h := by
  induction f with
  | atom a => rfl
  | not f ih => exact ih
  | pair c f g one two => rw [map, atoms, atoms, one, two, List.map_append]

theorem Test.map_atoms (d : Dialect) (fill : Nat → Token) (index : Nat) (xs : List (Test × Truth)) :
    (atoms d fill index xs).map Prod.fst =
      (numbered index (xs.map Prod.fst)).map fun x => x.2.atom d fill x.1 := by
  induction xs generalizing index with
  | nil => rfl
  | cons x rest ih => rw [atoms, List.map_cons, ih, List.map_cons, numbered, List.map_cons]

namespace Usage

theorem condition?_of_atoms {d : Dialect} {fill : Nat → Token} {index : Nat} {ts : List Token}
    {f : Formula (Atom × Truth)} {xs : List (Test × Truth)}
    (read : parse? ts = some (f.map Prod.fst)) (atoms : f.atoms = Test.atoms d fill index xs) :
    condition? ts = some (ofTests d fill index (xs.map Prod.fst)) := by
  rw [condition?_of_parse read, Formula.atoms_map, atoms, Test.map_atoms]
  rfl

theorem condition?_conjunction (d : Dialect) {fill : Nat → Token} (fills : IsFilling fill)
    (index : Nat) {tests : List Test} (listed : ∀ t ∈ tests, t.IsListed) :
    condition? (Item.tokens fill index
      (Item.join Connective.and.items (tests.map (Test.items d)))) =
        some (ofTests d fill index tests) := by
  cases tests with
  | nil => rfl
  | cons t rest =>
    obtain ⟨f, parsed, read⟩ := tests_read d fills index (List.cons_ne_nil t rest) listed
    rw [condition?_of_parse parsed, Formula.atoms_conjunction? read, List.flatMap_map, ofTests,
      List.map_eq_flatMap]
    exact congrArg (fun atoms => some (ofAtoms atoms))
      (List.flatMap_congr fun x _ => Test.atoms_reading d fill x)

theorem condition?_clause {c : Compiler} {node : SearchNode} {checked : Tree (Condition × Test)}
    (checks : c.Checks node checked) {k : Clause} (written : c.clause? checked = some k)
    {fill : Nat → Token} (fills : IsFilling fill) : condition? (Item.tokens fill 0 k.items) =
      some (ofTests c.dialect fill 0 (checked.leaves.map Prod.snd)) := by
  have all : (checked.map fun x => (x.1, Truth.yes)).map Prod.fst = node := by
    rw [Tree.map_map, ← checks.conditions]
    rfl
  obtain ⟨f, read, atoms, _⟩ := checks.whole written all fills
  have same := condition?_of_atoms read atoms
  rw [List.map_fst_zip] at same
  · exact same
  · simp [Tree.leaves_map]

/-! Changes. -/

theorem ofTokens?_insertItems {c : Compiler} {fill : Nat → Token} (fills : IsFilling fill)
    {columns : List String} {tuples : List (List (Column × Value))} (named : columns ≠ [])
    (nonempty : tuples ≠ []) (filled : ∀ bound ∈ tuples, bound ≠ []) :
    ofTokens? (Item.tokens fill 0 (c.insertItems columns tuples)) =
      some (ofTuples columns (Command.tupleOperands fill 0 tuples)) := by
  have read := Command.ofTokens?_insertItems (c := c) fills named nonempty filled
  obtain ⟨rest, tokens⟩ : ∃ rest, Item.tokens fill 0 (c.insertItems columns tuples) =
      .word "INSERT" :: rest := ⟨_, rfl⟩
  rw [tokens] at read ⊢
  rw [ofTokens?_insert, read]
  rfl

theorem ofTokens?_updateItems {c : Compiler} {fill : Nat → Token} (fills : IsFilling fill)
    {updates : List (Column × Value)} (nonempty : updates ≠ []) (lookup : List (Column × Value)) :
    ofTokens? (Item.tokens fill 0 (c.updateItems updates lookup)) =
      some ((ofPairs (Command.pairOperands fill 0 updates)).append
        (ofTests c.dialect fill updates.length (lookup.map pairTest))) := by
  have keys := condition?_conjunction c.dialect fills updates.length
    (Compiler.listed_pairTests lookup)
  rw [List.map_map] at keys
  rw [Command.tokens_updateItems, ofTokens?_update,
    Command.assignments?_items c.dialect fills 0 nonempty, Option.bind_some]
  exact congrArg (Option.map _) keys

theorem ofTokens?_deleteItems {c : Compiler} {fill : Nat → Token} (fills : IsFilling fill)
    {tests : List Test} (listed : ∀ t ∈ tests, t.IsListed) :
    ofTokens? (Item.tokens fill 0 (c.deleteItems tests)) =
      some (ofTests c.dialect fill 0 tests) := by
  rw [Command.tokens_deleteItems, ofTokens?_delete]
  exact condition?_conjunction c.dialect fills 0 listed

end Usage

/-! Words that no condition has. -/

theorem Clause.word_mem_nested {k : Clause} {w : String} (member : .word w ∈ k.nested) :
    .word w ∈ k.items := by
  rw [nested] at member
  split at member
  · simpa using member
  · exact member

theorem Clause.word_mem_join {c : Connective} {ks : List Clause} {k : Clause}
    (joined : join c ks = some k) {w : String} (member : .word w ∈ k.items) :
    .word w ∈ c.items ∨ ∃ part ∈ ks, .word w ∈ part.items := by
  match ks, joined with
  | [only], joined =>
    cases joined
    exact .inr ⟨k, .head _, member⟩
  | first :: second :: rest, joined =>
    cases joined
    refine (Item.mem_join member).imp_right fun ⟨is, inside, found⟩ => ?_
    obtain ⟨part, listed, rfl⟩ := List.mem_map.mp inside
    exact ⟨part, listed, word_mem_nested found⟩

namespace Usage

/-- The words that begin a statement or a part of one behind a condition. -/
def keywords : List String :=
  ["SELECT", "INSERT", "UPDATE", "DELETE", "ORDER", "LIMIT", "OFFSET"]

theorem notMem_items (d : Dialect) (t : Test) : ∀ w ∈ keywords, .word w ∉ t.items d := by
  have slots (w : String) (vs : List Value) :
      .word w ∉ Item.join Item.comma (vs.map fun v => [.slot v]) := by
    intro member
    rcases Item.mem_join member with between | ⟨is, inside, found⟩
    · simp [Item.comma] at between
    · obtain ⟨v, _, rfl⟩ := List.mem_map.mp inside
      simp at found
  rw [← List.forall_iff_forall_mem]
  cases t with
  | present column isSet => cases isSet <;> simp [keywords, Test.items, Test.isNegated, Test.atomItems]
  | compare column op v => simp [keywords, Test.items, Test.isNegated, Test.atomItems]
  | member column negated vs =>
    cases negated <;> simp [keywords, Test.items, Test.isNegated, Test.atomItems, slots]
  | pattern column negated like =>
    cases negated <;> cases d <;>
      simp [keywords, Test.items, Test.isNegated, Test.atomItems, Dialect.like, Dialect.escapeItems]

theorem notMem_clause {d : Dialect} {t : Tree Test} {k : Clause} (written : t.clause? d = some k) :
    ∀ w ∈ keywords, .word w ∉ k.items := by
  intro w foreign
  induction t using Tree.inductionOn generalizing k with
  | leaf x =>
    cases written
    exact notMem_items d x w foreign
  | group c children ih =>
    rw [Tree.clause?_group] at written
    intro member
    rcases Clause.word_mem_join written member with between | ⟨part, inside, found⟩
    · have never : ∀ w ∈ keywords, w ≠ c.word := by cases c <;> decide
      simp [Connective.items, never w foreign] at between
    · obtain ⟨child, below, source⟩ := List.mem_filterMap.mp inside
      exact ih child below source found

theorem notMem_tokens {fill : Nat → Token} (fills : IsFilling fill) {w : String}
    (foreign : w ∈ keywords) {is : List Item} (absent : .word w ∉ is) (index : Nat) :
    .word w ∉ Item.tokens fill index is := by
  intro member
  rcases Item.mem_tokens member with found | ⟨_, i, same⟩
  · exact absent found
  · have never : ∀ w ∈ keywords, (Token.word w).isOperand = false := by decide
    have operand := fills i
    rw [← same, never w foreign] at operand
    cases operand

/-- Without the words that begin a statement, tokens are a condition. -/
theorem ofTokens?_condition {ts : List Token} (absent : ∀ w ∈ keywords, .word w ∉ ts) :
    ofTokens? ts = condition? ts := by
  unfold ofTokens?
  split <;> first | rfl | exact absurd (List.mem_cons_self ..) (absent _ (by decide))

/-! Selections. -/

theorem projection?_listed {names : List String} (nonempty : names ≠ []) (table : String)
    (rest : List Token) :
    projection? (listed (names.map .name) ++ .word "FROM" :: .name table :: rest) =
      some (names, rest) := by
  induction names with
  | nil => exact absurd rfl nonempty
  | cons n others ih =>
    cases others with
    | nil => rfl
    | cons m more =>
      have later := ih (List.cons_ne_nil m more)
      rw [List.map_cons, List.map_cons, listed_cons_cons]
      rw [List.map_cons] at later
      exact congrArg (Option.map fun read => (n :: read.1, read.2)) later

theorem projection?_columns (fill : Nat → Token) (index : Nat) (fields : List String)
    (table : String) (rest : List Token) :
    projection? (Item.tokens fill index (Compiler.columnItems fields) ++
      .word "FROM" :: .name table :: rest) = some (fields, rest) := by
  cases fields with
  | nil => rfl
  | cons n others =>
    rw [Compiler.columnItems, List.isEmpty_cons, if_neg Bool.false_ne_true, Command.tokens_names]
    exact projection?_listed (List.cons_ne_nil n others) table rest

/-- What follows a filter begins with a word that ends it. -/
def Follows (ts : List Token) : Prop := ∀ t ∈ ts.head?, t.endsFilter = true

theorem filter?_of_follows {tail : List Token} (follows : Follows tail) :
    filter? tail = some (empty, tail) := by
  unfold filter?
  split
  · have ends := follows _ rfl
    cases ends
  · rfl

theorem filter?_where {ts tail : List Token} {u : Usage} (within : ∀ t ∈ ts, t.endsFilter = false)
    (follows : Follows tail) (read : condition? ts = some u) :
    filter? (.word "WHERE" :: (ts ++ tail)) = some (u, tail) := by
  have inside : ∀ t ∈ ts, (!t.endsFilter) = true := by simpa using within
  have first : tail.takeWhile (fun t => !t.endsFilter) = [] ∧
      tail.dropWhile (fun t => !t.endsFilter) = tail := by
    cases tail with
    | nil => exact ⟨rfl, rfl⟩
    | cons t rest => simp [follows t rfl]
  change (condition? ((ts ++ tail).takeWhile _)).map (fun u => (u, (ts ++ tail).dropWhile _)) = _
  rw [List.takeWhile_append_of_pos inside, List.dropWhile_append_of_pos inside, first.1, first.2,
    List.append_nil, read]
  rfl

theorem terms?_items (fill : Nat → Token) (index : Nat) {order : List OrderBy}
    (nonempty : order ≠ []) {tail : List Token} (apart : ∀ t ∈ tail.head?, t ≠ .symbol ",") :
    terms? (Item.tokens fill index (Item.join Item.comma
        (order.map fun o => [.name o.field, .blank, .word o.direction.keyword])) ++ tail) =
      some (order.map OrderBy.field, tail) := by
  induction order with
  | nil => exact absurd rfl nonempty
  | cons o others ih =>
    cases others with
    | nil =>
      rw [List.map_singleton, Item.join]
      change terms? (.name o.field :: .word o.direction.keyword :: tail) = _
      rw [terms?]
      · rfl
      · intro rest same
        rw [same] at apart
        exact apart _ rfl rfl
    | cons p more =>
      rw [List.map_cons, List.map_cons, Item.join_cons_cons, Item.tokens_append, Item.tokens_append]
      exact congrArg (Option.map fun read => (o.field :: read.1, read.2))
        (ih (List.cons_ne_nil p more))

/-- Tokens that page a selection: they name nothing, and begin with one of two words. -/
structure Pages (ts : List Token) : Prop where
  begun : ∀ t ∈ ts.head?, t = .word "LIMIT" ∨ t = .word "OFFSET"
  unnamed : ts.any Token.isName = false

theorem pages_paging (fill : Nat → Token) (index : Nat) (d : Dialect) (limit offset : Option UInt64) :
    Pages (Item.tokens fill index (Compiler.pagingItems d limit offset)) := by
  rcases limit with _ | n <;> rcases offset with _ | m <;> cases d <;>
    exact ⟨by simp [Item.tokens, Compiler.pagingItems, Compiler.limitItems, Compiler.offsetItems,
      Compiler.unboundedItems], rfl⟩

theorem Pages.follows {ts : List Token} (pages : Pages ts) : Follows ts := by
  intro t first
  rcases pages.begun t first with rfl | rfl <;> rfl

theorem Pages.order? {ts : List Token} (pages : Pages ts) : order? ts = some ([], ts) := by
  unfold Usage.order?
  split
  · simpa using pages.begun _ rfl
  · rfl

/-- Behind the filter, a selection names the fields that it is ordered by. -/
theorem exists_tail (c : Compiler) (fill : Nat → Token) (index : Nat) (g : SearchGraph) :
    Follows (Item.tokens fill index (c.tailItems g)) ∧
      ∃ rest, Usage.order? (Item.tokens fill index (c.tailItems g)) =
        some (g.order.map OrderBy.field, rest) ∧ rest.any Token.isName = false := by
  rw [Compiler.tailItems, Item.tokens_append]
  generalize index + _ = next
  have pages := pages_paging fill next c.dialect g.limit g.offset
  generalize Item.tokens fill next _ = paging at pages
  rw [Compiler.orderItems]
  cases listed : g.order with
  | nil => exact ⟨pages.follows, paging, pages.order?, pages.unnamed⟩
  | cons o others =>
    have apart : ∀ t ∈ paging.head?, t ≠ .symbol "," := by
      intro t first same
      rcases pages.begun t first with rfl | rfl <;> cases same
    refine ⟨fun t first => ?_, paging, ?_, pages.unnamed⟩
    · cases first
      rfl
    · exact terms?_items fill index (List.cons_ne_nil o others) apart

theorem filter?_whereItems {fill : Nat → Token} (fills : IsFilling fill) {k : Option Clause}
    {u : Usage} (absent : ∀ w ∈ keywords, .word w ∉ k.elim [] Clause.items)
    (read : condition? (Item.tokens fill 0 (k.elim [] Clause.items)) = some u) {tail : List Token}
    (follows : Follows tail) :
    filter? (Item.tokens fill 0 (whereItems k) ++ tail) = some (u, tail) := by
  cases k with
  | none =>
    cases read
    exact filter?_of_follows follows
  | some k =>
    refine filter?_where (fun t member => ?_) follows read
    by_contra ends
    simp only [Token.endsFilter, Bool.not_eq_false, Bool.or_eq_true, decide_eq_true_eq] at ends
    rcases ends with (rfl | rfl) | rfl <;>
      exact notMem_tokens fills (by decide) (absent _ (by decide)) 0 member

theorem ofTokens?_selectItems {c : Compiler} {fill : Nat → Token} (fills : IsFilling fill)
    (fields : List String) (g : SearchGraph) {k : Option Clause} {u : Usage}
    (absent : ∀ w ∈ keywords, .word w ∉ k.elim [] Clause.items)
    (read : condition? (Item.tokens fill 0 (k.elim [] Clause.items)) = some u) :
    ofTokens? (Item.tokens fill 0 (c.selectItems fields ++ whereItems k ++ c.tailItems g)) =
      some (((ofNames fields).append u).append (ofNames (g.order.map OrderBy.field))) := by
  have slots : Item.params (Compiler.columnItems fields) = [] :=
    (Compiler.columnText_spells fields).1
  generalize behind : 0 + (Item.params (c.selectItems fields ++ whereItems k)).length = next
  have all : Item.tokens fill 0 (c.selectItems fields ++ whereItems k ++ c.tailItems g) =
      .word "SELECT" :: (Item.tokens fill 0 (Compiler.columnItems fields) ++
        .word "FROM" :: .name c.entity.tableName ::
          (Item.tokens fill 0 (whereItems k) ++ Item.tokens fill next (c.tailItems g))) := by
    rw [Item.tokens_append, behind]
    simp [Compiler.selectItems, Item.tokens, slots]
  obtain ⟨follows, paging, sorted, unnamed⟩ := exists_tail c fill next g
  have filtered := filter?_whereItems fills absent read follows
  rw [all, ofTokens?_select, query?, projection?_columns]
  simpa [filtered, sorted] using unnamed

end Usage

end EntitySchema.Sql
