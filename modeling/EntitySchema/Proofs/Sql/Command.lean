import EntitySchema.Proofs.Sql.Conjunction
import EntitySchema.Proofs.Sql.Database
import EntitySchema.Proofs.Sql.Mutation

/-!
Changes as SQL reads them: insertions with their columns and tuples, updates with their assignments,
and the filters of updates and deletions, which are conjunctions.
-/

namespace EntitySchema.Sql

open Formula

namespace Command

/-- Names up to a closing parenthesis, and what follows it. -/
def names? : List Token → Option (List String × List Token)
  | .name n :: .symbol ")" :: rest => some ([n], rest)
  | .name n :: .symbol "," :: rest => (names? rest).map fun read => (n :: read.1, read.2)
  | _ => none

/-- Tuples of operands, from inside the first of them. -/
def tuples? : List Token → Option (List (List Token))
  | [x, .symbol ")"] => if x.isOperand then some [[x]] else none
  | x :: .symbol ")" :: .symbol "," :: .symbol "(" :: rest =>
    if x.isOperand then (tuples? rest).map ([x] :: ·) else none
  | x :: .symbol "," :: rest =>
    if x.isOperand then (tuples? rest).map (List.modifyHead (x :: ·)) else none
  | _ => none

/-- Assignments up to the keyword behind them, and what follows it. -/
def assignments? : List Token → Option (List (String × Token) × List Token)
  | .name n :: .symbol "=" :: x :: .word "WHERE" :: rest =>
    if x.isOperand then some ([(n, x)], rest) else none
  | .name n :: .symbol "=" :: x :: .symbol "," :: rest =>
    if x.isOperand then (assignments? rest).map fun read => ((n, x) :: read.1, read.2) else none
  | _ => none

def ofTokens? : List Token → Option Command
  | .word "INSERT" :: .word "INTO" :: .name table :: .symbol "(" :: rest =>
    (names? rest).bind fun
      | (columns, .word "VALUES" :: .symbol "(" :: values) =>
        (tuples? values).map (.insert table columns)
      | _ => none
  | .word "UPDATE" :: .name table :: .word "SET" :: rest =>
    (assignments? rest).bind fun read => (parse? read.2).map (.update table read.1)
  | .word "DELETE" :: .word "FROM" :: .name table :: .word "WHERE" :: rest =>
    (parse? rest).map (.delete table)
  | _ => none

def ofText? (text : String) : Option Command := (Token.tokens? text).bind ofTokens?

example : ofText? "UPDATE \"t\" SET \"a\" = 1, \"b\" = ?1 WHERE \"c\" = 'x'" =
    some (.update "t" [("a", .number "1"), ("b", .placeholder '?' 1)]
      (.atom (.compare "c" "=" (.text "x")))) := by
  rfl

theorem ofTokens?_insert (table : String) {columns : List String} {rest values : List Token}
    (names : names? rest = some (columns, .word "VALUES" :: .symbol "(" :: values)) :
    ofTokens? (.word "INSERT" :: .word "INTO" :: .name table :: .symbol "(" :: rest) =
      (tuples? values).map (.insert table columns) := by
  change Option.bind (names? rest) _ = _
  rw [names]
  rfl

theorem ofTokens?_update (table : String) (rest : List Token) :
    ofTokens? (.word "UPDATE" :: .name table :: .word "SET" :: rest) =
      (assignments? rest).bind fun read => (parse? read.2).map (.update table read.1) := rfl

theorem ofTokens?_delete (table : String) (rest : List Token) :
    ofTokens? (.word "DELETE" :: .word "FROM" :: .name table :: .word "WHERE" :: rest) =
      (parse? rest).map (.delete table) := rfl

/-! Columns and tuples. -/

theorem names?_listed {names : List String} (nonempty : names ≠ []) (rest : List Token) :
    names? (listed (names.map .name) ++ .symbol ")" :: rest) = some (names, rest) := by
  induction names with
  | nil => exact absurd rfl nonempty
  | cons n others ih =>
    cases others with
    | nil => rfl
    | cons m more =>
      have later := ih (List.cons_ne_nil m more)
      rw [List.map_cons, List.map_cons, listed_cons_cons]
      rw [List.map_cons] at later
      exact congrArg (Option.map fun read => (n :: read.1, read.2)) later

theorem tuples?_cons {x : Token} (operand : x.isOperand = true) (rest : List Token) :
    tuples? (x :: .symbol "," :: rest) = (tuples? rest).map (List.modifyHead (x :: ·)) :=
  if_pos operand

theorem tuples?_last {xs : List Token} (nonempty : xs ≠ [])
    (operands : ∀ x ∈ xs, x.isOperand = true) :
    tuples? (listed xs ++ [.symbol ")"]) = some [xs] := by
  induction xs with
  | nil => exact absurd rfl nonempty
  | cons x others ih =>
    have first := operands x (.head _)
    cases others with
    | nil => exact if_pos first
    | cons y more =>
      have later := ih (List.cons_ne_nil y more) fun z member => operands z (.tail _ member)
      rw [listed_cons_cons, List.cons_append, List.cons_append, tuples?_cons first, later]
      rfl

theorem tuples?_more {xs : List Token} (nonempty : xs ≠ [])
    (operands : ∀ x ∈ xs, x.isOperand = true) {rest : List Token} {tuples : List (List Token)}
    (read : tuples? rest = some tuples) :
    tuples? (listed xs ++ .symbol ")" :: .symbol "," :: .symbol "(" :: rest) =
      some (xs :: tuples) := by
  induction xs with
  | nil => exact absurd rfl nonempty
  | cons x others ih =>
    have first := operands x (.head _)
    cases others with
    | nil => exact (if_pos first).trans (congrArg (Option.map ([x] :: ·)) read)
    | cons y more =>
      have later := ih (List.cons_ne_nil y more) fun z member => operands z (.tail _ member)
      rw [listed_cons_cons, List.cons_append, List.cons_append, tuples?_cons first, later]
      rfl

/-- The operands of tuples whose first slot has the number `index`. -/
def tupleOperands (fill : Nat → Token) (index : Nat) :
    List (List (Column × Value)) → List (List Token)
  | [] => []
  | bound :: rest =>
    (List.range' index bound.length).map fill :: tupleOperands fill (index + bound.length) rest

theorem operands_results {P : Token → Value → Prop} {fill : Nat → Token} (bound : List (Column × Value))
    (index : Nat) (denotes : ∀ i v, (bound.map Prod.snd)[i]? = some v → P (fill (index + i)) v) :
    List.Forall₂ (fun b x => P x b.2) bound ((List.range' index bound.length).map fill) := by
  induction bound generalizing index with
  | nil => exact .nil
  | cons b rest ih =>
    refine .cons (denotes 0 b.2 rfl) (ih (index + 1) fun i v slot => ?_)
    have later := denotes (i + 1) v slot
    rwa [Nat.add_comm i, ← Nat.add_assoc] at later

theorem tuples_results {P : Token → Value → Prop} {fill : Nat → Token}
    (tuples : List (List (Column × Value))) (index : Nat)
    (denotes : ∀ i v, (tuples.flatMap (List.map Prod.snd))[i]? = some v → P (fill (index + i)) v) :
    List.Forall₂ (fun bound xs => List.Forall₂ (fun b x => P x b.2) bound xs) tuples
      (tupleOperands fill index tuples) := by
  induction tuples generalizing index with
  | nil => exact .nil
  | cons bound rest ih =>
    refine .cons (operands_results bound index fun i v slot => ?_)
      (ih (index + bound.length) fun i v slot => ?_)
    · have inside := (List.getElem?_eq_some_iff.mp slot).1
      apply denotes
      rw [List.flatMap_cons, List.getElem?_append_left inside]
      exact slot
    · rw [Nat.add_assoc]
      apply denotes
      rw [List.flatMap_cons, List.getElem?_append_right (by simp), List.length_map,
        Nat.add_sub_cancel_left]
      exact slot

theorem params_tuple (bound : List (Column × Value)) :
    Item.params (tupleItems bound) = bound.map Prod.snd := by
  rw [tupleItems, Item.params_append, Item.params_append, params_slots]
  exact List.append_nil _

theorem tokens_tuple (fill : Nat → Token) (index : Nat) (bound : List (Column × Value)) :
    Item.tokens fill index (tupleItems bound) =
      .symbol "(" :: listed ((List.range' index bound.length).map fill) ++ [.symbol ")"] := by
  rw [tupleItems, Item.tokens_append, Item.tokens_append, tokens_slots, List.length_map]
  rfl

theorem tuples?_items {fill : Nat → Token} (fills : IsFilling fill) (index : Nat)
    {tuples : List (List (Column × Value))} (nonempty : tuples ≠ [])
    (filled : ∀ bound ∈ tuples, bound ≠ []) :
    ∃ rest, Item.tokens fill index (Item.join Item.comma (tuples.map tupleItems)) =
        .symbol "(" :: rest ∧ tuples? rest = some (tupleOperands fill index tuples) := by
  induction tuples generalizing index with
  | nil => exact absurd rfl nonempty
  | cons bound others ih =>
    have operands : ∀ x ∈ (List.range' index bound.length).map fill, x.isOperand = true := by
      intro x member
      obtain ⟨i, _, rfl⟩ := List.mem_map.mp member
      exact fills i
    have some : (List.range' index bound.length).map fill ≠ [] := by
      simpa using filled bound (.head _)
    cases others with
    | nil =>
      rw [List.map_singleton, Item.join, tokens_tuple]
      exact ⟨_, rfl, tuples?_last some operands⟩
    | cons second more =>
      obtain ⟨rest, tokens, read⟩ := ih (index + bound.length) (List.cons_ne_nil second more)
        fun other member => filled other (.tail _ member)
      have size : (Item.params (tupleItems bound ++ Item.comma)).length = bound.length := by
        simp [params_tuple, Item.comma, Item.params]
      rw [List.map_cons, List.map_cons, Item.join_cons_cons, Item.tokens_append, size,
        Item.tokens_append, tokens_tuple, ← List.map_cons, tokens]
      refine ⟨listed ((List.range' index bound.length).map fill) ++
        .symbol ")" :: .symbol "," :: .symbol "(" :: rest, ?_, tuples?_more some operands read⟩
      simp [Item.comma, Item.tokens]

theorem tokens_names (fill : Nat → Token) (index : Nat) (names : List String) :
    Item.tokens fill index (Item.join Item.comma (names.map fun n => [.name n])) =
      listed (names.map .name) := by
  induction names with
  | nil => rfl
  | cons n others ih =>
    cases others with
    | nil => rfl
    | cons m more =>
      rw [List.map_cons, List.map_cons, Item.join_cons_cons, Item.tokens_append, Item.tokens_append]
      exact congrArg (fun ts => .name n :: .symbol "," :: ts) ih

theorem params_names (names : List String) :
    Item.params (Item.join Item.comma (names.map fun n => [.name n])) = [] := by
  rw [Item.params_join rfl, List.flatMap_map]
  simp [Item.params]

theorem ofTokens?_insertItems {c : Compiler} {fill : Nat → Token} (fills : IsFilling fill)
    {columns : List String} {tuples : List (List (Column × Value))} (named : columns ≠ [])
    (nonempty : tuples ≠ []) (filled : ∀ bound ∈ tuples, bound ≠ []) :
    ofTokens? (Item.tokens fill 0 (c.insertItems columns tuples)) =
      some (.insert c.entity.tableName columns (tupleOperands fill 0 tuples)) := by
  obtain ⟨rest, tokens, read⟩ := tuples?_items fills 0 nonempty filled
  have all : Item.tokens fill 0 (c.insertItems columns tuples) =
      .word "INSERT" :: .word "INTO" :: .name c.entity.tableName :: .symbol "(" ::
        (listed (columns.map .name) ++ .symbol ")" :: .word "VALUES" :: .symbol "(" :: rest) := by
    simp [Compiler.insertItems, Item.tokens, tokens_names, params_names, tokens]
  rw [all, ofTokens?_insert _ (names?_listed named _), read]
  rfl

/-! Assignments. -/

/-- The operands of pairs whose first slot has the number `index`. -/
def pairOperands (fill : Nat → Token) (index : Nat) : List (Column × Value) → List (String × Token)
  | [] => []
  | p :: rest => (p.1.name, fill index) :: pairOperands fill (index + 1) rest

theorem names_pairOperands (fill : Nat → Token) (index : Nat) (pairs : List (Column × Value)) :
    (pairOperands fill index pairs).map Prod.fst = pairs.map fun p => p.1.name := by
  induction pairs generalizing index with
  | nil => rfl
  | cons p rest ih => rw [pairOperands, List.map_cons, ih, List.map_cons]

theorem pairOperands_results {P : Token → Value → Prop} {fill : Nat → Token}
    (pairs : List (Column × Value)) (index : Nat)
    (denotes : ∀ i v, (pairs.map Prod.snd)[i]? = some v → P (fill (index + i)) v) :
    List.Forall₂ (fun p a => a.1 = p.1.name ∧ P a.2 p.2) pairs (pairOperands fill index pairs) := by
  induction pairs generalizing index with
  | nil => exact .nil
  | cons p rest ih =>
    refine .cons ⟨rfl, denotes 0 p.2 rfl⟩ (ih (index + 1) fun i v slot => ?_)
    have later := denotes (i + 1) v slot
    rwa [Nat.add_comm i, ← Nat.add_assoc] at later

theorem assignments?_cons (n : String) {x : Token} (operand : x.isOperand = true)
    (rest : List Token) : assignments? (.name n :: .symbol "=" :: x :: .symbol "," :: rest) =
      (assignments? rest).map fun read => ((n, x) :: read.1, read.2) :=
  if_pos operand

theorem assignments?_items (d : Dialect) {fill : Nat → Token} (fills : IsFilling fill) (index : Nat)
    {pairs : List (Column × Value)} (nonempty : pairs ≠ []) (rest : List Token) :
    assignments? (Item.tokens fill index
        (Item.join Item.comma (pairs.map fun p => (pairTest p).items d)) ++ .word "WHERE" :: rest) =
      some (pairOperands fill index pairs, rest) := by
  induction pairs generalizing index with
  | nil => exact absurd rfl nonempty
  | cons p others ih =>
    have first := fills index
    have tokens : Item.tokens fill index ((pairTest p).items d) =
        [.name p.1.name, .symbol "=", fill index] := rfl
    cases others with
    | nil =>
      rw [List.map_singleton, Item.join, tokens]
      exact if_pos first
    | cons second more =>
      have later := ih (index + 1) (List.cons_ne_nil second more)
      have joined : Item.tokens fill index (Item.join Item.comma
            ((p :: second :: more).map fun p => (pairTest p).items d)) =
          .name p.1.name :: .symbol "=" :: fill index :: .symbol "," ::
            Item.tokens fill (index + 1) (Item.join Item.comma
              ((second :: more).map fun p => (pairTest p).items d)) := by
        rw [List.map_cons, List.map_cons, Item.join_cons_cons, Item.tokens_append,
          Item.tokens_append, tokens]
        rfl
      rw [joined, List.cons_append, List.cons_append, List.cons_append, List.cons_append,
        assignments?_cons p.1.name first, later]
      rfl

theorem params_pairs (d : Dialect) {separator : List Item} (none : Item.params separator = [])
    (pairs : List (Column × Value)) :
    Item.params (Item.join separator (pairs.map fun p => (pairTest p).items d)) =
      pairs.map Prod.snd := by
  rw [Item.params_join none, List.flatMap_map, List.map_eq_flatMap]
  rfl

/-! Updates and deletions. -/

theorem tokens_updateItems (c : Compiler) (fill : Nat → Token) (updates lookup : List (Column × Value)) :
    Item.tokens fill 0 (c.updateItems updates lookup) =
      .word "UPDATE" :: .name c.entity.tableName :: .word "SET" ::
        (Item.tokens fill 0
          (Item.join Item.comma (updates.map fun p => (pairTest p).items c.dialect)) ++
        .word "WHERE" :: Item.tokens fill updates.length (Item.join Connective.and.items
          (lookup.map fun p => (pairTest p).items c.dialect))) := by
  have slots := params_pairs c.dialect (show Item.params Item.comma = [] from rfl) updates
  simp [Compiler.updateItems, Item.tokens, slots]

theorem tokens_deleteItems (c : Compiler) (fill : Nat → Token) (tests : List Test) :
    Item.tokens fill 0 (c.deleteItems tests) =
      .word "DELETE" :: .word "FROM" :: .name c.entity.tableName :: .word "WHERE" ::
        Item.tokens fill 0
          (Item.join Connective.and.items (tests.map (Test.items c.dialect))) := by
  simp [Compiler.deleteItems, Item.tokens]

theorem ofTokens?_updateItems {c : Compiler} {fill : Nat → Token} (fills : IsFilling fill)
    {updates lookup : List (Column × Value)} (nonempty : updates ≠ []) {f : Formula Atom}
    (read : parse? (Item.tokens fill updates.length (Item.join Connective.and.items
      (lookup.map fun p => (pairTest p).items c.dialect))) = some f) :
    ofTokens? (Item.tokens fill 0 (c.updateItems updates lookup)) =
      some (.update c.entity.tableName (pairOperands fill 0 updates) f) := by
  rw [tokens_updateItems, ofTokens?_update, assignments?_items c.dialect fills 0 nonempty,
    Option.bind_some, read]
  rfl

theorem ofTokens?_deleteItems {c : Compiler} {fill : Nat → Token} {tests : List Test}
    {f : Formula Atom} (read : parse? (Item.tokens fill 0
      (Item.join Connective.and.items (tests.map (Test.items c.dialect)))) = some f) :
    ofTokens? (Item.tokens fill 0 (c.deleteItems tests)) =
      some (.delete c.entity.tableName f) := by
  rw [tokens_deleteItems, ofTokens?_delete, read]
  rfl

end Command

namespace Compiler

variable {c : Compiler}

theorem params_insertItems (columns : List String) (tuples : List (List (Column × Value))) :
    Item.params (c.insertItems columns tuples) = tuples.flatMap (List.map Prod.snd) := by
  have values : Item.params (Item.join Item.comma (tuples.map tupleItems)) =
      tuples.flatMap (List.map Prod.snd) := by
    rw [Item.params_join rfl, List.flatMap_map]
    exact List.flatMap_congr fun bound _ => Command.params_tuple bound
  simp [insertItems, Item.params, Command.params_names, values]

theorem listed_pairTests (pairs : List (Column × Value)) :
    ∀ t ∈ pairs.map pairTest, t.IsListed :=
  List.forall_mem_map.mpr fun _ _ => trivial

theorem listed_comparisons {row : Record} {tests : List Test}
    (compared : List.Forall₂ (fun e t => ∃ column, c.resolve e.1 = .ok column ∧
      comparison column .equals e.2 = .ok t) row.entries tests) : ∀ t ∈ tests, t.IsListed := by
  intro t member
  obtain ⟨e, _, column, _, tested⟩ := Outcome.exists_of_mem_results compared member
  exact Test.isListed_of_tested (comparison_tested tested)

theorem params_pairTests (pairs : List (Column × Value)) :
    (pairs.map pairTest).flatMap Test.params = pairs.map Prod.snd := by
  rw [List.flatMap_map, List.map_eq_flatMap]
  rfl

theorem params_updateItems (updates lookup : List (Column × Value)) :
    Item.params (c.updateItems updates lookup) =
      updates.map Prod.snd ++ (lookup.map pairTest).flatMap Test.params := by
  have changes := Command.params_pairs c.dialect (show Item.params Item.comma = [] from rfl) updates
  have keys := Command.params_pairs c.dialect
    (show Item.params Connective.and.items = [] from rfl) lookup
  simp [updateItems, Item.params, changes, keys, params_pairTests]

theorem params_deleteItems (tests : List Test) :
    Item.params (c.deleteItems tests) = tests.flatMap Test.params := by
  have conditions : Item.params (Item.join Connective.and.items (tests.map (Test.items c.dialect))) =
      tests.flatMap Test.params := by
    rw [Item.params_join rfl, List.flatMap_map]
    exact List.flatMap_congr fun t _ => t.params_items c.dialect
  simp [deleteItems, Item.params, conditions]

end Compiler

end EntitySchema.Sql
