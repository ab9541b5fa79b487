import EntitySchema.Proofs.Sql.Condition
import EntitySchema.Proofs.Sql.Selection

/-!
What a compiled filter means. Read back by the precedences of SQL, the predicate has the truth of the
filter, for any truth of its conditions.
-/

namespace EntitySchema.Sql

open Formula

namespace Formula

variable {α β : Type}

theorem map_foldl_pair (h : α → β) (c : Connective) (f : Formula α) (fs : List (Formula α)) :
    (fs.foldl (.pair c) f).map h = (fs.map (map h)).foldl (.pair c) (f.map h) := by
  induction fs generalizing f with
  | nil => rfl
  | cons g rest ih => exact ih (.pair c f g)

theorem atoms_foldl_pair (c : Connective) (f : Formula α) (fs : List (Formula α)) :
    (fs.foldl (.pair c) f).atoms = f.atoms ++ fs.flatMap atoms := by
  induction fs generalizing f with
  | nil => simp
  | cons g rest ih => rw [List.foldl_cons, ih, atoms, List.flatMap_cons, List.append_assoc]

theorem value_foldl_pair (c : Connective) (f : Formula Truth) (fs : List (Formula Truth)) :
    (fs.foldl (.pair c) f).value = c.apply f.value ((fs.map value).foldr c.apply c.unit) := by
  induction fs generalizing f with
  | nil => exact (c.apply_unit f.value).symm
  | cons g rest ih =>
    rw [List.foldl_cons, ih, value, List.map_cons, List.foldr_cons, c.apply_assoc]

end Formula

/-- The atoms of tests with their truth; the first slot has the number `index`. -/
def Test.atoms (d : Dialect) (fill : Nat → Token) (index : Nat) :
    List (Test × Truth) → List (Atom × Truth)
  | [] => []
  | (t, truth) :: rest =>
    (t.atom d fill index, t.outcome truth) :: atoms d fill (index + t.params.length) rest

def Test.allParams (xs : List (Test × Truth)) : List Value := xs.flatMap fun x => x.1.params

theorem Test.allParams_cons (x : Test × Truth) (rest : List (Test × Truth)) :
    allParams (x :: rest) = x.1.params ++ allParams rest :=
  List.flatMap_cons

theorem Test.allParams_append (first second : List (Test × Truth)) :
    allParams (first ++ second) = allParams first ++ allParams second :=
  List.flatMap_append

theorem Test.atoms_append (d : Dialect) (fill : Nat → Token) (index : Nat)
    (first second : List (Test × Truth)) :
    atoms d fill index (first ++ second) =
      atoms d fill index first ++ atoms d fill (index + (allParams first).length) second := by
  induction first generalizing index with
  | nil => rfl
  | cons x rest ih =>
    rw [List.cons_append, atoms, ih, atoms, List.cons_append, allParams_cons, List.length_append,
      Nat.add_assoc]

/-- The formula has the atoms and the truth of the tree. -/
structure Formula.Fits (d : Dialect) (fill : Nat → Token) (index : Nat) (t : Tree (Test × Truth))
    (f : Formula (Atom × Truth)) : Prop where
  atoms : f.atoms = Test.atoms d fill index t.leaves
  value : (f.map Prod.snd).value = (t.map Prod.snd).value

/-- Wherever the clause stands, it is read as a formula that fits the tree. -/
structure Clause.Means (d : Dialect) (k : Clause) (t : Tree (Test × Truth)) : Prop where
  params : Item.params k.items = Test.allParams t.leaves
  nested : ∀ fill index, IsFilling fill → ∃ f : Formula (Atom × Truth), f.Fits d fill index t ∧
    IsOperand (Item.tokens fill index k.nested) (f.map Prod.fst)
  whole : ∀ fill index, IsFilling fill → ∃ f : Formula (Atom × Truth), f.Fits d fill index t ∧
    IsWhole (Item.tokens fill index k.items) (f.map Prod.fst)

namespace Clause

variable {d : Dialect}

theorem params_nested (k : Clause) : Item.params k.nested = Item.params k.items := by
  rw [nested]
  split
  · simp [Item.params]
  · rfl

theorem means_test {t : Test} (nonempty : t.IsListed) (truth : Truth) :
    Means d ⟨t.items d, false⟩ (.leaf (t, truth)) := by
  have fits (fill : Nat → Token) (index : Nat) :
      (t.formula d fill index truth).Fits d fill index (.leaf (t, truth)) :=
    ⟨t.atoms_formula d fill index truth, t.value_formula d fill index truth⟩
  refine ⟨?_, fun fill index fills => ?_, fun fill index fills => ?_⟩
  · simp [t.params_items, Test.allParams]
  · exact ⟨_, fits fill index, t.operand_items d fills index nonempty truth⟩
  · exact ⟨_, fits fill index, (t.operand_items d fills index nonempty truth).whole⟩

theorem Means.single {k : Clause} {t : Tree (Test × Truth)} (means : k.Means d t) (c : Connective) :
    k.Means d (Tree.group c [t]) := by
  have same {fill : Nat → Token} {index : Nat} {f : Formula (Atom × Truth)}
      (fits : f.Fits d fill index t) : f.Fits d fill index (Tree.group c [t]) := by
    refine ⟨?_, ?_⟩
    · simpa using fits.atoms
    · simpa [c.apply_unit] using fits.value
  refine ⟨by simpa using means.params, fun fill index fills => ?_, fun fill index fills => ?_⟩
  · obtain ⟨f, fits, operand⟩ := means.nested fill index fills
    exact ⟨f, same fits, operand⟩
  · obtain ⟨f, fits, whole⟩ := means.whole fill index fills
    exact ⟨f, same fits, whole⟩

theorem params_joined (c : Connective) {ks : List Clause} {ts : List (Tree (Test × Truth))}
    (means : List.Forall₂ (Means d) ks ts) :
    Item.params (Item.join c.items (ks.map nested)) = Test.allParams (ts.flatMap Tree.leaves) := by
  rw [Item.params_join rfl, List.flatMap_map]
  induction means with
  | nil => rfl
  | cons first others ih =>
    rw [List.flatMap_cons, List.flatMap_cons, ih, params_nested, first.params,
      Test.allParams_append]

/-- The members of a group are operands with the connective between each two. -/
theorem operands_joined (c : Connective) {ks : List Clause} {ts : List (Tree (Test × Truth))}
    (means : List.Forall₂ (Means d) ks ts) (fill : Nat → Token) (index : Nat)
    (fills : IsFilling fill) :
    ∃ parts : List (List Token × Formula (Atom × Truth)),
      Item.tokens fill index (Item.join c.items (ks.map nested)) = joined c (parts.map Prod.fst) ∧
      (∀ x ∈ parts, IsOperand x.1 (x.2.map Prod.fst)) ∧
      parts.flatMap (fun x => x.2.atoms) = Test.atoms d fill index (ts.flatMap Tree.leaves) ∧
      parts.map (fun x => (x.2.map Prod.snd).value) = ts.map fun t => (t.map Prod.snd).value := by
  induction means generalizing index with
  | nil => exact ⟨[], rfl, by simp, rfl, rfl⟩
  | @cons k t ks ts first others ih =>
    obtain ⟨f, fits, operand⟩ := first.nested fill index fills
    have size : (Item.params k.nested).length = (Test.allParams t.leaves).length := by
      rw [k.params_nested, first.params]
    cases others with
    | nil =>
      refine ⟨[(Item.tokens fill index k.nested, f)], rfl, ?_, ?_, ?_⟩
      · simpa using operand
      · simpa using fits.atoms
      · simpa using fits.value
    | @cons second u ks ts one others =>
      obtain ⟨parts, tokens, operands, atoms, values⟩ := ih (index + (Item.params k.nested).length)
      refine ⟨(Item.tokens fill index k.nested, f) :: parts, ?_, ?_, ?_, ?_⟩
      · obtain ⟨part, more, rfl⟩ : ∃ part more, parts = part :: more := by
          cases parts with
          | nil => cases values
          | cons part more => exact ⟨part, more, rfl⟩
        have between : Item.params c.items = [] := rfl
        rw [List.map_cons, List.map_cons, Item.join_cons_cons, Item.tokens_append,
          Item.tokens_append, Item.params_append, between, List.append_nil, ← List.map_cons, tokens,
          List.append_assoc]
        rfl
      · intro x member
        rcases List.mem_cons.mp member with rfl | later
        · exact operand
        · exact operands x later
      · rw [List.flatMap_cons, List.flatMap_cons, Test.atoms_append, atoms, size, fits.atoms]
      · rw [List.map_cons, List.map_cons, values, fits.value]

/-- Several members in parentheses or not are one operand or the whole of a level. -/
theorem means_joined (c : Connective) {ks : List Clause} {ts : List (Tree (Test × Truth))}
    (means : List.Forall₂ (Means d) ks ts) (nonempty : ts ≠ []) :
    Means d ⟨Item.join c.items (ks.map nested), true⟩ (Tree.group c ts) := by
  have whole : ∀ fill index, IsFilling fill → ∃ f : Formula (Atom × Truth),
      f.Fits d fill index (Tree.group c ts) ∧
      IsWhole (Item.tokens fill index (Item.join c.items (ks.map nested))) (f.map Prod.fst) := by
    intro fill index fills
    obtain ⟨parts, tokens, operands, atoms, values⟩ := operands_joined c means fill index fills
    obtain ⟨part, more, rfl⟩ : ∃ part more, parts = part :: more := by
      cases parts with
      | nil => exact absurd (List.map_eq_nil_iff.mp values.symm) nonempty
      | cons part more => exact ⟨part, more, rfl⟩
    refine ⟨(more.map Prod.snd).foldl (.pair c) part.2, ⟨?_, ?_⟩, ?_⟩
    · rw [atoms_foldl_pair, List.flatMap_map, Tree.leaves_group, ← atoms, List.flatMap_cons]
    · rw [map_foldl_pair, value_foldl_pair, Tree.map_group, Tree.value_group, List.map_map,
        List.map_map, List.map_map]
      exact congrArg (fun truths => truths.foldr c.apply c.unit) values
    · rw [tokens, map_foldl_pair]
      have chain := whole_joined c (part.1, part.2.map Prod.fst)
        (more.map fun x => (x.1, x.2.map Prod.fst)) fun x member => by
          obtain ⟨y, inside, rfl⟩ := List.mem_map.mp
            (show x ∈ (part :: more).map fun x => (x.1, x.2.map Prod.fst) from member)
          exact operands y inside
      simpa [Function.comp_def] using chain
  refine ⟨?_, fun fill index fills => ?_, whole⟩
  · rw [params_joined c means, Tree.leaves_group]
  · obtain ⟨f, fits, reads⟩ := whole fill index fills
    refine ⟨f, fits, ?_⟩
    simpa [nested, Item.tokens, Item.params] using reads.parenthesised

theorem means_join (c : Connective) {ks : List Clause} {ts : List (Tree (Test × Truth))}
    (means : List.Forall₂ (Means d) ks ts) :
    Option.Rel (Means d) (join c ks) (if ts = [] then none else some (Tree.group c ts)) := by
  cases means with
  | nil => exact .none
  | cons first others =>
    rw [if_neg (List.cons_ne_nil _ _)]
    cases others with
    | nil => exact .some (first.single c)
    | cons second others =>
      exact .some (means_joined c (.cons first (.cons second others)) (List.cons_ne_nil _ _))

end Clause

/-- The clause of a tree of tests means the tree without its empty groups. -/
theorem Tree.means_clause (d : Dialect) (t : Tree (Test × Truth))
    (nonempty : ∀ x ∈ t.leaves, x.1.IsListed) :
    Option.Rel (Clause.Means d) ((t.map Prod.fst).clause? d) t.pruned := by
  induction t using Tree.inductionOn with
  | leaf x =>
    obtain ⟨t, truth⟩ := x
    exact .some (Clause.means_test (nonempty (t, truth) (.head _)) truth)
  | group c children ih =>
    rw [leaves_group] at nonempty
    have members : List.Forall₂ (Clause.Means d)
        ((children.map (map Prod.fst)).filterMap (clause? d)) (children.filterMap pruned) := by
      rw [List.filterMap_map]
      induction children with
      | nil => exact .nil
      | cons t rest later =>
        have first := ih t (.head _) fun x leaf =>
          nonempty x (List.mem_flatMap.mpr ⟨t, .head _, leaf⟩)
        have others := later (fun t member => ih t (.tail _ member)) fun x member => by
          obtain ⟨t, inside, leaf⟩ := List.mem_flatMap.mp member
          exact nonempty x (List.mem_flatMap.mpr ⟨t, .tail _ inside, leaf⟩)
        rw [List.filterMap_cons, List.filterMap_cons, Function.comp_apply]
        generalize t.pruned = kept at first ⊢
        generalize clause? d (t.map Prod.fst) = written at first ⊢
        cases first with
        | none => exact others
        | some means => exact .cons means others
    rw [map_group, clause?_group, pruned_group]
    exact Clause.means_join c members

namespace Compiler

/-- The text is read as one formula. For any truth of the conditions, its atoms are those of the
tests in order, and it has the truth of the filter without its empty groups. -/
def Means (c : Compiler) (node : SearchNode) (tests : List Test) (fill : Nat → Token)
    (text : String) : Prop :=
  ∃ f : Formula Atom, (Token.tokens? text).bind parse? = some f ∧
    ∀ truths : Tree (Condition × Truth), truths.map Prod.fst = node →
      ∃ g : Formula (Atom × Truth), g.map Prod.fst = f ∧
        g.atoms = Test.atoms c.dialect fill 0 (tests.zip (truths.leaves.map Prod.snd)) ∧
        (truths.map Prod.snd).pruned.map Tree.value = some (g.map Prod.snd).value

theorem Checks.isListed {c : Compiler} {node : SearchNode} {checked : Tree (Condition × Test)}
    (checks : c.Checks node checked) : ∀ x ∈ checked.leaves, x.2.IsListed := by
  intro x member
  obtain ⟨column, _, tested⟩ := condition_tested (checks.tests x member)
  exact Test.isListed_of_tested tested

theorem Checks.leaves {c : Compiler} {node : SearchNode} {checked : Tree (Condition × Test)}
    (checks : c.Checks node checked) : node.leaves = checked.leaves.map Prod.fst := by
  rw [← checks.conditions, Tree.leaves_map]

theorem Checks.label {c : Compiler} {node : SearchNode} {checked : Tree (Condition × Test)}
    (checks : c.Checks node checked) {truths : Tree (Condition × Truth)}
    (same : truths.map Prod.fst = node) :
    ∃ t : Tree (Test × Truth), t.map Prod.fst = checked.map Prod.snd ∧
      t.map Prod.snd = truths.map Prod.snd := by
  obtain ⟨pairs, first, second, _⟩ :=
    Tree.exists_zip checked truths (checks.conditions.trans same.symm)
  refine ⟨pairs.map fun x => (x.1.2, x.2.2), ?_, ?_⟩
  · rw [Tree.map_map, ← first, Tree.map_map]
    rfl
  · rw [Tree.map_map, ← second, Tree.map_map]
    rfl

theorem Checks.whole {c : Compiler} {node : SearchNode} {checked : Tree (Condition × Test)}
    (checks : c.Checks node checked) {k : Clause} (written : c.clause? checked = some k)
    {truths : Tree (Condition × Truth)} (same : truths.map Prod.fst = node)
    {fill : Nat → Token} (fills : IsFilling fill) :
    ∃ g : Formula (Atom × Truth), parse? (Item.tokens fill 0 k.items) = some (g.map Prod.fst) ∧
      g.atoms = Test.atoms c.dialect fill 0
        ((checked.leaves.map Prod.snd).zip (truths.leaves.map Prod.snd)) ∧
      (truths.map Prod.snd).pruned.map Tree.value = some (g.map Prod.snd).value := by
  obtain ⟨t, tests, values⟩ := checks.label same
  have nonempty : ∀ x ∈ t.leaves, x.1.IsListed := by
    intro x member
    have inside : x.1 ∈ checked.leaves.map Prod.snd := by
      rw [← Tree.leaves_map, ← tests, Tree.leaves_map]
      exact List.mem_map_of_mem member
    obtain ⟨y, leaf, same⟩ := List.mem_map.mp inside
    rw [← same]
    exact checks.isListed y leaf
  have means := Tree.means_clause c.dialect t nonempty
  rw [tests, show (checked.map Prod.snd).clause? c.dialect = some k from written] at means
  cases pruned : t.pruned with
  | none =>
    rw [pruned] at means
    cases means
  | some kept =>
    rw [pruned, Option.rel_some_some] at means
    obtain ⟨g, fits, whole⟩ := means.whole fill 0 fills
    refine ⟨g, whole.parse, ?_, ?_⟩
    · have leaves : t.leaves =
          (checked.leaves.map Prod.snd).zip (truths.leaves.map Prod.snd) := by
        apply List.zip_of_prod
        · rw [← Tree.leaves_map, tests, Tree.leaves_map]
        · rw [← Tree.leaves_map, values, Tree.leaves_map]
      rw [fits.atoms, ← leaves, ← t.leaves_pruned, pruned, Option.elim_some]
    · rw [← values, Tree.pruned_map, pruned, Option.map_some, Option.map_some, fits.value]

theorem Checks.means {c : Compiler} {node : SearchNode} {checked : Tree (Condition × Test)}
    (checks : c.Checks node checked) {k : Clause} (written : c.clause? checked = some k)
    {fill : Nat → Token} (fills : IsFilling fill) {text : String}
    (read : Token.tokens? text = some (Item.tokens fill 0 k.items)) :
    c.Means node (checked.leaves.map Prod.snd) fill text := by
  have all : (checked.map fun x => (x.1, Truth.yes)).map Prod.fst = node := by
    rw [Tree.map_map, ← checks.conditions]
    rfl
  obtain ⟨f, parsed, _⟩ := checks.whole written all fills
  refine ⟨f.map Prod.fst, by rw [read, Option.bind_some, parsed], fun truths same => ?_⟩
  obtain ⟨g, again, atoms, value⟩ := checks.whole written same fills
  rw [parsed, Option.some.injEq] at again
  exact ⟨g, again.symm, atoms, value⟩

/-- The clause of checked conditions means their tests, say where all of them are true. -/
theorem Checks.means_clause {c : Compiler} {node : SearchNode} {checked : Tree (Condition × Test)}
    (checks : c.Checks node checked) : Option.Rel (Clause.Means c.dialect) (c.clause? checked)
      (checked.pruned.map (Tree.map fun x => (x.2, Truth.yes))) := by
  have nonempty : ∀ x ∈ (checked.map fun x => (x.2, Truth.yes)).leaves, x.1.IsListed := by
    intro x member
    rw [Tree.leaves_map] at member
    obtain ⟨y, leaf, rfl⟩ := List.mem_map.mp member
    exact checks.isListed y leaf
  have means := Tree.means_clause c.dialect _ nonempty
  rwa [Tree.map_map, Tree.pruned_map] at means

/-- The slots of a clause hold the parameters of its tests in order. -/
theorem Checks.params {c : Compiler} {node : SearchNode} {checked : Tree (Condition × Test)}
    (checks : c.Checks node checked) {k : Clause} (written : c.clause? checked = some k) :
    Item.params k.items = (checked.leaves.map Prod.snd).flatMap Test.params := by
  have means := checks.means_clause
  rw [written] at means
  cases pruned : checked.pruned with
  | none =>
    rw [pruned] at means
    cases means
  | some kept =>
    rw [pruned, Option.map_some, Option.rel_some_some] at means
    rw [means.params, Tree.leaves_map, ← checked.leaves_pruned, pruned, Option.elim_some,
      Test.allParams, List.flatMap_map, List.flatMap_map]

/-- A filter has no clause exactly where it has no condition. -/
theorem Checks.clause_eq_none {c : Compiler} {node : SearchNode}
    {checked : Tree (Condition × Test)} (checks : c.Checks node checked) :
    c.clause? checked = none ↔ node.leaves = [] := by
  have means := checks.means_clause
  rw [checks.leaves, List.map_eq_nil_iff, ← Tree.pruned_eq_none_iff]
  generalize c.clause? checked = written at means
  cases kept : checked.pruned with
  | none =>
    rw [kept] at means
    cases means
    exact ⟨fun _ => rfl, fun _ => rfl⟩
  | some t =>
    rw [kept] at means
    cases means
    simp

theorem compileFilter_checks {c : Compiler} {node : SearchNode} {r : Option Statement}
    (ok : c.compileFilter node = .ok r) :
    ∃ checked, c.Checks node checked ∧
      ((c.predicate? node = .ok none ∧ c.clause? checked = none ∧ r = none) ∨
      ∃ p k s, c.predicate? node = .ok (some p) ∧ c.clause? checked = some k ∧
        p.buffer.Reads k.items ∧ p.buffer.finish c.dialect = .ok s ∧ r = some s) := by
  rcases compileFilter_eq_ok.mp ok with ⟨found, rfl⟩ | ⟨p, s, found, finished, rfl⟩
  · obtain ⟨checked, checks, reads⟩ := predicate?_reads found
    refine ⟨checked, checks, .inl ⟨found, ?_, rfl⟩⟩
    generalize c.clause? checked = written at reads
    cases reads
    rfl
  · obtain ⟨checked, checks, reads⟩ := predicate?_reads found
    refine ⟨checked, checks, .inr ?_⟩
    generalize c.clause? checked = written at reads
    cases reads with
    | some same => exact ⟨p, _, s, found, rfl, same.buffer, finished, rfl⟩

theorem compileFilter_eq_none {c : Compiler} {node : SearchNode} {r : Option Statement}
    (ok : c.compileFilter node = .ok r) : r = none ↔ node.leaves = [] := by
  obtain ⟨checked, checks, outcome⟩ := compileFilter_checks ok
  rw [← checks.clause_eq_none]
  rcases outcome with ⟨_, written, rfl⟩ | ⟨p, k, s, _, written, _, _, rfl⟩
  · simp [written]
  · simp [written]

/-- The texts of a selection in front of its filter and behind it. -/
def selectText (c : Compiler) (fields : List String) : String :=
  "SELECT " ++ columnText fields ++ " FROM " ++ c.table

def tailText (c : Compiler) (g : SearchGraph) : String := Item.write (fun _ => "") 0 (c.tailItems g)

theorem tail_spells (c : Compiler) (g : SearchGraph) : Item.Spells (c.tailText g) (c.tailItems g) :=
  Item.spells_of_params (c.params_tailItems g)

theorem finish_plain (c : Compiler) (fields : List String) (g : SearchGraph) :
    (pagingClause c.dialect (writeOrder (Buffer.empty.push (c.selectText fields)) g.order) g.limit
      g.offset).finish c.dialect =
      .ok ⟨c.selectText fields ++ c.tailText g, [], c.selectText fields ++ c.tailText g⟩ := by
  have head := Buffer.reads_empty.push (c.select_spells fields)
  have all := pagingClause_reads c.dialect (writeOrder_reads head g.order) g.limit g.offset
  rw [List.append_assoc] at all
  exact all.finish ((c.select_spells fields).append (c.tail_spells g))

/-- Without a filter, a selection is the text around the filter, and has no `WHERE`. -/
theorem select_plain {c : Compiler} {fields : List String} {g : SearchGraph}
    (projected : c.projection fields = .ok (columnText fields))
    (sorted : ∀ b, c.orderClause b g.order = .ok (writeOrder b g.order)) :
    c.select fields { g with filter := none } =
      .ok ⟨c.selectText fields ++ c.tailText g, [], c.selectText fields ++ c.tailText g⟩ :=
  select_eq_ok.mpr ⟨projected, sorted, _, rfl, c.finish_plain fields g⟩

theorem tokens?_plain (c : Compiler) (fields : List String) (g : SearchGraph) :
    ∃ ts, Token.tokens? (c.selectText fields ++ c.tailText g) = some ts ∧ .word "WHERE" ∉ ts := by
  have spells := (c.select_spells fields).append (c.tail_spells g)
  have read := Item.tokens?_write (Statement.fills_placeholders c.dialect)
    ((c.tidy_selectItems fields).append (c.tidy_tailItems g))
  rw [spells.2] at read
  refine ⟨_, read, fun member => ?_⟩
  rcases Item.mem_tokens member with item | ⟨slots, _⟩
  · exact c.where_notMem fields g item
  · exact slots spells.1

/-- With a filter, a selection has its predicate after `WHERE`. -/
theorem select_filtered {c : Compiler} {g : SearchGraph} {p : Predicate} {k : Clause}
    {b : Buffer} {head : List Item} {text : String} (reads : b.Reads head)
    (spells : Item.Spells text head) (same : p.buffer.Reads k.items) {s selected : Statement}
    (done : p.buffer.finish c.dialect = .ok s)
    (finished : (pagingClause c.dialect (writeOrder ((b.push " WHERE ").append p.buffer) g.order)
      g.limit g.offset).finish c.dialect = .ok selected) :
    selected = ⟨text ++ " WHERE " ++ s.parameterized ++ c.tailText g, s.params,
      text ++ " WHERE " ++ s.sql ++ c.tailText g⟩ := by
  have keyword : Item.Spells " WHERE " [.blank, .word "WHERE", .blank] := ⟨rfl, fun _ _ => rfl⟩
  have around := spells.append keyword
  have filtered := (reads.push keyword).append same
  have all := pagingClause_reads c.dialect (writeOrder_reads filtered g.order) g.limit g.offset
  rw [List.append_assoc] at all
  have inner := Statement.Reads.ofBuffer same done
  have outer := Statement.Reads.ofBuffer all finished
  have params : selected.params = s.params := by
    rw [outer.params, inner.params]
    exact Item.params_between around (c.tail_spells g) k.items
  have parameterized : selected.parameterized = text ++ " WHERE " ++ s.parameterized ++ c.tailText g := by
    rw [outer.parameterized, inner.parameterized]
    exact Item.write_between around (c.tail_spells g) _ k.items
  have sql : selected.sql = text ++ " WHERE " ++ s.sql ++ c.tailText g := by
    rw [outer.sql, inner.sql, params]
    exact Item.write_between around (c.tail_spells g) _ k.items
  obtain ⟨_, _, _⟩ := selected
  rw [Statement.mk.injEq]
  exact ⟨parameterized, params, sql⟩

/-- What compiling a filter comes to. There is no statement exactly where there is no condition. The
statement is read by the precedences of SQL as a formula of the conditions in their order that has
the truth of the filter, in both its forms. A selection has it after `WHERE` and is otherwise what it
is without a filter, which has no `WHERE` at all. -/
theorem compileFilter_means (c : Compiler) (node : SearchNode) (r : Option Statement)
    (ok : c.compileFilter node = .ok r) :
    (r = none ↔ node.leaves = []) ∧
    (∀ s, r = some s → ∃ tests,
      List.Forall₂ (fun cond t => c.condition cond = .ok t) node.leaves tests ∧
      c.Means node tests (Statement.placeholders c.dialect) s.parameterized ∧
      c.Means node tests (Statement.literals c.dialect s.params) s.sql) ∧
    ∀ fields g selected, g.filter = some node → c.select fields g = .ok selected →
      ∃ head tail ts, Token.tokens? (head ++ tail) = some ts ∧ .word "WHERE" ∉ ts ∧
        c.select fields { g with filter := none } = .ok ⟨head ++ tail, [], head ++ tail⟩ ∧
        selected = match r with
          | none => ⟨head ++ tail, [], head ++ tail⟩
          | some s => ⟨head ++ " WHERE " ++ s.parameterized ++ tail, s.params,
              head ++ " WHERE " ++ s.sql ++ tail⟩ := by
  obtain ⟨checked, checks, outcome⟩ := compileFilter_checks ok
  refine ⟨compileFilter_eq_none ok, ?_, ?_⟩
  · intro s same
    subst same
    rcases outcome with ⟨_, _, wrong⟩ | ⟨p, k, s, _, written, reads, finished, same⟩
    · cases wrong
    · cases same
      have both := Statement.Reads.ofBuffer reads finished
      have tidy : Item.Tidy false k.items := Tree.tidy_clause written
      refine ⟨checked.leaves.map Prod.snd, ?_, ?_, ?_⟩
      · rw [checks.leaves, List.forall₂_map_left_iff, List.forall₂_map_right_iff, List.forall₂_same]
        exact checks.tests
      · exact checks.means written (isFilling_placeholders _) (both.tokens_parameterized tidy)
      · exact checks.means written (isFilling_literals _ _) (both.tokens_sql tidy)
  · intro fields g selected hasFilter chosen
    obtain ⟨projected, sorted, filtered, found, finished⟩ := select_eq_ok.mp chosen
    obtain ⟨ts, read, plain⟩ := c.tokens?_plain fields g
    refine ⟨c.selectText fields, c.tailText g, ts, read, plain, select_plain projected sorted, ?_⟩
    rw [hasFilter, whereClause] at found
    rcases outcome with ⟨none, _, rfl⟩ | ⟨p, k, s, some, _, reads, done, rfl⟩
    · rw [none] at found
      cases found
      exact Except.ok.inj (finished.symm.trans (c.finish_plain fields g))
    · rw [some] at found
      cases found
      exact select_filtered (Buffer.reads_empty.push (c.select_spells fields))
        (c.select_spells fields) reads done finished

unseal Text.Numeral.digits in
theorem compileFilter_means_notes :
    notes.compileFilter notesFilter = .ok (some notesFilterStatement) ∧
    notes.select ["id"] ⟨some notesFilter, [], some 5, none⟩ = .ok {
      parameterized := "SELECT \"id\" FROM \"notes\" WHERE "
        ++ notesFilterStatement.parameterized ++ " LIMIT 5"
      params := notesFilterStatement.params
      sql := "SELECT \"id\" FROM \"notes\" WHERE " ++ notesFilterStatement.sql ++ " LIMIT 5" } ∧
    (∃ tests, List.Forall₂ (fun cond t => notes.condition cond = .ok t) notesFilter.leaves tests ∧
      notes.Means notesFilter tests (Statement.placeholders .sqlite)
        notesFilterStatement.parameterized ∧
      notes.Means notesFilter tests (Statement.literals .sqlite notesFilterStatement.params)
        notesFilterStatement.sql) :=
  ⟨rfl, rfl, (compileFilter_means notes notesFilter (some notesFilterStatement) rfl).2.1 _ rfl⟩

end Compiler

end EntitySchema.Sql
