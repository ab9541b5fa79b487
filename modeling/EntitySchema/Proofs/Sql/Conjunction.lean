import EntitySchema.Proofs.Sql.Filter

/-!
Tests with AND between each two. They are read as one formula, which is true where all of them are.
-/

namespace EntitySchema.Sql

open Formula

theorem Truth.and_eq_yes {x y : Truth} : x.and y = .yes ↔ x = .yes ∧ y = .yes := by
  cases x <;> cases y <;> decide

theorem Truth.all_yes {ts : List Truth} :
    ts.foldr Truth.and .yes = .yes ↔ ∀ t ∈ ts, t = .yes := by
  induction ts with
  | nil => simp
  | cons t rest ih => rw [List.foldr_cons, and_eq_yes, ih, List.forall_mem_cons]

namespace Test

/-- Tests with the numbers of their first slots. -/
def numbered (index : Nat) : List Test → List (Nat × Test)
  | [] => []
  | t :: rest => (index, t) :: numbered (index + t.params.length) rest

/-- The formula of a test by itself. -/
def reading (d : Dialect) (fill : Nat → Token) (x : Nat × Test) : Formula Atom :=
  if x.2.isNegated then .not (.atom (x.2.atom d fill x.1)) else .atom (x.2.atom d fill x.1)

/-- The truth of a test whose atom is judged. -/
def truth (d : Dialect) (fill : Nat → Token) (judge : Atom → Truth) (x : Nat × Test) : Truth :=
  x.2.outcome (judge (x.2.atom d fill x.1))

theorem atoms_reading (d : Dialect) (fill : Nat → Token) (x : Nat × Test) :
    (reading d fill x).atoms = [x.2.atom d fill x.1] := by
  rw [reading]
  split <;> rfl

theorem value_reading (d : Dialect) (fill : Nat → Token) (judge : Atom → Truth) (x : Nat × Test) :
    ((reading d fill x).map judge).value = truth d fill judge x := by
  rw [reading, truth, outcome]
  split <;> rfl

theorem operand_reading (d : Dialect) {fill : Nat → Token} (fills : IsFilling fill) {x : Nat × Test}
    (listed : x.2.IsListed) :
    IsOperand (Item.tokens fill x.1 (x.2.items d)) (reading d fill x) := by
  have same : (x.2.formula d fill x.1 .yes).map Prod.fst = reading d fill x := by
    rw [formula, reading]
    split <;> rfl
  rw [← same]
  exact x.2.operand_items d fills x.1 listed .yes

theorem map_numbered (index : Nat) (tests : List Test) :
    (numbered index tests).map Prod.snd = tests := by
  induction tests generalizing index with
  | nil => rfl
  | cons t rest ih => rw [numbered, List.map_cons, ih]

/-- The slots of a test hold its parameters. -/
theorem slots_numbered (before : List Value) (tests : List Test) :
    ∀ x ∈ numbered before.length tests, ∀ k v, x.2.params[k]? = some v →
      (before ++ tests.flatMap params)[x.1 + k]? = some v := by
  induction tests generalizing before with
  | nil =>
    intro x member
    cases member
  | cons t rest ih =>
    intro x member k v slot
    rw [List.flatMap_cons]
    rcases List.mem_cons.mp member with rfl | later
    · have inside := (List.getElem?_eq_some_iff.mp slot).1
      rw [List.getElem?_append_right (Nat.le_add_right _ _), Nat.add_sub_cancel_left,
        List.getElem?_append_left inside]
      exact slot
    · rw [← List.append_assoc]
      rw [← List.length_append] at later
      exact ih (before ++ t.params) x later k v slot

end Test

/-- Where every atom has the truth that it is judged to have, so has the formula. -/
theorem Formula.map_of_atoms {α β : Type} {f : Formula (α × β)} {judge : α → β}
    (known : ∀ x ∈ f.atoms, x.2 = judge x.1) : f.map Prod.snd = (f.map Prod.fst).map judge := by
  induction f with
  | atom a => exact congrArg Formula.atom (known a (.head _))
  | not f ih => exact congrArg Formula.not (ih known)
  | pair c f g one two =>
    rw [map, map, map, one fun x member => known x (List.mem_append_left _ member),
      two fun x member => known x (List.mem_append_right _ member)]

/-- Formulas with AND between each two, as they are read from the left. -/
def Formula.conjunction? {α : Type} : List (Formula α) → Option (Formula α)
  | [] => none
  | f :: rest => some (rest.foldl (.pair .and) f)

theorem Formula.value_conjunction? {α : Type} {fs : List (Formula α)} {f : Formula α}
    (read : conjunction? fs = some f) (judge : α → Truth) :
    (f.map judge).value = (fs.map fun g => (g.map judge).value).foldr Truth.and .yes := by
  cases fs with
  | nil => cases read
  | cons first rest =>
    cases read
    rw [map_foldl_pair, value_foldl_pair, List.map_map]
    rfl

theorem Formula.atoms_conjunction? {α : Type} {fs : List (Formula α)} {f : Formula α}
    (read : conjunction? fs = some f) : f.atoms = fs.flatMap atoms := by
  cases fs with
  | nil => cases read
  | cons first rest =>
    cases read
    exact atoms_foldl_pair .and first rest

theorem tokens_tests (d : Dialect) (fill : Nat → Token) (index : Nat) (tests : List Test) :
    Item.tokens fill index (Item.join Connective.and.items (tests.map (Test.items d))) =
      joined .and ((Test.numbered index tests).map fun x =>
        Item.tokens fill x.1 (x.2.items d)) := by
  induction tests generalizing index with
  | nil => rfl
  | cons t rest ih =>
    cases rest with
    | nil => rfl
    | cons second more =>
      have between : Item.params Connective.and.items = [] := rfl
      rw [List.map_cons, List.map_cons, Item.join_cons_cons, Item.tokens_append, Item.tokens_append,
        Item.params_append, between, List.append_nil, t.params_items, ← List.map_cons, ih,
        List.append_assoc]
      rfl

/-- Tests with AND between each two are read as the conjunction of their formulas. -/
theorem tests_read (d : Dialect) {fill : Nat → Token} (fills : IsFilling fill) (index : Nat)
    {tests : List Test} (nonempty : tests ≠ []) (listed : ∀ t ∈ tests, t.IsListed) :
    ∃ f, parse? (Item.tokens fill index
        (Item.join Connective.and.items (tests.map (Test.items d)))) = some f ∧
      conjunction? ((Test.numbered index tests).map (Test.reading d fill)) = some f := by
  have operands : ∀ x ∈ Test.numbered index tests,
      IsOperand (Item.tokens fill x.1 (x.2.items d)) (Test.reading d fill x) := by
    intro x member
    apply Test.operand_reading d fills
    apply listed
    rw [← Test.map_numbered index tests]
    exact List.mem_map_of_mem member
  have some : Test.numbered index tests ≠ [] := by
    intro none
    have same := Test.map_numbered index tests
    rw [none] at same
    exact nonempty same.symm
  rw [tokens_tests]
  generalize Test.numbered index tests = xs at operands some
  cases xs with
  | nil => exact absurd rfl some
  | cons first rest =>
    let part (x : Nat × Test) : List Token × Formula Atom :=
      (Item.tokens fill x.1 (x.2.items d), Test.reading d fill x)
    have whole := whole_joined .and (part first) (rest.map part) fun x member => by
      rw [← List.map_cons] at member
      obtain ⟨y, inside, rfl⟩ := List.mem_map.mp member
      exact operands y inside
    rw [← List.map_cons, List.map_map, List.map_map] at whole
    exact ⟨_, whole.parse, rfl⟩

/-- The formula is the conjunction of the tests, however atoms are judged. -/
theorem conjunction_reads (d : Dialect) {fill : Nat → Token} (fills : IsFilling fill) (index : Nat)
    {tests : List Test} (nonempty : tests ≠ []) (listed : ∀ t ∈ tests, t.IsListed) :
    ∃ f, parse? (Item.tokens fill index
        (Item.join Connective.and.items (tests.map (Test.items d)))) = some f ∧
      ∀ judge : Atom → Truth, (f.map judge).value =
        ((Test.numbered index tests).map (Test.truth d fill judge)).foldr Truth.and .yes := by
  obtain ⟨f, parsed, read⟩ := tests_read d fills index nonempty listed
  refine ⟨f, parsed, fun judge => ?_⟩
  rw [value_conjunction? read, List.map_map]
  exact congrArg (fun truths => truths.foldr Truth.and .yes)
    (List.map_congr_left fun x _ => Test.value_reading d fill judge x)

end EntitySchema.Sql
