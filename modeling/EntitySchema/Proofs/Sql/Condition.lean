import EntitySchema.Proofs.Sql.Checking
import EntitySchema.Proofs.Sql.Clause
import EntitySchema.Proofs.Sql.Formula

/-!
Tests as SQL reads them. A test is one atom, or the negation of one in parentheses, with the tokens
in its slots as operands.
-/

namespace EntitySchema.Sql

open Formula

/-- Every slot is filled with an operand. -/
def IsFilling (fill : Nat → Token) : Prop := ∀ index, (fill index).isOperand = true

theorem isFilling_placeholders (d : Dialect) : IsFilling (Statement.placeholders d) :=
  fun _ => rfl

theorem isFilling_literals (d : Dialect) (params : List Value) :
    IsFilling (Statement.literals d params) := by
  intro index
  rw [Statement.literals]
  generalize params.getD index .null = v
  cases v with
  | bool b => cases d <;> cases b <;> rfl
  | _ => rfl

/-! Lists of operands. -/

def listed : List Token → List Token
  | [] => []
  | [x] => [x]
  | x :: rest => x :: .symbol "," :: listed rest

theorem listed_cons_cons (x y : Token) (rest : List Token) :
    listed (x :: y :: rest) = x :: .symbol "," :: listed (y :: rest) :=
  rfl

theorem mem_listed {xs : List Token} {t : Token} (member : t ∈ listed xs) :
    t ∈ xs ∨ t = .symbol "," := by
  induction xs with
  | nil => exact .inl member
  | cons x rest ih =>
    cases rest with
    | nil => exact .inl member
    | cons y others =>
      rw [listed_cons_cons, List.mem_cons, List.mem_cons] at member
      rcases member with rfl | rfl | later
      · exact .inl (.head _)
      · exact .inr rfl
      · exact (ih later).imp_left (.tail _)

theorem operands?_listed {xs : List Token} (nonempty : xs ≠ [])
    (operands : ∀ x ∈ xs, x.isOperand = true) :
    Atom.operands? (listed xs ++ [.symbol ")"]) = some xs := by
  induction xs with
  | nil => exact absurd rfl nonempty
  | cons x rest ih =>
    have first := operands x (.head _)
    cases rest with
    | nil => simp [listed, Atom.operands?, first]
    | cons y others =>
      have later := ih (by simp) fun z member => operands z (.tail _ member)
      rw [listed_cons_cons]
      simp [Atom.operands?, first, later]

theorem tokens_slots (fill : Nat → Token) (index : Nat) (vs : List Value) :
    Item.tokens fill index (Item.join Item.comma (vs.map fun v => [.slot v])) =
      listed ((List.range' index vs.length).map fill) := by
  induction vs generalizing index with
  | nil => rfl
  | cons v rest ih =>
    cases rest with
    | nil => rfl
    | cons w others =>
      have later := ih (index + 1)
      rw [List.map_cons, List.map_cons, Item.join_cons_cons, Item.tokens_append, Item.tokens_append]
      simp only [List.length_cons, List.range'_succ, List.map_cons, listed_cons_cons] at later ⊢
      rw [← later]
      rfl

theorem params_slots (vs : List Value) :
    Item.params (Item.join Item.comma (vs.map fun v => [.slot v])) = vs := by
  rw [Item.params_join rfl, List.flatMap_map]
  induction vs with
  | nil => rfl
  | cons v rest ih => rw [List.flatMap_cons, ih]; rfl

namespace Test

def params : Test → List Value
  | .present _ _ => []
  | .compare _ _ v => [v]
  | .member _ _ vs => vs
  | .pattern _ _ like => [.text like]

/-- Lists that a column is looked up in are not empty. -/
def IsListed : Test → Prop
  | .member _ _ vs => vs ≠ []
  | _ => True

/-- What a test says of its column, whose first slot has the number `index`. -/
def atom (d : Dialect) (fill : Nat → Token) (index : Nat) : Test → Atom
  | .present column isSet => .present column.name isSet
  | .compare column op _ => .compare column.name op.name (fill index)
  | .member column negated vs =>
    .member column.name negated ((List.range' index vs.length).map fill)
  | .pattern column _ _ =>
    .pattern column.name d.like (fill index) (match d with
      | .postgres => none
      | .sqlite => some "\\")

theorem params_atomItems (d : Dialect) (t : Test) : Item.params (t.atomItems d) = t.params := by
  cases t with
  | present column isSet => cases isSet <;> rfl
  | compare column op v => rfl
  | member column negated vs => cases negated <;> simp [atomItems, Item.params, params_slots, params]
  | pattern column negated like => cases d <;> rfl

theorem params_items (d : Dialect) (t : Test) : Item.params (t.items d) = t.params := by
  rw [items]
  split
  · simp [Item.params, params_atomItems]
  · exact t.params_atomItems d

theorem isListed_of_tested {column : Column} {operator : Operator} {values : List Value} {t : Test}
    (tested : Tested column operator values t) : t.IsListed := by
  cases tested with
  | member nonempty converted =>
    intro none
    rw [none, List.forall₂_nil_right_iff] at converted
    exact nonempty converted
  | _ => trivial

theorem operand_atomItems (d : Dialect) {fill : Nat → Token} (fills : IsFilling fill) (index : Nat)
    {t : Test} (nonempty : t.IsListed) :
    IsOperand (Item.tokens fill index (t.atomItems d)) (.atom (t.atom d fill index)) := by
  cases t with
  | present column isSet =>
    cases isSet with
    | true =>
      exact operand_plain [.word "IS", .word "NOT", .word "NULL"] (by decide) rfl
    | false => exact operand_plain [.word "IS", .word "NULL"] (by decide) rfl
  | compare column op v =>
    refine operand_plain [.symbol op.name, fill index] ?_ ?_
    · have operator : isPlain (.symbol op.name) = true := by cases op <;> decide
      simp [operator, isPlain_operand (fills index)]
    · simp [Atom.ofTokens?, fills index, atom]
  | member column negated vs =>
    have operands : ∀ x ∈ (List.range' index vs.length).map fill, x.isOperand = true := by
      intro x member
      obtain ⟨i, _, rfl⟩ := List.mem_map.mp member
      exact fills i
    have some : vs ≠ [] := nonempty
    have list := operands?_listed (by simpa using some) operands
    have plain : ∀ t ∈ listed ((List.range' index vs.length).map fill), isPlain t = true := by
      intro t member
      rcases mem_listed member with operand | rfl
      · exact isPlain_operand (operands t operand)
      · decide
    cases negated with
    | false =>
      have read := operand_listed column.name [.word "IN"]
        (a := .member column.name false ((List.range' index vs.length).map fill)) (by decide) plain
        (by simp [Atom.ofTokens?, list])
      simpa [atomItems, atom, Item.tokens, Item.params, tokens_slots] using read
    | true =>
      have read := operand_listed column.name [.word "NOT", .word "IN"]
        (a := .member column.name true ((List.range' index vs.length).map fill)) (by decide) plain
        (by simp [Atom.ofTokens?, list])
      simpa [atomItems, atom, Item.tokens, Item.params, tokens_slots] using read
  | pattern column negated like =>
    cases d with
    | postgres =>
      refine operand_plain [.word "ILIKE", fill index] ?_ ?_
      · simp +decide [isPlain_operand (fills index)]
      · simp [Atom.ofTokens?, fills index, atom, Dialect.like]
    | sqlite =>
      refine operand_plain [.word "LIKE", fill index, .word "ESCAPE", .text "\\"] ?_ ?_
      · simp +decide [isPlain_operand (fills index)]
      · simp [Atom.ofTokens?, fills index, atom, Dialect.like]

/-- A test that is negated from outside has the opposite truth of its atom. -/
def outcome (t : Test) (truth : Truth) : Truth := if t.isNegated then truth.not else truth

/-- The formula of a test, with the truth that its atom has when the test has the given one. -/
def formula (d : Dialect) (fill : Nat → Token) (index : Nat) (t : Test) (truth : Truth) :
    Formula (Atom × Truth) :=
  if t.isNegated then .not (.atom (t.atom d fill index, t.outcome truth))
  else .atom (t.atom d fill index, t.outcome truth)

theorem atoms_formula (d : Dialect) (fill : Nat → Token) (index : Nat) (t : Test) (truth : Truth) :
    (t.formula d fill index truth).atoms = [(t.atom d fill index, t.outcome truth)] := by
  rw [formula]
  split <;> rfl

theorem value_formula (d : Dialect) (fill : Nat → Token) (index : Nat) (t : Test) (truth : Truth) :
    ((t.formula d fill index truth).map Prod.snd).value = truth := by
  rw [formula, outcome]
  split
  · exact truth.not_not
  · rfl

theorem operand_items (d : Dialect) {fill : Nat → Token} (fills : IsFilling fill) (index : Nat)
    {t : Test} (nonempty : t.IsListed) (truth : Truth) :
    IsOperand (Item.tokens fill index (t.items d))
      ((t.formula d fill index truth).map Prod.fst) := by
  have atom := t.operand_atomItems d fills index nonempty
  rw [items, formula]
  split
  · have negated := atom.whole.parenthesised.not
    simpa [Item.tokens, Item.params, map] using negated
  · exact atom

end Test

end EntitySchema.Sql
