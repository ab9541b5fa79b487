import EntitySchema.Proofs.Sql.Reading
import EntitySchema.Proofs.Sql.Request
import EntitySchema.Proofs.Sql.Tree

/-!
Predicates as items. A filter is a tree of conditions; once its conditions are checked it is a tree
of tests, and what is written is the clause of this tree.
-/

namespace EntitySchema.Sql

def Item.comma : List Item := [.symbol ",", .blank]

theorem Item.spells_comma : Item.Spells ", " Item.comma := ⟨rfl, fun _ _ => rfl⟩

theorem Item.tidy_list {iss : List (List Item)} (each : ∀ is ∈ iss, Tidy false is) :
    Tidy false (join comma iss) := by
  apply tidy_join
  · simp [comma, Token.proper_mark]
  · simp [comma]
  · exact each

namespace Item

theorem spells_intercalate {separator : String} {js : List Item} (between : Spells separator js)
    {ss : List String} {iss : List (List Item)} (spells : List.Forall₂ Spells ss iss) :
    Spells (separator.intercalate ss) (join js iss) := by
  induction spells with
  | nil => exact ⟨rfl, fun _ _ => rfl⟩
  | cons first others ih =>
    cases others with
    | nil =>
      rw [String.intercalate_singleton]
      exact first
    | cons second others =>
      rw [String.intercalate_cons_cons, join_cons_cons]
      exact (first.append between).append ih

theorem spells_names (names : List String) :
    Spells (nameList names) (join comma (names.map fun n => [.name n])) := by
  apply spells_intercalate spells_comma
  rw [List.forall₂_map_left_iff, List.forall₂_map_right_iff, List.forall₂_same]
  exact fun n _ => spells_name n

theorem spells_number (s : String) : Spells s [.token (.number s)] := by
  have written := spells_token (.number s)
  rwa [Token.spelling, String.ofList_toList] at written

end Item

def Dialect.escapeItems : Dialect → List Item
  | .postgres => []
  | .sqlite => [.blank, .word "ESCAPE", .blank, .token (.text "\\")]

namespace Test

/-- The items of a test, without the negation of a pattern. -/
def atomItems (d : Dialect) : Test → List Item
  | .present column isSet =>
    [.name column.name, .blank, .word "IS", .blank] ++
      (if isSet then [.word "NOT", .blank] else []) ++ [.word "NULL"]
  | .compare column op v => [.name column.name, .blank, .symbol op.name, .blank, .slot v]
  | .member column negated vs =>
    [.name column.name, .blank] ++ (if negated then [.word "NOT", .blank] else []) ++
      [.word "IN", .blank, .symbol "("] ++ Item.join Item.comma (vs.map fun v => [.slot v]) ++
      [.symbol ")"]
  | .pattern column _ like =>
    [.name column.name, .blank, .word d.like, .blank, .slot (.text like)] ++ d.escapeItems

/-- Only pattern tests are negated from outside. -/
def isNegated : Test → Bool
  | .pattern _ negated _ => negated
  | _ => false

def items (d : Dialect) (t : Test) : List Item :=
  if t.isNegated then [.word "NOT", .blank, .symbol "("] ++ t.atomItems d ++ [.symbol ")"]
  else t.atomItems d

theorem writes_pattern (d : Dialect) (column : Column) (negated : Bool) (like : String)
    {b : Buffer} {is : List Item} (reads : b.Reads is) :
    (((b.push (quoteName column.name ++ " " ++ d.like ++ " ")).bind (.text like)).push
      d.likeEscape).Reads (is ++ atomItems d (.pattern column negated like)) := by
  have front := (((Item.spells_name column.name).append Item.spells_blank).append
    (Item.spells_word d.like)).append Item.spells_blank
  have escape : Item.Spells d.likeEscape d.escapeItems := by
    cases d <;> exact ⟨rfl, fun _ _ => rfl⟩
  have all := ((reads.push front).bind (.text like)).push escape
  simp only [List.append_assoc] at all
  exact all

theorem writes_items (d : Dialect) (t : Test) : Buffer.Writes (write d) t (t.items d) := by
  intro b is reads
  cases t with
  | present column isSet =>
    have name := Item.spells_name column.name
    cases isSet with
    | true => exact reads.push (name.append ⟨rfl, fun _ _ => rfl⟩)
    | false => exact reads.push (name.append ⟨rfl, fun _ _ => rfl⟩)
  | compare column op v =>
    have front := (((Item.spells_name column.name).append Item.spells_blank).append
      (Item.spells_symbol op.name)).append Item.spells_blank
    have all := (reads.push front).bind v
    rw [List.append_assoc] at all
    exact all
  | member column negated vs =>
    have head : Item.Spells (quoteName column.name ++ (if negated then " NOT IN (" else " IN ("))
        ([.name column.name, .blank] ++ (if negated then [.word "NOT", .blank] else []) ++
          [.word "IN", .blank, .symbol "("]) := by
      have name := Item.spells_name column.name
      cases negated with
      | true => exact name.append ⟨rfl, fun _ _ => rfl⟩
      | false => exact name.append ⟨rfl, fun _ _ => rfl⟩
    have members := (reads.push head).separated_map Buffer.bind
      (fun v => [.slot v]) (fun v b is reads => reads.bind v) Item.spells_comma vs
    have all := members.push (Item.spells_symbol ")")
    simp only [List.append_assoc] at all
    rw [items, show isNegated (.member column negated vs) = false from rfl,
      if_neg Bool.false_ne_true, atomItems]
    simp only [List.append_assoc]
    exact all
  | pattern column negated like =>
    cases negated with
    | false => exact writes_pattern d column false like reads
    | true =>
      have opening : Item.Spells "NOT (" [.word "NOT", .blank, .symbol "("] :=
        ⟨rfl, fun _ _ => rfl⟩
      have all := (writes_pattern d column true like (reads.push opening)).push
        (Item.spells_symbol ")")
      simp only [List.append_assoc] at all
      rw [items, isNegated, if_pos rfl, List.append_assoc]
      exact all

theorem proper_comparison (op : Comparison) : (Token.symbol op.name).Proper := by
  cases op <;> exact .inr (by decide)

theorem tidy_slots (vs : List Value) :
    Item.Tidy false (Item.join Item.comma (vs.map fun v => [.slot v])) :=
  Item.tidy_list (by simp)

theorem tidy_atomItems (d : Dialect) (t : Test) : Item.Tidy false (t.atomItems d) := by
  cases t with
  | present column isSet => cases isSet <;> simp +decide [atomItems, Token.Proper]
  | compare column op v => simp [atomItems, proper_comparison]
  | member column negated vs =>
    cases negated <;> simp +decide [atomItems, Token.Proper, tidy_slots]
  | pattern column negated like =>
    cases d <;> simp +decide [atomItems, Token.Proper, Dialect.escapeItems, Dialect.like]

theorem tidy_items (d : Dialect) (t : Test) : Item.Tidy false (t.items d) := by
  rw [items]
  split
  · simp +decide [Token.Proper, tidy_atomItems]
  · exact t.tidy_atomItems d

end Test

/-- A predicate as items, and whether it needs parentheses inside another one. -/
structure Clause where
  items : List Item
  compound : Bool

def Connective.separator : Connective → String
  | .and => " AND "
  | .or => " OR "

def Connective.items (c : Connective) : List Item := [.blank, .word c.word, .blank]

theorem Connective.spells_separator (c : Connective) : Item.Spells c.separator c.items := by
  cases c <;> exact ⟨rfl, fun _ _ => rfl⟩

theorem Connective.tidy_chain (c : Connective) {iss : List (List Item)}
    (each : ∀ is ∈ iss, Item.Tidy false is) : Item.Tidy false (Item.join c.items iss) := by
  apply Item.tidy_join
  · cases c <;> simp +decide [Connective.items, Token.Proper, Connective.word]
  · simp [Connective.items]
  · exact each

namespace Clause

/-- The items of the clause as a part of another one. -/
def nested (k : Clause) : List Item :=
  if k.compound then [.symbol "("] ++ k.items ++ [.symbol ")"] else k.items

def join (c : Connective) : List Clause → Option Clause
  | [] => none
  | [k] => some k
  | ks => some ⟨Item.join c.items (ks.map nested), true⟩

theorem tidy_nested {k : Clause} (tidy : Item.Tidy false k.items) : Item.Tidy false k.nested := by
  rw [nested]
  split
  · simp [Token.proper_mark, tidy]
  · exact tidy

theorem tidy_join {c : Connective} {ks : List Clause} {k : Clause}
    (tidy : ∀ k ∈ ks, Item.Tidy false k.items) (joined : join c ks = some k) :
    Item.Tidy false k.items := by
  match ks, joined with
  | [only], joined =>
    cases joined
    exact tidy _ (.head _)
  | first :: second :: rest, joined =>
    cases joined
    apply c.tidy_chain
    intro is member
    obtain ⟨k, inside, rfl⟩ := List.mem_map.mp member
    exact tidy_nested (tidy k inside)

end Clause

/-- The clause of a tree of tests; a tree without tests has none. -/
def Tree.clause? (d : Dialect) : Tree Test → Option Clause :=
  fold (fun t => some ⟨t.items d, false⟩) fun c ks => Clause.join c (ks.filterMap id)

theorem Tree.clause?_group (d : Dialect) (c : Connective) (children : List (Tree Test)) :
    clause? d (group c children) = Clause.join c (children.filterMap (clause? d)) := by
  rw [clause?, fold_group, ← clause?, List.filterMap_map, Function.id_comp]

theorem Tree.tidy_clause {d : Dialect} {t : Tree Test} {k : Clause} (written : t.clause? d = some k) :
    Item.Tidy false k.items := by
  induction t using Tree.inductionOn generalizing k with
  | leaf t =>
    cases written
    exact t.tidy_items d
  | group c children ih =>
    rw [clause?_group] at written
    refine Clause.tidy_join (fun part member => ?_) written
    obtain ⟨child, inside, found⟩ := List.mem_filterMap.mp member
    exact ih child inside found

/-! Predicates in buffers. -/

structure Predicate.Reads (p : Predicate) (k : Clause) : Prop where
  buffer : p.buffer.Reads k.items
  compound : p.compound = k.compound

theorem Predicate.writes_nested {p : Predicate} {k : Clause} (same : p.Reads k) :
    Buffer.Writes write p k.nested := by
  intro b is reads
  rw [write, Clause.nested, same.compound]
  split
  · have all := ((reads.push (Item.spells_symbol "(")).append same.buffer).push
      (Item.spells_symbol ")")
    rw [List.append_assoc, List.append_assoc] at all
    rw [List.append_assoc]
    exact all
  · exact reads.append same.buffer

theorem Predicate.reads_join (c : Connective) {ps : List Predicate} {ks : List Clause}
    (same : List.Forall₂ Reads ps ks) :
    Option.Rel Reads (join c.separator ps) (Clause.join c ks) := by
  cases same with
  | nil => exact .none
  | cons first others =>
    cases others with
    | nil => exact .some first
    | cons second others =>
      refine .some ⟨?_, rfl⟩
      have parts : List.Forall₂ (Buffer.Writes write) _ _ :=
        List.forall₂_map_right_iff.mpr (((others.cons second).cons first).imp
          fun p k => writes_nested)
      exact Buffer.reads_empty.separated parts c.spells_separator

namespace Compiler

/-- The tree is the filter with the test of every condition. -/
structure Checks (c : Compiler) (node : SearchNode) (checked : Tree (Condition × Test)) : Prop where
  conditions : checked.map Prod.fst = node
  tests : ∀ x ∈ checked.leaves, c.condition x.1 = .ok x.2

def clause? (c : Compiler) (checked : Tree (Condition × Test)) : Option Clause :=
  (checked.map Prod.snd).clause? c.dialect

theorem clause?_group (c : Compiler) (k : Connective) (trees : List (Tree (Condition × Test))) :
    c.clause? (Tree.group k trees) = Clause.join k (trees.filterMap c.clause?) := by
  rw [clause?, Tree.map_group, Tree.clause?_group, List.filterMap_map]
  rfl

theorem Checks.group {c : Compiler} (k : Connective) {children : List SearchNode}
    {trees : List (Tree (Condition × Test))} (checks : List.Forall₂ c.Checks children trees) :
    c.Checks (Tree.group k children) (Tree.group k trees) := by
  constructor
  · have same : trees.map (Tree.map Prod.fst) = children := by
      induction checks with
      | nil => rfl
      | cons first others ih => rw [List.map_cons, ih, first.conditions]
    rw [Tree.map_group, same]
  · intro x member
    rw [Tree.leaves_group, List.mem_flatMap] at member
    obtain ⟨tree, inside, leaf⟩ := member
    obtain ⟨node, _, check⟩ := Outcome.exists_of_mem_results checks inside
    exact check.tests x leaf

theorem predicate?_group (c : Compiler) (k : Connective) (children : List SearchNode) :
    c.predicate? (Tree.group k children) =
      (c.predicates children).map (Predicate.join k.separator) := by
  cases k <;> rw [Tree.group, predicate?, Connective.separator]

theorem predicates_eq_ok {c : Compiler} {children : List SearchNode} {ps : List Predicate} :
    c.predicates children = .ok ps ↔
      ∃ rs, List.Forall₂ (fun node r => c.predicate? node = .ok r) children rs ∧
        ps = rs.flatMap Option.toList := by
  induction children generalizing ps with
  | nil =>
    rw [predicates]
    constructor
    · intro ok
      cases ok
      exact ⟨[], .nil, rfl⟩
    · intro given
      obtain ⟨rs, none, rfl⟩ := given
      cases none
      rfl
  | cons node rest ih =>
    simp only [predicates, Outcome.bind_eq_ok, ih]
    constructor
    · intro given
      obtain ⟨r, first, _, ⟨rs, others, rfl⟩, done⟩ := given
      cases done
      exact ⟨r :: rs, .cons first others, rfl⟩
    · intro given
      obtain ⟨_, each, rfl⟩ := given
      cases each with
      | cons first others => exact ⟨_, first, _, ⟨_, others, rfl⟩, rfl⟩

/-- A filter that is accepted has a test for each of its conditions, and its predicate is the clause
of these tests. -/
theorem predicate?_reads {c : Compiler} {node : SearchNode} {r : Option Predicate}
    (ok : c.predicate? node = .ok r) :
    ∃ checked, c.Checks node checked ∧ Option.Rel Predicate.Reads r (c.clause? checked) := by
  induction node using Tree.inductionOn generalizing r with
  | leaf cond =>
    rw [predicate?, Outcome.map_eq_ok] at ok
    obtain ⟨t, test, rfl⟩ := ok
    refine ⟨.leaf (cond, t), ⟨rfl, by simpa using test⟩, .some ⟨?_, rfl⟩⟩
    exact t.writes_items c.dialect Buffer.empty [] Buffer.reads_empty
  | group k children ih =>
    rw [predicate?_group, Outcome.map_eq_ok] at ok
    obtain ⟨ps, ok, rfl⟩ := ok
    obtain ⟨rs, each, rfl⟩ := predicates_eq_ok.mp ok
    -- a member without conditions has no predicate and no clause, so both lists skip it
    have parts : ∃ trees : List (Tree (Condition × Test)), List.Forall₂ c.Checks children trees ∧
        List.Forall₂ Predicate.Reads (rs.flatMap Option.toList) (trees.filterMap c.clause?) := by
      clear ok
      induction each with
      | nil => exact ⟨[], .nil, .nil⟩
      | @cons node r nodes rs first others later =>
        obtain ⟨tree, checks, reads⟩ := ih node (.head _) first
        obtain ⟨trees, allChecks, allReads⟩ := later fun node member => ih node (.tail _ member)
        refine ⟨tree :: trees, .cons checks allChecks, ?_⟩
        rw [List.flatMap_cons, List.filterMap_cons]
        generalize c.clause? tree = written at reads ⊢
        cases reads with
        | none => exact allReads
        | some same => exact .cons same allReads
    obtain ⟨trees, checks, reads⟩ := parts
    exact ⟨Tree.group k trees, .group k checks, by
      rw [clause?_group]
      exact Predicate.reads_join k reads⟩

end Compiler

end EntitySchema.Sql
